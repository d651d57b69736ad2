import MultiClaw.Workflow.CoordinatorSpec
import MultiClaw.Workflow.System

/-! The operations of the coordinator under any relation that leaves the tables they write free. -/
namespace MultiClaw

open Base Transaction

variable {R : Env → Db → Db → Prop} {context : TenantContext} {lease : RunLease}
  {owner checkpointId : String} {α : Type}

/-- The relation allows every write to the runs and to the approvals. -/
structure FreesRuns (R : Env → Db → Db → Prop) : Prop where
  runs : ∀ env db runs, R env db { db with runs }
  approvals : ∀ env db approvals, R env db { db with approvals }

/-- The relation allows every write to the checkpoints. -/
def FreesCheckpoints (R : Env → Db → Db → Prop) : Prop :=
  ∀ env db checkpoints, R env db { db with checkpoints }

/-- The relation allows every write to the executions. -/
def FreesExecutions (R : Env → Db → Db → Prop) : Prop :=
  ∀ env db executions, R env db { db with executions }

namespace WorkflowRepository

theorem requireLease_leads {t v : Nat} : Leads R (requireLease context owner t v) := by
  refine leads_bind leads_get fun db => ?_
  split
  · exact leads_throw
  · split
    · exact leads_throw
    · exact leads_pure

theorem updateRunLease_leads (hR : FreesRuns R) {p : RunRow → Bool} {f : RunRow → RunRow}
    {hf : ∀ r, (f r).keys = r.keys} {t v : Nat} :
    Leads R (updateRunLease p f hf context owner t v) := by
  refine leads_bind ?_ fun n => ?_
  · intro env db a db' h
    cases h
    exact .single (hR.runs env db _)
  · split_ifs
    · exact leads_pure
    · exact leads_map requireLease_leads

theorem createRun_leads (hR : FreesRuns R) {status : RunStatus} {plan : Option PlanBinding} :
    Leads R (createRun context owner status plan) := by
  intro env db lease db' h
  simp only [createRun, run_bind, run_ask, run_get] at h
  split at h
  · cases h
  · split at h
    · split at h
      · cases h
      · obtain ⟨_, db₁, hset, hlease⟩ := run_bind_eq_ok.mp h
        cases hset
        exact .head (hR.runs env db _) (requireLease_leads hlease)
    · cases h

theorem takeOverRun_leads (hR : FreesRuns R) : Leads R (takeOverRun context owner) := by
  refine leads_bind leads_ask fun env => leads_bind leads_get fun db => ?_
  split
  · exact leads_pure
  · split_ifs
    · exact leads_throw
    · exact leads_pure
    · exact updateRunLease_leads hR

theorem resumeWaitingRun_leads (hR : FreesRuns R) : Leads R (resumeWaitingRun context owner) := by
  refine leads_bind leads_ask fun env => leads_bind leads_get fun db => ?_
  split
  · exact leads_pure
  · split_ifs
    · exact leads_pure
    · exact updateRunLease_leads hR

theorem updateWaitingPlanRun_leads (hR : FreesRuns R) {planId : String}
    {planVersion expected : Nat} {digest : Option String} {write : RunRow → Env → RunRow}
    {hwrite : ∀ r env, (write r env).keys = r.keys} :
    Leads R (updateWaitingPlanRun context owner planId planVersion expected digest
      write hwrite) := by
  refine leads_bind leads_ask fun env => leads_bind leads_get fun db => ?_
  split
  · exact leads_pure
  · split_ifs
    · exact leads_pure
    · exact updateRunLease_leads hR

theorem transitionRun_leads (hR : FreesRuns R) {target : RunStatus} :
    Leads R (transitionRun lease target) := by
  refine leads_bind leads_ask fun env => leads_bind leads_get fun db => ?_
  split
  · exact leads_pure
  · exact leads_bind leads_ofExcept fun _ => updateRunLease_leads hR

theorem requestCancellation_leads (hR : FreesRuns R) :
    Leads R (requestCancellation context) := by
  intro env db o db' h
  rw [requestCancellation_run] at h
  split at h
  · cases h
    exact .refl
  · split_ifs at h <;> cases h
    · exact .refl
    · exact .single (hR.runs env db _)

theorem insertApproval_leads (hR : FreesRuns R) {approvalId toolCallId : String}
    {expiresAt : Nat} : Leads R (insertApproval lease approvalId toolCallId expiresAt) := by
  intro env db a db' h
  cases hcur : db.currentRun lease env.now with
  | none =>
    rw [insertApproval_of_stale hcur] at h
    cases h
    exact .refl
  | some r =>
    rw [insertApproval_of_current hcur] at h
    split at h <;> cases h
    exact .single (hR.approvals env db _)

theorem updateApprovals_leads (hR : FreesRuns R) {p : ApprovalRow → Bool}
    {f : ApprovalRow → ApprovalRow} {hf : ∀ r, (f r).keys = r.keys} :
    Leads R (updateApprovals p f hf) := by
  intro env db a db' h
  cases h
  exact .single (hR.approvals env db _)

theorem resolveApproval_leads (hR : FreesRuns R) {approvalId : String} {approved : Bool}
    {version : Nat} : Leads R (resolveApproval context approvalId approved version) := by
  refine leads_bind leads_ask fun env => leads_bind (updateApprovals_leads hR) fun n => ?_
  split_ifs
  · exact leads_pure
  · exact leads_bind leads_get fun db => leads_pure

theorem markApprovalExpired_leads (hR : FreesRuns R) {approvalId : String} {version : Nat} :
    Leads R (markApprovalExpired context approvalId version) :=
  leads_bind leads_ask fun _ => leads_bind (updateApprovals_leads hR) fun _ => leads_pure

theorem insertCheckpoint_leads (hR : FreesCheckpoints R) {new : NewCheckpoint} :
    Leads R (insertCheckpoint lease new) := by
  intro env db o db' h
  obtain ⟨checkpoints, rfl⟩ := WorkflowCoordinator.insertCheckpoint_ensures o db' h
  exact .single (hR env db checkpoints)

theorem insertExecution_leads (hR : FreesExecutions R) {budget : Option Int}
    {new : NewExecution} : Leads R (insertExecution budget lease new) := by
  intro env db o db' h
  cases hcur : db.currentRun lease env.now with
  | none =>
    rw [insertExecution_of_stale hcur] at h
    cases h
    exact .refl
  | some r =>
    rw [insertExecution_of_current hcur] at h
    split_ifs at h
    · cases h
      exact .refl
    · split at h <;> cases h
      exact .single (hR env db _)

theorem updateExecution_leads (hR : FreesExecutions R) {p : ExecutionRow → Bool}
    {f : ExecutionRow → ExecutionRow} {hf : ∀ r, (f r).keys = r.keys} {executionId : String} :
    Leads R (updateExecution p f hf context executionId) := by
  refine leads_bind ?_ fun n => ?_
  · intro env db a db' h
    cases h
    exact .single (hR env db _)
  · split_ifs
    · exact leads_pure
    · exact leads_bind leads_get fun db => leads_pure

theorem transitionExecution_leads (hR : FreesExecutions R) {executionId : String}
    {source target : ExecutionStatus} {version : Nat} :
    Leads R (transitionExecution lease executionId source version target) := by
  unfold transitionExecution
  split_ifs
  · refine leads_bind leads_ask fun env => leads_bind leads_get fun db => ?_
    split
    · exact leads_pure
    · exact updateExecution_leads hR
  · exact leads_throw

theorem updateExecutionMetadata_leads (hR : FreesExecutions R) {executionId : String}
    {source : ExecutionStatus} {version : Nat} {metadata : ExecutionMetadata} :
    Leads R (updateExecutionMetadata lease executionId source version metadata) := by
  refine leads_bind leads_ask fun env => leads_bind leads_get fun db => ?_
  split
  · exact leads_pure
  · split
    · exact leads_throw
    · exact updateExecution_leads hR

end WorkflowRepository

namespace WorkflowCoordinator

open WorkflowRepository

theorem orStale_leads {message : String} {o : Option α} : Leads R (orStale message o) := by
  cases o with
  | none => exact leads_throw
  | some a => exact leads_pure

theorem enforceRunQuota_leads {tenantId : String} : Leads R (enforceRunQuota tenantId) := by
  refine leads_bind leads_ask fun env => leads_bind leads_get fun db => ?_
  split_ifs
  · exact leads_throw
  · exact leads_pure

theorem checkpointPayload_leads (hR : FreesCheckpoints R) {payload : CheckpointPayload}
    {options : CheckpointOptions} : Leads R (checkpointPayload lease payload options) :=
  leads_bind leads_ask fun _ => leads_bind leads_ofExcept fun _ => leads_bind leads_ofExcept
    fun _ => leads_bind (insertCheckpoint_leads hR) fun _ => orStale_leads

theorem checkpoint_leads (hR : FreesCheckpoints R) {phase : CheckpointPhase} {data : FieldValues}
    {options : CheckpointOptions} : Leads R (checkpoint lease phase data options) :=
  leads_bind leads_ofExcept fun _ => checkpointPayload_leads hR

theorem transitionRun_leads (hR : FreesRuns R) {target : RunStatus} :
    Leads R (transitionRun lease target) :=
  leads_bind (WorkflowRepository.transitionRun_leads hR) fun _ => orStale_leads

theorem finishRun_leads (hR : FreesRuns R) {target : RunStatus} :
    Leads R (finishRun lease target) := by
  unfold finishRun
  split_ifs
  · exact leads_throw
  · refine leads_bind leads_get fun db => ?_
    split_ifs
    · exact leads_throw
    · exact transitionRun_leads hR

theorem terminalCheckpoint_leads (hR : FreesCheckpoints R) {target : RunStatus}
    {missing : String} : Leads R (terminalCheckpoint lease target missing checkpointId) := by
  refine leads_bind leads_get fun db => ?_
  split
  · exact leads_throw
  · exact leads_bind (checkpoint_leads hR) fun _ => leads_pure

theorem decideApproval_leads (hR : FreesRuns R) {approvalId : String} {approved : Bool}
    {version : Nat} : Leads R (decideApproval context approvalId approved version) := by
  refine leads_bind (resolveApproval_leads hR) fun o => ?_
  split
  · exact leads_pure
  · refine leads_bind (markApprovalExpired_leads hR) fun expired => ?_
    split_ifs
    · exact leads_pure
    · refine leads_bind leads_get fun db => ?_
      split
      · exact leads_throw
      · split_ifs <;> exact leads_throw

theorem executionConflict_leads : Leads R (executionConflict lease : Tx α) := by
  refine leads_bind leads_ask fun env => leads_bind leads_get fun db => ?_
  split <;> exact leads_throw

end WorkflowCoordinator

/-- The calls that write an execution. -/
def WorkflowOp.writesExecution : WorkflowOp → Bool
  | createExecution .. | transitionExecution .. | updateExecutionMetadata .. => true
  | _ => false

/-- The calls that write a checkpoint. -/
def WorkflowOp.writesCheckpoint : WorkflowOp → Bool
  | startRunWithCheckpoint .. | startPlanRunWithCheckpoint ..
  | startApprovedPlanRunWithCheckpoint .. | fenceWaitingPlanRun .. | cancelWaitingPlanRun ..
  | requestCancellation .. | finishRunWithCheckpoint .. | checkpoint .. => true
  | _ => false

open WorkflowCoordinator

theorem WorkflowOp.tx_leads {op : WorkflowOp} (hR : FreesRuns R)
    (hcheckpoints : op.writesCheckpoint = true → FreesCheckpoints R)
    (hexecutions : op.writesExecution = true → FreesExecutions R) : Leads R op.tx := by
  cases op with
  | startRun => exact leads_map (leads_bind enforceRunQuota_leads fun _ =>
      WorkflowRepository.createRun_leads hR)
  | startRunWithCheckpoint =>
    refine leads_map (leads_bind enforceRunQuota_leads fun _ =>
      leads_bind (WorkflowRepository.createRun_leads hR) fun _ => leads_bind leads_get
        fun db => ?_)
    split
    · exact leads_throw
    · exact leads_bind (checkpoint_leads (hcheckpoints rfl)) fun _ => leads_pure
  | startPlanRunWithCheckpoint =>
    refine leads_map (leads_bind leads_get fun db => ?_)
    split_ifs
    · exact leads_bind enforceRunQuota_leads fun _ =>
        leads_bind (WorkflowRepository.createRun_leads hR) fun _ => leads_bind leads_ofExcept
          fun _ => leads_bind (checkpointPayload_leads (hcheckpoints rfl)) fun _ => leads_pure
    · exact leads_throw
  | startApprovedPlanRunWithCheckpoint =>
    refine leads_map (leads_bind leads_get fun db => ?_)
    split_ifs
    · refine leads_bind enforceRunQuota_leads fun _ =>
        leads_bind (WorkflowRepository.createRun_leads hR) fun _ => leads_bind leads_get
          fun db => ?_
      split
      · exact leads_throw
      · exact leads_bind (checkpoint_leads (hcheckpoints rfl)) fun _ => leads_pure
    · exact leads_throw
  | acquireRun =>
    refine leads_map (leads_bind (WorkflowRepository.takeOverRun_leads hR) fun o => ?_)
    split
    · exact leads_pure
    · exact leads_throw
  | resumeWaitingRun =>
    refine leads_map (leads_bind (WorkflowRepository.resumeWaitingRun_leads hR) fun o => ?_)
    split
    · exact leads_pure
    · exact leads_throw
  | resumeWaitingPlanRun =>
    exact leads_map (leads_bind (WorkflowRepository.updateWaitingPlanRun_leads hR)
      fun _ => orStale_leads)
  | fenceWaitingPlanRun =>
    exact leads_map (leads_bind (WorkflowRepository.updateWaitingPlanRun_leads hR) fun _ =>
      leads_bind orStale_leads fun _ => leads_bind leads_ofExcept fun _ => leads_bind leads_get
        fun _ => leads_bind (checkpointPayload_leads (hcheckpoints rfl)) fun _ => leads_pure)
  | cancelWaitingPlanRun =>
    exact leads_map (leads_bind (WorkflowRepository.updateWaitingPlanRun_leads hR) fun _ =>
      leads_bind orStale_leads fun _ =>
        leads_bind (terminalCheckpoint_leads (hcheckpoints rfl)) fun _ => leads_pure)
  | requestCancellation =>
    intro env db a db' h
    obtain ⟨_, db₂, hop, hpure⟩ := run_bind_eq_ok.mp h
    cases hpure
    obtain ⟨db₁, ⟨checkpoints, rfl⟩, rfl | ⟨r, -, rfl⟩⟩ := requestCancellation_ensures _ _ hop
    · exact .single (hcheckpoints rfl env _ checkpoints)
    · exact .head (hR.runs env db _) (.single (hcheckpoints rfl env _ checkpoints))
  | heartbeat =>
    exact leads_map (leads_bind (leads_bind leads_ask fun _ =>
      WorkflowRepository.updateRunLease_leads hR) fun _ => orStale_leads)
  | transitionRun => exact leads_map (transitionRun_leads hR)
  | finishRun => exact leads_map (finishRun_leads hR)
  | finishRunWithCheckpoint =>
    exact leads_map (leads_bind (finishRun_leads hR) fun _ =>
      leads_bind (terminalCheckpoint_leads (hcheckpoints rfl)) fun _ => leads_pure)
  | checkpoint => exact leads_map (checkpoint_leads (hcheckpoints rfl))
  | createApproval =>
    exact leads_map (leads_bind (WorkflowRepository.insertApproval_leads hR)
      fun _ => orStale_leads)
  | decideApproval => exact leads_map (decideApproval_leads hR)
  | createExecution =>
    exact leads_map (leads_bind leads_ask fun _ =>
      WorkflowRepository.insertExecution_leads (hexecutions rfl))
  | transitionExecution =>
    refine leads_map (leads_bind
      (WorkflowRepository.transitionExecution_leads (hexecutions rfl)) fun o => ?_)
    split
    · exact leads_pure
    · exact executionConflict_leads
  | updateExecutionMetadata =>
    refine leads_map (leads_bind
      (WorkflowRepository.updateExecutionMetadata_leads (hexecutions rfl)) fun o => ?_)
    split
    · exact leads_pure
    · exact executionConflict_leads

end MultiClaw
