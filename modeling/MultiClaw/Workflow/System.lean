import MultiClaw.Workflow.Writes

/-! The workflow operations as one system: any caller may commit any operation at any time. -/
namespace MultiClaw

open Base Transaction Relation

/-- One call of the coordinator. -/
inductive WorkflowOp where
  | startRun (context : TenantContext) (owner : String)
  | startRunWithCheckpoint (context : TenantContext) (owner checkpointId : String)
  | startPlanRunWithCheckpoint (context : TenantContext) (owner planId : String)
      (planVersion : Nat) (planDigest checkpointId : String)
  | startApprovedPlanRunWithCheckpoint (context : TenantContext) (owner planId : String)
      (planVersion : Nat) (planDigest checkpointId : String)
  | acquireRun (context : TenantContext) (owner : String)
  | resumeWaitingRun (context : TenantContext) (owner : String)
  | resumeWaitingPlanRun (context : TenantContext) (owner planId : String)
      (planVersion expectedRunVersion : Nat)
  | fenceWaitingPlanRun (context : TenantContext) (owner planId : String)
      (planVersion expectedRunVersion : Nat) (planDigest checkpointId : String)
  | cancelWaitingPlanRun (context : TenantContext) (owner planId : String)
      (planVersion expectedRunVersion : Nat) (checkpointId : String)
  | requestCancellation (context : TenantContext) (checkpointId : String)
  | heartbeat (lease : RunLease)
  | transitionRun (lease : RunLease) (target : RunStatus)
  | finishRun (lease : RunLease) (target : RunStatus)
  | finishRunWithCheckpoint (lease : RunLease) (target : RunStatus) (checkpointId : String)
  | checkpoint (lease : RunLease) (phase : CheckpointPhase) (data : FieldValues)
      (options : CheckpointOptions)
  | createApproval (lease : RunLease) (approvalId toolCallId : String) (expiresAt : Nat)
  | decideApproval (context : TenantContext) (approvalId : String) (approved : Bool)
      (version : Nat)
  | createExecution (lease : RunLease) (new : WorkflowRepository.NewExecution)
  | transitionExecution (lease : RunLease) (executionId : String)
      (expectedStatus : ExecutionStatus) (expectedVersion : Nat) (target : ExecutionStatus)
  | updateExecutionMetadata (lease : RunLease) (executionId : String)
      (expectedStatus : ExecutionStatus) (expectedVersion : Nat) (metadata : ExecutionMetadata)

namespace WorkflowOp

/-- The transaction of a call, with the lease that it grants or renews. -/
def tx : WorkflowOp → Tx (Option RunLease)
  | startRun context owner => some <$> WorkflowCoordinator.startRun context owner
  | startRunWithCheckpoint context owner checkpointId =>
    some <$> WorkflowCoordinator.startRunWithCheckpoint context owner checkpointId
  | startPlanRunWithCheckpoint context owner planId planVersion planDigest checkpointId =>
    some <$> WorkflowCoordinator.startPlanRunWithCheckpoint context owner planId planVersion
      planDigest checkpointId
  | startApprovedPlanRunWithCheckpoint context owner planId planVersion planDigest checkpointId =>
    some <$> WorkflowCoordinator.startApprovedPlanRunWithCheckpoint context owner planId
      planVersion planDigest checkpointId
  | acquireRun context owner => some <$> WorkflowCoordinator.acquireRun context owner
  | resumeWaitingRun context owner => some <$> WorkflowCoordinator.resumeWaitingRun context owner
  | resumeWaitingPlanRun context owner planId planVersion expectedRunVersion =>
    some <$> WorkflowCoordinator.resumeWaitingPlanRun context owner planId planVersion
      expectedRunVersion
  | fenceWaitingPlanRun context owner planId planVersion expectedRunVersion planDigest
      checkpointId =>
    some <$> WorkflowCoordinator.fenceWaitingPlanRun context owner planId planVersion
      expectedRunVersion planDigest checkpointId
  | cancelWaitingPlanRun context owner planId planVersion expectedRunVersion checkpointId =>
    some <$> WorkflowCoordinator.cancelWaitingPlanRun context owner planId planVersion
      expectedRunVersion checkpointId
  | requestCancellation context checkpointId =>
    (fun _ => none) <$> WorkflowCoordinator.requestCancellation context checkpointId
  | heartbeat lease => some <$> WorkflowCoordinator.heartbeat lease
  | transitionRun lease target => some <$> WorkflowCoordinator.transitionRun lease target
  | finishRun lease target => some <$> WorkflowCoordinator.finishRun lease target
  | finishRunWithCheckpoint lease target checkpointId =>
    some <$> WorkflowCoordinator.finishRunWithCheckpoint lease target checkpointId
  | checkpoint lease phase data options =>
    (fun _ => none) <$> WorkflowCoordinator.checkpoint lease phase data options
  | createApproval lease approvalId toolCallId expiresAt =>
    (fun _ => none) <$> WorkflowCoordinator.createApproval lease approvalId toolCallId expiresAt
  | decideApproval context approvalId approved version =>
    (fun _ => none) <$> WorkflowCoordinator.decideApproval context approvalId approved version
  | createExecution lease new =>
    (fun _ => none) <$> WorkflowCoordinator.createExecution lease new
  | transitionExecution lease executionId expectedStatus expectedVersion target =>
    (fun _ => none) <$> WorkflowCoordinator.transitionExecution lease executionId expectedStatus
      expectedVersion target
  | updateExecutionMetadata lease executionId expectedStatus expectedVersion metadata =>
    (fun _ => none) <$> WorkflowCoordinator.updateExecutionMetadata lease executionId
      expectedStatus expectedVersion metadata

/-- The lease that a caller presents. -/
def lease? : WorkflowOp → Option RunLease
  | heartbeat lease | transitionRun lease _ | finishRun lease _ | finishRunWithCheckpoint lease _ _
  | checkpoint lease _ _ _ | createApproval lease _ _ _ | createExecution lease _
  | transitionExecution lease _ _ _ _ | updateExecutionMetadata lease _ _ _ _ => some lease
  | _ => none

/-- The effects that a call may have on these tables. -/
def effects (db : Db) : WorkflowOp → Effect → Prop
  | startRun context _, .newRun scope plan
  | startRunWithCheckpoint context _ _, .newRun scope plan =>
    contextPredicate context scope = true ∧ plan = none
  | startPlanRunWithCheckpoint context _ planId planVersion _ _, .newRun scope plan
  | startApprovedPlanRunWithCheckpoint context _ planId planVersion _ _, .newRun scope plan =>
    contextPredicate context scope = true ∧ plan = some ⟨planId, planVersion, planVersion⟩
  | cancelWaitingPlanRun context _ _ _ _ _, .endRun scope => contextPredicate context scope = true
  | requestCancellation context _, .endRun scope =>
    ∃ r, db.getRun context = some r ∧ r.status = .awaitingUser ∧ r.scope = scope
  | transitionRun lease target, .endRun scope =>
    target.isTerminal = true ∧ contextPredicate lease.context scope = true
  | finishRun lease target, .endRun scope
  | finishRunWithCheckpoint lease target _, .endRun scope =>
    target.isTerminal = true ∧
      (target = .completed → db.hasNonterminalExecution lease.context = false) ∧
      contextPredicate lease.context scope = true
  | createExecution lease new, .newExecution scope status =>
    contextPredicate lease.context scope = true ∧ status = new.status
  | _, _ => False

theorem tx_writes (op : WorkflowOp) (env : Env) (db : Db) :
    Ensures op.tx env db fun _ db' => ReflTransGen (Step (op.effects db) env) db db' := by
  cases op with
  | startRun => exact (leads_map (WorkflowCoordinator.startRun_writes fun _ h => ⟨h, rfl⟩)).ensures
  | startRunWithCheckpoint =>
    exact (leads_map (WorkflowCoordinator.startRunWithCheckpoint_writes
      fun _ h => ⟨h, rfl⟩)).ensures
  | startPlanRunWithCheckpoint =>
    exact (leads_map (WorkflowCoordinator.startPlanRunWithCheckpoint_writes
      fun _ h => ⟨h, rfl⟩)).ensures
  | startApprovedPlanRunWithCheckpoint =>
    exact (leads_map (WorkflowCoordinator.startApprovedPlanRunWithCheckpoint_writes
      fun _ h => ⟨h, rfl⟩)).ensures
  | acquireRun => exact (leads_map WorkflowCoordinator.acquireRun_writes).ensures
  | resumeWaitingRun => exact (leads_map WorkflowCoordinator.resumeWaitingRun_writes).ensures
  | resumeWaitingPlanRun =>
    exact (leads_map WorkflowCoordinator.resumeWaitingPlanRun_writes).ensures
  | fenceWaitingPlanRun => exact (leads_map WorkflowCoordinator.fenceWaitingPlanRun_writes).ensures
  | cancelWaitingPlanRun =>
    exact (leads_map (WorkflowCoordinator.cancelWaitingPlanRun_writes fun _ h => h)).ensures
  | requestCancellation =>
    exact ensures_map (WorkflowCoordinator.requestCancellation_writes
      fun r hrun hwait => ⟨r, hrun, hwait, rfl⟩)
  | heartbeat => exact (leads_map WorkflowCoordinator.heartbeat_writes).ensures
  | transitionRun =>
    exact (leads_map (WorkflowCoordinator.transitionRun_writes fun ht _ h => ⟨ht, h⟩)).ensures
  | finishRun =>
    exact ensures_map (WorkflowCoordinator.finishRun_writes
      fun ht hidle _ h => ⟨ht, hidle, h⟩)
  | finishRunWithCheckpoint =>
    exact ensures_map (WorkflowCoordinator.finishRunWithCheckpoint_writes
      fun ht hidle _ h => ⟨ht, hidle, h⟩)
  | checkpoint => exact (leads_map WorkflowCoordinator.checkpoint_writes).ensures
  | createApproval => exact (leads_map WorkflowCoordinator.createApproval_writes).ensures
  | decideApproval => exact (leads_map WorkflowCoordinator.decideApproval_writes).ensures
  | createExecution =>
    exact (leads_map (WorkflowCoordinator.createExecution_writes fun _ h => ⟨h, rfl⟩)).ensures
  | transitionExecution => exact (leads_map WorkflowCoordinator.transitionExecution_writes).ensures
  | updateExecutionMetadata =>
    exact (leads_map WorkflowCoordinator.updateExecutionMetadata_writes).ensures

end WorkflowOp

/-- A call together with the clock and settings it runs under. -/
structure Call where
  env : Env
  op : WorkflowOp

namespace Call

/-- The tables after a call; a call that fails leaves them as they were. -/
def step (db : Db) (call : Call) : Db := (call.op.tx.commit call.env db).2

/-- The lease that a call returns to its caller. -/
def granted (db : Db) (call : Call) : Option RunLease :=
  match (call.op.tx.commit call.env db).1 with
  | .ok lease => lease
  | .error _ => none

/-- The tables after a serialized sequence of calls. -/
def runAll (db : Db) (calls : List Call) : Db := calls.foldl step db

theorem step_writes (db : Db) (call : Call) :
    ReflTransGen (Step (call.op.effects db) call.env) db (call.step db) :=
  commit_leads (call.op.tx_writes call.env db)

end Call

end MultiClaw
