import MultiClaw.Tools.Wedging

/-! The scheduler, its recovery and the coordinator as one system of transactions. -/
namespace MultiClaw

open Base Transaction Relation CoreToolScheduler

variable {env : Env} {db db' : Db} {context : TenantContext} {lease : RunLease} {ids : NewIds}
  {may : Effect → Prop}

/-- One transaction of the scheduler, of a recovery or of any caller of the coordinator. -/
inductive ToolOp where
  | workflow (op : WorkflowOp)
  | prepareExecution (context : TenantContext) (lease : RunLease) (call : ToolCall) (ids : NewIds)
  | persistApprovalRequest (context : TenantContext) (lease : RunLease) (call : ToolCall)
      (approvalId : String) (ids : NewIds)
  | recordExternalRequestId (lease : RunLease) (prepared : PreparedExecution)
      (externalRequestId : String)
  | prepareRecoveryExecution (context : TenantContext) (lease : RunLease)
      (execution : ExecutionRow) (canonical : CanonicalToolInput) (checkpointId : String)
  | close (context : TenantContext) (lease : RunLease) (ids : NewIds) (closing : SchedulerClosing)

/-- The lease that a closing presents: a dispatched call holds a copy of its own. -/
def SchedulerClosing.presented (lease : RunLease) : SchedulerClosing → RunLease
  | dispatched prepared _ _ _ | recovered prepared _ _ _ => prepared.lease
  | uncertain _ | blocked _ _ _ | failed _ _ => lease

namespace ToolOp

def tx : ToolOp → Tx Unit
  | workflow op => (fun _ => ()) <$> op.tx
  | prepareExecution context lease call ids =>
    (fun _ => ()) <$> CoreToolScheduler.prepareExecution context lease call ids
  | persistApprovalRequest context lease call approvalId ids =>
    (fun _ => ()) <$> CoreToolScheduler.persistApprovalRequest context lease call approvalId ids
  | recordExternalRequestId lease prepared externalRequestId =>
    (fun _ => ()) <$> CoreToolScheduler.recordExternalRequestId lease prepared externalRequestId
  | prepareRecoveryExecution context lease execution canonical checkpointId =>
    (fun _ => ()) <$> CoreToolScheduler.prepareRecoveryExecution context lease execution canonical
      checkpointId
  | close context lease ids closing => closing.tx context lease ids

/-- The lease that a caller presents. -/
def lease? : ToolOp → Option RunLease
  | workflow op => op.lease?
  | prepareExecution _ lease _ _ | persistApprovalRequest _ lease _ _ _
  | recordExternalRequestId lease _ _ | prepareRecoveryExecution _ lease _ _ _ => some lease
  | close _ lease _ closing => some (closing.presented lease)

end ToolOp

/-! Every transaction is a sequence of writes -/

theorem Step.any (h : Step may env db db') : Step (fun _ => True) env db db' := by
  cases h with
  | insertRun row runs hversion htoken hlive hfinished _ hinsert =>
    exact .insertRun row runs hversion htoken hlive hfinished trivial hinsert
  | changeRun r r' hr hchange => exact .changeRun r r' hr hchange fun _ _ => trivial
  | insertApproval lease run row approvals hlease hscope hwait hinsert =>
    exact .insertApproval lease run row approvals hlease hscope hwait hinsert
  | changeApproval a a' ha hchange => exact .changeApproval a a' ha hchange
  | insertExecution lease run row executions hlease hscope hidle hversion _ hbudget hinsert =>
    exact .insertExecution lease run row executions hlease hscope hidle hversion trivial hbudget
      hinsert
  | changeExecution lease run e e' hlease he hscope hchange =>
    exact .changeExecution lease run e e' hlease he hscope hchange
  | insertCheckpoint lease run row checkpoints hlease hscope hinsert =>
    exact .insertCheckpoint lease run row checkpoints hlease hscope hinsert
  | saveMemory memory => exact .saveMemory memory

theorem persistApprovalRequest_writes {call : ToolCall} {approvalId : String} :
    Writes (fun _ => True) (persistApprovalRequest context lease call approvalId ids) := by
  refine leads_bind leads_ask fun env => leads_bind
    (WorkflowCoordinator.transitionRun_writes fun _ _ _ => trivial) fun _ =>
      leads_bind WorkflowCoordinator.createApproval_writes fun _ =>
        leads_bind (WorkflowCoordinator.createExecution_writes fun _ _ => trivial) fun o => ?_
  cases o with
  | none => exact leads_throw
  | some _ => exact leads_bind WorkflowCoordinator.checkpoint_writes fun _ => leads_pure

theorem recordExternalRequestId_writes {prepared : PreparedExecution}
    {externalRequestId : String} :
    Writes may (recordExternalRequestId lease prepared externalRequestId) := by
  refine leads_bind leads_ask fun env => ?_
  dsimp only
  split_ifs
  · exact leads_throw
  · split
    · split_ifs
      · exact leads_throw
      · exact leads_pure
    · exact leads_bind WorkflowCoordinator.updateExecutionMetadata_writes fun _ => leads_pure

theorem requireExecution_writes {executionId : String} :
    Writes may (requireExecution context executionId) := by
  refine leads_bind leads_get fun db => ?_
  split
  · exact leads_throw
  · exact leads_pure

theorem prepareRecoveryExecution_writes {execution : ExecutionRow}
    {canonical : CanonicalToolInput} {checkpointId : String} :
    Writes may (prepareRecoveryExecution context lease execution canonical checkpointId) := by
  unfold prepareRecoveryExecution
  have hfinal : Writes may (do
      return (← requireExecution context execution.executionId).prepared lease) :=
    leads_bind requireExecution_writes fun _ => leads_pure
  split_ifs
  · refine leads_bind requireExecution_writes fun _ => ?_
    exact leads_bind WorkflowCoordinator.transitionExecution_writes fun _ =>
      leads_bind requireExecution_writes fun _ =>
        leads_bind WorkflowCoordinator.checkpoint_writes fun _ =>
          leads_bind WorkflowCoordinator.transitionExecution_writes fun _ => hfinal
  · refine leads_bind requireExecution_writes fun _ => ?_
    exact leads_bind WorkflowCoordinator.transitionExecution_writes fun _ =>
      leads_bind WorkflowCoordinator.checkpoint_writes fun _ => hfinal
  · exact leads_pure

theorem ToolOp.tx_writes (op : ToolOp) : Writes (fun _ => True) op.tx := by
  cases op with
  | workflow op =>
    refine leads_map fun env db a db' h => ?_
    exact ReflTransGen.mono (fun _ _ hstep => hstep.any) _ _ (op.tx_writes env db a db' h)
  | prepareExecution => exact leads_map prepareExecution_writes
  | persistApprovalRequest => exact leads_map persistApprovalRequest_writes
  | recordExternalRequestId => exact leads_map recordExternalRequestId_writes
  | prepareRecoveryExecution => exact leads_map prepareRecoveryExecution_writes
  | close => exact SchedulerClosing.tx_writes

/-! Runs of the system -/

/-- A transaction together with the clock and settings it runs under. -/
structure ToolTurn where
  env : Env
  op : ToolOp

namespace ToolTurn

/-- The tables after a transaction; one that fails leaves them as they were. -/
def step (db : Db) (turn : ToolTurn) : Db := (turn.op.tx.commit turn.env db).2

def runAll (db : Db) (turns : List ToolTurn) : Db := turns.foldl step db

theorem runAll_append (db : Db) (turns turns' : List ToolTurn) :
    runAll db (turns ++ turns') = runAll (runAll db turns) turns' := List.foldl_append

theorem step_writes (db : Db) (turn : ToolTurn) :
    ReflTransGen (Step (fun _ => True) turn.env) db (turn.step db) :=
  commit_leads turn.op.tx_writes.ensures

theorem runAll_writesTo (db : Db) (turns : List ToolTurn) : WritesTo db (runAll db turns) := by
  induction turns generalizing db with
  | nil => exact .refl
  | cons turn turns ih =>
    have hfirst : WritesTo db (turn.step db) :=
      ReflTransGen.mono (fun _ _ hstep => ⟨turn.env, hstep⟩) _ _ (turn.step_writes db)
    exact hfirst.trans (ih _)

end ToolTurn

end MultiClaw
