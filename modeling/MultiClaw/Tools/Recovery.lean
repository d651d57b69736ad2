import MultiClaw.Tools.Scheduler
import MultiClaw.Workflow.Recovery

/-! Recovering an execution that another process left behind. -/
namespace MultiClaw

open Base Transaction

/-- The state in which an execution row enters a recovery. -/
def ExecutionRow.prepared (e : ExecutionRow) (lease : RunLease) : PreparedExecution :=
  { lease, executionId := e.executionId, approvalId := e.approvalId
    progressState := ⟨e.version, e.externalRequestId⟩, inputPayloadJson := e.inputPayloadJson
    inputHash := e.inputHash, recoveryStrategy := e.recoveryStrategy
    idempotencyKey := e.idempotencyKey }

namespace CoreToolScheduler

/-- Announce the dispatch of an execution that is recovered. -/
def announceRecovery (context : TenantContext) (lease : RunLease) (execution : ExecutionRow)
    (canonical : CanonicalToolInput) (status : ExecutionStatus) (version : Nat)
    (checkpointId : String) : Tx Nat :=
  WorkflowCoordinator.checkpoint lease .executionDispatching
    (dispatchData context execution.executionId execution.toolCallId execution.recoveryStrategy
      canonical.payloadHash execution.inputRef execution.idempotencyKey)
    { checkpointId, approvalId := execution.approvalId, executionId := some execution.executionId
      executionExpectedStatus := some status, executionExpectedVersion := some version }

def requireExecution (context : TenantContext) (executionId : String) : Tx ExecutionRow := do
  match (← get).getExecution context executionId with
  | none => throw .assertion
  | some e => return e

/-- `_prepare_recovery_execution`: only an execution that was read as not started is moved. -/
def prepareRecoveryExecution (context : TenantContext) (lease : RunLease)
    (execution : ExecutionRow) (canonical : CanonicalToolInput) (checkpointId : String) :
    Tx PreparedExecution := do
  if execution.status = .notStarted then
    let current ← requireExecution context execution.executionId
    if execution.recoveryStrategy = .readOnlyReplay then
      let _ ← WorkflowCoordinator.transitionExecution lease execution.executionId .notStarted
        current.version .replaying
      let replaying ← requireExecution context execution.executionId
      let _ ← announceRecovery context lease execution canonical .replaying replaying.version
        checkpointId
      let _ ← WorkflowCoordinator.transitionExecution lease execution.executionId .replaying
        replaying.version .executing
      return (← requireExecution context execution.executionId).prepared lease
    else
      let _ ← WorkflowCoordinator.transitionExecution lease execution.executionId .notStarted
        current.version .executing
      let _ ← announceRecovery context lease execution canonical .executing (current.version + 1)
        checkpointId
      return (← requireExecution context execution.executionId).prepared lease
  else return execution.prepared lease

/-- `_mark_uncertain_execution`, for an execution as it was read. -/
def markUncertainExecution (context : TenantContext) (lease : RunLease)
    (execution : ExecutionRow) (ids : NewIds) : Tx (ExecutionProgressState × RunLease) :=
  persistExecutionResult (execution.prepared lease) execution.toolName context
    (some execution.toolCallId)
    ⟨.error, "tool execution failed", execution.externalRequestId⟩ (some .uncertain) ids

/-- How `recover_execution` ends after an exception, for the execution as it is read then. -/
def failRecovery (context : TenantContext) (lease : RunLease) (toolName : String)
    (execution : ExecutionRow) (ids : NewIds) : Tx Unit := do
  if execution.status = .notStarted ∨ execution.status = .replaying then
    let _ ← blockExecution context lease execution .blockedCorrupt "tool execution failed" ids
    return ()
  else
    let _ ← persistExecutionResult (execution.prepared lease) toolName context
      (some execution.toolCallId) ⟨.error, "tool execution failed", none⟩
      (some (if execution.recoveryStrategy = .manualUncertain then .uncertain else .failedTerminal))
      ids
    return ()

end CoreToolScheduler

end MultiClaw
