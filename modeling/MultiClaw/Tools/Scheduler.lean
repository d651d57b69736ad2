import MultiClaw.Storage.Memory
import MultiClaw.Workflow.Coordinator

/-! The tool scheduler: preparing an execution, observing its result, and recording progress. -/
namespace MultiClaw

open Base Transaction

inductive ToolStatus where
  | scheduled
  | validating
  | awaitingApproval
  | executing
  | success
  | error
  | cancelled
  deriving DecidableEq, Repr

/-- What a tool returns, as far as it is stored. -/
structure ToolExecutionResult where
  status : ToolStatus
  content : String
  externalRequestId : Option String := none
  deriving DecidableEq, Repr

structure CanonicalToolInput where
  payloadJson : String
  payloadHash : String
  deriving DecidableEq

/-- What the scheduler keeps in memory about the execution while the tool runs. -/
structure ExecutionProgressState where
  executionVersion : Nat
  externalRequestId : Option String := none
  deriving DecidableEq

/-- `_PreparedExecution`: its lease is a copy of the one under which the execution was prepared. -/
structure PreparedExecution where
  lease : RunLease
  executionId : String
  approvalId : Option String
  progressState : ExecutionProgressState
  inputPayloadJson : String
  inputHash : String
  recoveryStrategy : RecoveryStrategy
  idempotencyKey : Option String
  deriving DecidableEq

/-- A validated tool call: the builder's declarations and the canonical input. -/
structure ToolCall where
  toolName : String
  toolKind : String
  callId : Option String
  input : CanonicalToolInput
  recoveryStrategy : RecoveryStrategy
  idempotencyKey : Option String

/-- The ids that a transaction of the scheduler draws. -/
structure NewIds where
  executionId : String := ""
  memoryId : String := ""
  checkpointId : String

namespace CoreToolScheduler

def approvalTtlMs : Nat := 120000

def maxCanonicalInputBytes : Nat := 262144

def canonicalizeInput (host : Host) (value : List (PyStr × Json)) :
    Except WorkflowError CanonicalToolInput :=
  match secretField? host (.obj value) with
  | some key =>
    .error (.value ("tool input contains forbidden secret field " ++ pyRepr host key))
  | none => do
    let encoded ← canonicalJson (.obj value)
    if maxCanonicalInputBytes < utf8Length encoded then
      throw (.value "tool input exceeds canonical payload size limit")
    else return ⟨encoded, sha256Hex encoded⟩

/-- `value or fallback` on an optional string. -/
def orElse (value : Option String) (fallback : String) : String :=
  (value.filter (· ≠ "")).getD fallback

def approvalCursor (runId : Option String) (toolCallId : String) : String :=
  "approval:" ++ orElse runId "no-run" ++ ":" ++ toolCallId

def dispatchCursor (runId : Option String) (toolCallId : String) : String :=
  "dispatch:" ++ orElse runId "no-run" ++ ":" ++ toolCallId

def resultCursor (runId : Option String) (toolCallId : String) : String :=
  "result:" ++ orElse runId "no-run" ++ ":" ++ toolCallId

def terminalExecutionStatus (result : ToolExecutionResult) : ExecutionStatus :=
  if result.status = .success then .succeeded else .failedTerminal

open WorkflowCoordinator (jsonText jsonOption)

def dispatchData (context : TenantContext) (executionId toolCallId : String)
    (strategy : RecoveryStrategy) (inputHash inputRef : String) (idempotencyKey : Option String) :
    FieldValues :=
  let cursor := dispatchCursor context.runId toolCallId
  [("run_id", jsonOption context.runId), ("execution_id", jsonText executionId),
    ("tool_call_id", jsonText toolCallId), ("recovery_strategy", jsonText strategy.value),
    ("input_hash", jsonText inputHash), ("input_ref", jsonText inputRef),
    ("idempotency_key", jsonOption idempotencyKey), ("dispatch_cursor", jsonText cursor),
    ("cursor", jsonText cursor)]

def resultData (context : TenantContext) (executionId toolCallId : String)
    (status : ExecutionStatus) (resultDigest resultRef : String)
    (externalRequestId : Option String) : FieldValues :=
  let cursor := resultCursor context.runId toolCallId
  [("run_id", jsonOption context.runId), ("execution_id", jsonText executionId),
    ("result_status", jsonText status.value), ("result_digest", jsonText resultDigest),
    ("result_ref", jsonText resultRef), ("external_request_id", jsonOption externalRequestId),
    ("resume_cursor", jsonText cursor), ("cursor", jsonText cursor)]

def approvalData (context : TenantContext) (approvalId toolCallId cursorId : String)
    (expiresAt : Nat) : FieldValues :=
  let cursor := approvalCursor context.runId cursorId
  [("run_id", jsonOption context.runId), ("approval_id", jsonText approvalId),
    ("tool_call_id", jsonText toolCallId), ("approval_expires_at_ms", .int expiresAt),
    ("resume_cursor", jsonText cursor), ("cursor", jsonText cursor)]

def executionConflict {α : Type} : Tx α :=
  throw (.executionConflict "another execution is already active for this run")

/-- Insert the execution, move it to `EXECUTING` and announce the dispatch, in one transaction
under the lease that the handle holds at that moment. -/
def prepareExecution (context : TenantContext) (lease : RunLease) (call : ToolCall)
    (ids : NewIds) : Tx PreparedExecution := do
  let toolCallId := orElse call.callId ids.executionId
  match ← WorkflowCoordinator.createExecution lease
    { executionId := ids.executionId, approvalId := none, toolCallId, toolName := call.toolName
      toolKind := call.toolKind, recoveryStrategy := call.recoveryStrategy
      idempotencyKey := call.idempotencyKey, inputPayloadJson := call.input.payloadJson
      inputHash := call.input.payloadHash } with
  | none => executionConflict
  | some created =>
    let _ ← WorkflowCoordinator.transitionExecution lease ids.executionId .notStarted
      created.version .executing
    let _ ← WorkflowCoordinator.checkpoint lease .executionDispatching
      (dispatchData context ids.executionId toolCallId call.recoveryStrategy
        call.input.payloadHash ("tool_execution:" ++ ids.executionId ++ ":input_payload_json")
        call.idempotencyKey)
      { checkpointId := ids.checkpointId, executionId := some ids.executionId
        executionExpectedStatus := some .executing
        executionExpectedVersion := some (created.version + 1) }
    return { lease, executionId := ids.executionId, approvalId := none
             progressState := { executionVersion := created.version + 1 }
             inputPayloadJson := call.input.payloadJson, inputHash := call.input.payloadHash
             recoveryStrategy := call.recoveryStrategy, idempotencyKey := call.idempotencyKey }

/-- Move the run to the user and store the call, not started, with its approval request. -/
def persistApprovalRequest (context : TenantContext) (lease : RunLease) (call : ToolCall)
    (approvalId : String) (ids : NewIds) : Tx (ApprovalRow × RunLease) := do
  let env ← ask
  let toolCallId := orElse call.callId ids.executionId
  let transitioned ← WorkflowCoordinator.transitionRun lease .awaitingUser
  let approval ← WorkflowCoordinator.createApproval transitioned approvalId toolCallId
    (env.now + approvalTtlMs)
  match ← WorkflowCoordinator.createExecution transitioned
    { executionId := ids.executionId, approvalId := some approval.approvalId, toolCallId
      toolName := call.toolName, toolKind := call.toolKind
      recoveryStrategy := call.recoveryStrategy, idempotencyKey := call.idempotencyKey
      inputPayloadJson := call.input.payloadJson, inputHash := call.input.payloadHash } with
  | none => executionConflict
  | some _ =>
    let _ ← WorkflowCoordinator.checkpoint transitioned .awaitingApproval
      (approvalData context approval.approvalId toolCallId
        (orElse call.callId approval.approvalId) approval.expiresAt)
      { checkpointId := ids.checkpointId, approvalId := some approval.approvalId }
    return (approval, transitioned)

/-- The lease under which a result is stored: the prepared copy, or the row's current version once
a cancellation was requested. -/
def leaseForObservedResult (lease : RunLease) (context : TenantContext) : Tx RunLease := do
  if lease.context ≠ context then
    throw (.staleFence "observed result lease context is stale")
  else
    match (← get).getRun context with
    | none => return lease
    | some current =>
      if current.version = lease.version then return lease
      else if current.cancelRequestedAt ≠ none ∧
          (current.status = .running ∨ current.status = .resuming) ∧
          current.leaseOwner = some lease.leaseOwner ∧
          current.fencingToken = lease.fencingToken then
        match current.leaseExpiresAt with
        | some leaseExpiresAt =>
          return { context, leaseOwner := lease.leaseOwner, fencingToken := lease.fencingToken
                   version := current.version, leaseExpiresAt }
        | none => return lease
      else return lease

/-- `persist_tool_result`: the reference to the stored content, and its digest. -/
def persistToolResult (context : TenantContext) (memoryId content toolCallId toolName : String)
    (executionId : String) (status : ExecutionStatus) : Tx (String × String) := do
  match context.sessionId with
  | none => throw (.value "session_id is required for workflow tool result persistence")
  | some sessionId =>
    let entry ← MemoryRepository.save context
      { id := memoryId, content, type := "tool_result", role := "tool", sessionId := some sessionId
        metadata := .obj [(.text "tool_call_id", jsonText toolCallId),
          (.text "tool_name", jsonText toolName), (.text "execution_id", jsonText executionId),
          (.text "result_status", jsonText status.value)] }
    return ("memory://" ++ entry.id, sha256Hex content)

/-- What closes an execution: the row it is expected to be, the result to store and the status to
leave it in. -/
structure Closing where
  executionId : String
  approvalId : Option String
  expectedStatus : ExecutionStatus
  expectedVersion : Nat
  status : ExecutionStatus
  content : String
  externalRequestId : Option String
  toolCallId : String
  toolName : String

/-- Store the result, complete the execution and announce the observation. -/
def closeExecution (context : TenantContext) (lease : RunLease) (closing : Closing)
    (ids : NewIds) : Tx ExecutionRow := do
  let (resultRef, resultDigest) ← persistToolResult context ids.memoryId closing.content
    closing.toolCallId closing.toolName closing.executionId closing.status
  let updated ← WorkflowCoordinator.completeExecution lease closing.executionId
    closing.expectedStatus closing.expectedVersion closing.status closing.externalRequestId
    (some resultRef) (some resultDigest)
  let _ ← WorkflowCoordinator.checkpoint lease .executionResultObserved
    (resultData context closing.executionId closing.toolCallId closing.status resultDigest
      resultRef updated.externalRequestId)
    { checkpointId := ids.checkpointId, approvalId := closing.approvalId
      executionId := some closing.executionId, executionExpectedStatus := some closing.status
      executionExpectedVersion := some updated.version }
  return updated

/-- How a prepared execution is closed with a result. -/
def resultClosing (prepared : PreparedExecution) (toolName : String) (callId : Option String)
    (result : ToolExecutionResult) (terminalStatus : Option ExecutionStatus) : Closing :=
  { executionId := prepared.executionId, approvalId := prepared.approvalId
    expectedStatus := .executing
    expectedVersion := prepared.progressState.executionVersion
    status := terminalStatus.getD (terminalExecutionStatus result)
    content := result.content
    externalRequestId :=
      (result.externalRequestId.filter (· ≠ "")).or prepared.progressState.externalRequestId
    toolCallId := orElse callId prepared.executionId, toolName }

/-- `_persist_execution_result`: the progress state and the lease that it leaves. -/
def persistExecutionResult (prepared : PreparedExecution) (toolName : String)
    (context : TenantContext) (callId : Option String) (result : ToolExecutionResult)
    (terminalStatus : Option ExecutionStatus) (ids : NewIds) :
    Tx (ExecutionProgressState × RunLease) := do
  let recorded := prepared.progressState.externalRequestId
  if recorded ≠ none ∧ result.externalRequestId ≠ none ∧ recorded ≠ result.externalRequestId then
    throw (.value "external_request_id conflict")
  else
    let lease ← leaseForObservedResult prepared.lease context
    let updated ← closeExecution context lease
      (resultClosing prepared toolName callId result terminalStatus) ids
    return (⟨updated.version, updated.externalRequestId⟩, lease)

/-- `_block_execution`, for an execution as it was read. -/
def blockExecution (context : TenantContext) (lease : RunLease) (execution : ExecutionRow)
    (status : ExecutionStatus) (detail : String) (ids : NewIds) : Tx ExecutionRow :=
  closeExecution context lease
    { executionId := execution.executionId, approvalId := execution.approvalId
      expectedStatus := execution.status, expectedVersion := execution.version, status
      content := detail, externalRequestId := execution.externalRequestId
      toolCallId := execution.toolCallId, toolName := execution.toolName } ids

def stripSpace (host : Host) (s : String) : String :=
  String.ofList ((s.toList.dropWhile host.isSpace).reverse.dropWhile host.isSpace).reverse

/-- `record_external_request_id`, under the handle's current lease. -/
def recordExternalRequestId (lease : RunLease) (prepared : PreparedExecution)
    (externalRequestId : String) : Tx ExecutionProgressState := do
  let env ← ask
  let externalRequestId := stripSpace env.host externalRequestId
  if externalRequestId = "" ∨ 255 < externalRequestId.length then
    throw (.value "external_request_id must be 1-255 characters")
  else match prepared.progressState.externalRequestId with
    | some recorded =>
      if recorded ≠ externalRequestId then throw (.value "external_request_id conflict")
      else return prepared.progressState
    | none =>
      let updated ← WorkflowCoordinator.recordExternalRequestId lease prepared.executionId
        .executing prepared.progressState.executionVersion externalRequestId
      return ⟨updated.version, some externalRequestId⟩

/-- How a dispatched call ends in the scheduler. -/
inductive DispatchOutcome where
  | returned (result : ToolExecutionResult)
  | cancelledBeforeDispatch
  | raised (dispatchStarted : Bool)
  deriving DecidableEq

/-- The result that is stored for an outcome. -/
def DispatchOutcome.result : DispatchOutcome → ToolExecutionResult
  | returned result => result
  | cancelledBeforeDispatch => ⟨.cancelled, "run cancellation requested before tool dispatch", none⟩
  | raised _ => ⟨.error, "tool execution failed", none⟩

/-- The status that the scheduler forces on the execution, if any. -/
def DispatchOutcome.terminalStatus (strategy : RecoveryStrategy) :
    DispatchOutcome → Option ExecutionStatus
  | returned _ => none
  | cancelledBeforeDispatch => some .failedRetryable
  | raised true => if strategy = .manualUncertain then some .uncertain else some .failedTerminal
  | raised false => some .failedRetryable

/-- The status in which an outcome leaves the execution. -/
def DispatchOutcome.status (strategy : RecoveryStrategy) (outcome : DispatchOutcome) :
    ExecutionStatus :=
  (outcome.terminalStatus strategy).getD (terminalExecutionStatus outcome.result)

/-- The end of `CoreToolScheduler.run` for a prepared call. -/
def closeDispatched (prepared : PreparedExecution) (toolName : String) (context : TenantContext)
    (callId : Option String) (outcome : DispatchOutcome) (ids : NewIds) :
    Tx (ExecutionProgressState × RunLease) :=
  persistExecutionResult prepared toolName context callId outcome.result
    (outcome.terminalStatus prepared.recoveryStrategy) ids

end CoreToolScheduler

end MultiClaw
