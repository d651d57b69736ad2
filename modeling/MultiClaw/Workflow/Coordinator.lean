import MultiClaw.Storage.Workflow
import MultiClaw.Workflow.Checkpoint

/-! The workflow coordinator: each operation is one transaction on the run-scoped tables. -/
namespace MultiClaw

open Base Transaction

/-- `PHASE_ALLOWED_EXECUTION_STATUSES`. -/
def CheckpointPhase.allowedExecutionStatuses : CheckpointPhase → List ExecutionStatus
  | .executionDispatching => [.replaying, .executing]
  | .executionResultObserved =>
    [.succeeded, .failedRetryable, .failedTerminal, .uncertain, .blockedIncompatible,
      .blockedCorrupt]
  | _ => []

/-- The arguments of a checkpoint besides its lease, phase and payload. -/
structure CheckpointOptions where
  checkpointId : String
  checkpointSeq : Option Nat := none
  approvalId : Option String := none
  executionId : Option String := none
  executionExpectedStatus : Option ExecutionStatus := none
  executionExpectedVersion : Option Nat := none

namespace WorkflowCoordinator

def orStale {α : Type} (message : String) : Option α → Tx α
  | some a => return a
  | none => throw (.staleFence message)

def planRoundBudget (settings : Settings) : Int :=
  settings.maxSteps * settings.maxStepAttempts * settings.maxToolRounds

def enforceRunQuota (tenantId : String) : Tx Unit := do
  let env ← ask
  let db ← get
  if env.settings.maxConcurrentRunsPerTenant ≤ db.countActiveRuns tenantId then
    throw (.tenantRunQuota "tenant run quota exceeded")
  else return ()

/-- The approval and execution that a checkpoint row refers to. -/
def validateCheckpointScope (lease : RunLease) (payload : CheckpointPayload)
    (options : CheckpointOptions) : Except WorkflowError (Option String × Option String) :=
  if payload.text "run_id" ≠ lease.context.runId then
    .error (.invalidTransition "checkpoint payload run_id does not match active run")
  else match payload.phase with
    | .runStarted =>
      if payload.text "tenant_id" ≠ some lease.context.tenantId then
        .error (.invalidTransition "checkpoint payload tenant_id does not match active run")
      else if payload.text "workspace_id" ≠ some lease.context.workspaceId then
        .error (.invalidTransition "checkpoint payload workspace_id does not match active run")
      else if payload.text "session_id" ≠ lease.context.sessionId then
        .error (.invalidTransition "checkpoint payload session_id does not match active run")
      else .ok (none, none)
    | .awaitingApproval =>
      if options.executionId ≠ none then
        .error (.invalidTransition "awaiting_approval checkpoints cannot include execution_id")
      else if options.approvalId ≠ none ∧ options.approvalId ≠ payload.text "approval_id" then
        .error (.invalidTransition "checkpoint approval_id does not match payload")
      else .ok (payload.text "approval_id", none)
    | .executionDispatching | .executionResultObserved =>
      if options.executionId ≠ none ∧ options.executionId ≠ payload.text "execution_id" then
        .error (.invalidTransition "checkpoint execution_id does not match payload")
      else if options.executionExpectedStatus ≠ none ∧ options.executionExpectedVersion = none then
        .error (.invalidTransition "execution checkpoint version is required with status guard")
      else if options.executionExpectedVersion ≠ none ∧ options.executionExpectedStatus = none then
        .error (.invalidTransition "execution checkpoint status is required with version guard")
      else
        let allowed := payload.phase.allowedExecutionStatuses
        if options.executionExpectedStatus.any (· ∈ allowed) then
          .ok (options.approvalId, payload.text "execution_id")
        else
          .error (.invalidTransition (payload.phase.value ++
            " checkpoints require execution status in \x7b" ++
            ", ".intercalate ((allowed.map (·.value)).insertionSort (· ≤ ·)) ++ "\x7d"))
    | _ => .ok (options.approvalId, options.executionId)

def writeCheckpoint (lease : RunLease) (new : WorkflowRepository.NewCheckpoint) : Tx Nat := do
  orStale "run lease is stale" (← WorkflowRepository.insertCheckpoint lease new)

/-- Store a checkpoint whose payload was validated. -/
def checkpointPayload (lease : RunLease) (payload : CheckpointPayload)
    (options : CheckpointOptions) : Tx Nat := do
  let env ← ask
  let (approvalId, executionId) ← ofExcept (validateCheckpointScope lease payload options)
  let encoded ← ofExcept
    (encodeCheckpointPayload env.host payload env.settings.maxCheckpointPayloadBytes)
  writeCheckpoint lease
    { checkpointId := options.checkpointId, checkpointSeq := options.checkpointSeq
      phase := payload.phase.value, payloadJson := encoded.payloadJson
      payloadHash := encoded.payloadHash, schemaVersion := encoded.schemaVersion
      approvalId, executionId, expectedExecutionStatus := options.executionExpectedStatus
      expectedExecutionVersion := options.executionExpectedVersion }

def checkpoint (lease : RunLease) (phase : CheckpointPhase) (data : FieldValues)
    (options : CheckpointOptions) : Tx Nat := do
  let payload ← ofExcept (validatePhasePayload phase data)
  checkpointPayload lease payload options

/-- A payload built through its class first: an invalid one raises there. -/
def buildPayload (phase : CheckpointPhase) (data : FieldValues) :
    Except WorkflowError CheckpointPayload :=
  match phase.modelValidate (data.map fun m => (.text m.1, m.2)) with
  | some payload => .ok payload
  | none => .error .validation

def jsonText (s : String) : Json := .str (.text s)

def jsonOption : Option String → Json
  | some s => jsonText s
  | none => .null

def runStartedCursor (context : TenantContext) : String :=
  "run:" ++ context.runId.getD "None" ++ ":model_inference"

def terminalDigest (runId : String) (target : RunStatus) (finishedAtMs : Nat) : String :=
  sha256Hex (runId ++ ":" ++ target.value ++ ":" ++ toString finishedAtMs)

def runStartedData (context : TenantContext) (createdAt : Nat) : FieldValues :=
  [("tenant_id", jsonText context.tenantId), ("workspace_id", jsonText context.workspaceId),
    ("session_id", jsonOption context.sessionId), ("run_id", jsonOption context.runId),
    ("started_at_ms", .int createdAt), ("model_cursor", jsonText (runStartedCursor context)),
    ("cursor", jsonText (runStartedCursor context))]

def planDecisionData (runId planId : String) (planVersion : Nat) (planDigest : String) :
    FieldValues :=
  let cursor := "plan:" ++ planId ++ ":v" ++ toString planVersion ++ ":decision"
  [("run_id", jsonText runId), ("plan_id", jsonText planId), ("plan_version", .int planVersion),
    ("plan_digest", jsonText planDigest), ("decision_cursor", jsonText cursor),
    ("cursor", jsonText cursor)]

def runTerminalData (runId : String) (target : RunStatus) (finishedAt : Nat) : FieldValues :=
  [("run_id", jsonText runId), ("terminal_status", jsonText target.value),
    ("finished_at_ms", .int finishedAt),
    ("final_digest", jsonText (terminalDigest runId target finishedAt))]

def startRun (context : TenantContext) (runtimeInstanceId : String) : Tx RunLease := do
  enforceRunQuota context.tenantId
  WorkflowRepository.createRun context runtimeInstanceId

def startRunWithCheckpoint (context : TenantContext) (runtimeInstanceId checkpointId : String) :
    Tx RunLease := do
  enforceRunQuota context.tenantId
  let lease ← WorkflowRepository.createRun context runtimeInstanceId
  match (← get).getRun context with
  | none => throw (.runtime "run record missing after creation")
  | some record =>
    let _ ← checkpoint lease .runStarted (runStartedData context record.createdAt)
      { checkpointId, checkpointSeq := some 1 }
    return lease

def startPlanRunWithCheckpoint (context : TenantContext) (runtimeInstanceId : String)
    (planId : String) (planVersion : Nat) (planDigest checkpointId : String) : Tx RunLease := do
  if (← get).planVersionExists context planId planVersion (some planDigest) then
    enforceRunQuota context.tenantId
    let lease ← WorkflowRepository.createRun context runtimeInstanceId .awaitingUser
      (some ⟨planId, planVersion, planVersion⟩)
    let payload ← ofExcept (buildPayload .planAwaitingApproval
      (planDecisionData (context.runId.getD "") planId planVersion planDigest))
    let _ ← checkpointPayload lease payload { checkpointId, checkpointSeq := some 1 }
    return lease
  else throw (.staleFence "Plan version or digest is stale")

def startApprovedPlanRunWithCheckpoint (context : TenantContext) (runtimeInstanceId : String)
    (planId : String) (planVersion : Nat) (planDigest checkpointId : String) : Tx RunLease := do
  if (← get).planVersionExists context planId planVersion (some planDigest) then
    enforceRunQuota context.tenantId
    let lease ← WorkflowRepository.createRun context runtimeInstanceId .running
      (some ⟨planId, planVersion, planVersion⟩)
    match (← get).getRun context with
    | none => throw (.runtime "Plan rerun record missing after creation")
    | some record =>
      let _ ← checkpoint lease .runStarted (runStartedData context record.createdAt)
        { checkpointId, checkpointSeq := some 1 }
      return lease
  else throw (.staleFence "Plan version or digest is stale")

def acquireRun (context : TenantContext) (runtimeInstanceId : String) : Tx RunLease := do
  match ← WorkflowRepository.takeOverRun context runtimeInstanceId with
  | some lease => return lease
  | none => throw (.leaseConflict "run lease is still current")

def resumeWaitingRun (context : TenantContext) (runtimeInstanceId : String) : Tx RunLease := do
  match ← WorkflowRepository.resumeWaitingRun context runtimeInstanceId with
  | some lease => return lease
  | none => throw (.leaseConflict "awaiting_user run could not be resumed")

def resumeWaitingPlanRun (context : TenantContext) (runtimeInstanceId planId : String)
    (planVersion expectedRunVersion : Nat) : Tx RunLease := do
  orStale "waiting Plan run fence is stale" (← WorkflowRepository.resumeWaitingPlanRun context
    runtimeInstanceId planId planVersion expectedRunVersion)

def fenceWaitingPlanRun (context : TenantContext) (runtimeInstanceId planId : String)
    (planVersion expectedRunVersion : Nat) (planDigest checkpointId : String) :
    Tx RunLease := do
  let lease ← orStale "waiting Plan run fence is stale"
    (← WorkflowRepository.fenceWaitingPlanRun context runtimeInstanceId planId planVersion
      planDigest expectedRunVersion)
  let payload ← ofExcept (buildPayload .planAwaitingApproval
    (planDecisionData (context.runId.getD "") planId planVersion planDigest))
  let _ ← checkpointPayload lease payload
    { checkpointId, checkpointSeq := some ((← get).getNextCheckpointSeq context) }
  return lease

/-- Write the terminal checkpoint of a run that has just been finished. -/
def terminalCheckpoint (lease : RunLease) (target : RunStatus) (missing : String)
    (checkpointId : String) : Tx Unit := do
  let db ← get
  match (db.getRun lease.context).bind (·.finishedAt) with
  | none => throw (.runtime missing)
  | some finishedAt =>
    let _ ← checkpoint lease .runTerminal
      (runTerminalData (lease.context.runId.getD "") target finishedAt)
      { checkpointId, checkpointSeq := some (db.getNextCheckpointSeq lease.context) }
    return ()

def cancelWaitingPlanRun (context : TenantContext) (runtimeInstanceId planId : String)
    (planVersion expectedRunVersion : Nat) (checkpointId : String) : Tx RunLease := do
  let lease ← orStale "waiting Plan run fence is stale"
    (← WorkflowRepository.cancelWaitingPlanRun context runtimeInstanceId planId planVersion
      expectedRunVersion)
  terminalCheckpoint lease .cancelled "cancelled Plan run missing finished_at" checkpointId
  return lease

def requestCancellation (context : TenantContext) (checkpointId : String) : Tx RunRow := do
  match ← WorkflowRepository.requestCancellation context with
  | none => throw (.runtime "run record missing for cancellation")
  | some record =>
    match record.finishedAt with
    | none => return record
    | some finishedAt =>
      if record.status ≠ .cancelled then return record
      else
        let db ← get
        match db.getLatestCheckpoint context with
        | some latest =>
          match CheckpointPhase.all.find? fun phase => phase.value == latest.phase with
          | none => throw (.value "not a valid CheckpointPhase")
          | some .runTerminal => return record
          | some _ => close db record finishedAt
        | none => close db record finishedAt
where
  /-- The terminal checkpoint is written under the lease that the cancelled row still carries. -/
  close (db : Db) (record : RunRow) (finishedAt : Nat) : Tx RunRow := do
    let _ ← checkpoint (record.lease context) .runTerminal
      (runTerminalData (context.runId.getD "") .cancelled finishedAt)
      { checkpointId, checkpointSeq := some (db.getNextCheckpointSeq context) }
    return record

def heartbeat (lease : RunLease) : Tx RunLease := do
  orStale "run lease is stale" (← WorkflowRepository.refreshLease lease)

def transitionRun (lease : RunLease) (target : RunStatus) : Tx RunLease := do
  orStale "run lease is stale" (← WorkflowRepository.transitionRun lease target)

def finishRun (lease : RunLease) (target : RunStatus) : Tx RunLease := do
  if !target.isTerminal then
    throw (.invalidTransition (target.value ++ " is not a terminal run status"))
  else if target = .completed ∧ (← get).hasNonterminalExecution lease.context then
    throw (.invalidTransition "run cannot complete while executions are nonterminal")
  else transitionRun lease target

def finishRunWithCheckpoint (lease : RunLease) (target : RunStatus) (checkpointId : String) :
    Tx RunLease := do
  let transitioned ← finishRun lease target
  terminalCheckpoint transitioned target "terminal run record missing finished_at" checkpointId
  return transitioned

def decideApproval (context : TenantContext) (approvalId : String) (approved : Bool)
    (version : Nat) : Tx (Except WorkflowError ApprovalRow) := do
  match ← WorkflowRepository.resolveApproval context approvalId approved version with
  | some resolved => return .ok resolved
  | none =>
    -- an expiry is committed, and reported after the commit
    if ← WorkflowRepository.markApprovalExpired context approvalId version then
      return .error (.invalidTransition "approval expired")
    else
      match (← get).getApproval context approvalId with
      | none => throw (.versionConflict "approval record not found")
      | some current =>
        if current.status ≠ .awaitingUser then
          throw (.versionConflict "approval already resolved")
        else if current.version ≠ version then
          throw (.versionConflict "approval version conflict")
        else throw (.invalidTransition "approval could not be resolved")

def createApproval (lease : RunLease) (approvalId toolCallId : String) (expiresAt : Nat) :
    Tx ApprovalRow := do
  orStale "run lease is stale"
    (← WorkflowRepository.insertApproval lease approvalId toolCallId expiresAt)

def createExecution (lease : RunLease) (new : WorkflowRepository.NewExecution) :
    Tx (Option ExecutionRow) := do
  let env ← ask
  WorkflowRepository.insertExecution (some (planRoundBudget env.settings)) lease new

/-- Tell a stale lease from a lost race on the execution row. -/
def executionConflict {α : Type} (lease : RunLease) : Tx α := do
  let env ← ask
  match (← get).currentRun lease env.now with
  | none => throw (.staleFence "run lease is stale")
  | some _ => throw (.versionConflict "execution version conflict")

def transitionExecution (lease : RunLease) (executionId : String)
    (expectedStatus : ExecutionStatus) (expectedVersion : Nat) (target : ExecutionStatus) :
    Tx RunLease := do
  match ← WorkflowRepository.transitionExecution lease executionId expectedStatus expectedVersion
    target with
  | some _ => return lease
  | none => executionConflict lease

def updateExecutionMetadata (lease : RunLease) (executionId : String)
    (expectedStatus : ExecutionStatus) (expectedVersion : Nat)
    (metadata : ExecutionMetadata) : Tx ExecutionRow := do
  match ← WorkflowRepository.updateExecutionMetadata lease executionId expectedStatus
    expectedVersion metadata with
  | some updated => return updated
  | none => executionConflict lease

def completeExecution (lease : RunLease) (executionId : String)
    (expectedStatus : ExecutionStatus) (expectedVersion : Nat) (targetStatus : ExecutionStatus)
    (externalRequestId resultRef resultDigest : Option String) : Tx ExecutionRow :=
  updateExecutionMetadata lease executionId expectedStatus expectedVersion
    { externalRequestId, resultRef, resultDigest, targetStatus := some targetStatus }

def recordExternalRequestId (lease : RunLease) (executionId : String)
    (expectedStatus : ExecutionStatus) (expectedVersion : Nat) (externalRequestId : String) :
    Tx ExecutionRow :=
  updateExecutionMetadata lease executionId expectedStatus expectedVersion
    { externalRequestId := some externalRequestId }

end WorkflowCoordinator

end MultiClaw
