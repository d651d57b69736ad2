import MultiClaw.Storage.Schema

/-! The workflow repository: conditional reads and writes of the run-scoped tables. -/
namespace MultiClaw

open Base Transaction

def contextPredicate (context : TenantContext) (scope : RunScope) : Bool :=
  context.scope? == some scope

/-- The lease is the one on the row, and it has not expired. -/
def currentLeasePredicate (lease : RunLease) (now : Nat) (r : RunRow) : Bool :=
  contextPredicate lease.context r.scope && r.leaseOwner == some lease.leaseOwner &&
    r.fencingToken == lease.fencingToken && r.version == lease.version &&
    r.leaseExpiresAt.any (now < ·)

namespace Db

variable (db : Db)

def getRun (context : TenantContext) : Option RunRow :=
  db.runs.find? fun r => contextPredicate context r.scope

def currentRun (lease : RunLease) (now : Nat) : Option RunRow :=
  db.runs.find? (currentLeasePredicate lease now)

def countActiveRuns (tenantId : String) : Nat :=
  db.runs.count fun r => r.scope.tenantId == tenantId && !r.status.isTerminal

def planVersionExists (context : TenantContext) (planId : String) (planVersion : Nat)
    (contentDigest : Option String := none) : Bool :=
  db.planVersions.any fun v =>
    v.tenantId == context.tenantId && v.workspaceId == context.workspaceId &&
      some v.sessionId == context.sessionId && v.planId == planId &&
      v.planVersion == planVersion && contentDigest.all (· == v.contentDigest)

def hasNonterminalExecution (context : TenantContext) : Bool :=
  db.executions.any fun e => contextPredicate context e.scope && !e.status.isTerminal

def getExecution (context : TenantContext) (executionId : String) : Option ExecutionRow :=
  db.executions.find? fun e => contextPredicate context e.scope && e.executionId == executionId

def getApproval (context : TenantContext) (approvalId : String) : Option ApprovalRow :=
  db.approvals.find? fun a => contextPredicate context a.scope && a.approvalId == approvalId

/-- The row with the largest sequence number. -/
def newest : List CheckpointRow → Option CheckpointRow
  | [] => none
  | c :: cs =>
    match newest cs with
    | none => some c
    | some d => if d.checkpointSeq < c.checkpointSeq then some c else some d

def getLatestCheckpoint (context : TenantContext) : Option CheckpointRow :=
  newest (db.checkpoints.filter fun c => contextPredicate context c.scope)

def getNextCheckpointSeq (context : TenantContext) : Nat :=
  ((db.getLatestCheckpoint context).elim 0 (·.checkpointSeq)) + 1

end Db

/-- The lease that a row carries. -/
def RunRow.lease (r : RunRow) (context : TenantContext) : RunLease :=
  { context, leaseOwner := r.leaseOwner.getD "", fencingToken := r.fencingToken
    version := r.version, leaseExpiresAt := r.leaseExpiresAt.getD 0 }

/-! What the operations write to a row. -/

/-- A new owner takes the row: it gets the next fencing token, a fresh expiry and a new version. -/
def RunRow.grant (r : RunRow) (env : Env) (runtimeInstanceId : String) : RunRow :=
  { r with
    runtimeInstanceId := some runtimeInstanceId, leaseOwner := some runtimeInstanceId
    fencingToken := r.fencingToken + 1, version := r.version + 1, heartbeatAt := some env.now
    leaseExpiresAt := some (env.now + env.settings.leaseTtlMs), updatedAt := env.now }

def RunRow.resume (r : RunRow) (env : Env) (runtimeInstanceId : String) : RunRow :=
  { r.grant env runtimeInstanceId with status := .resuming }

def RunRow.resumePlan (r : RunRow) (env : Env) (runtimeInstanceId : String) (planVersion : Nat) :
    RunRow :=
  { r.resume env runtimeInstanceId with
    plan := r.plan.map fun b => { b with activePlanVersion := planVersion } }

def RunRow.cancelWaiting (r : RunRow) (env : Env) (runtimeInstanceId : String) : RunRow :=
  { r.grant env runtimeInstanceId with status := .cancelled, finishedAt := some env.now }

def RunRow.refresh (r : RunRow) (env : Env) : RunRow :=
  { r with
    heartbeatAt := some env.now, leaseExpiresAt := some (env.now + env.settings.leaseTtlMs)
    updatedAt := env.now, version := r.version + 1 }

def RunRow.moveTo (r : RunRow) (env : Env) (target : RunStatus) : RunRow :=
  { r with
    status := target, updatedAt := env.now, heartbeatAt := some env.now
    leaseExpiresAt := some (env.now + env.settings.leaseTtlMs), version := r.version + 1
    finishedAt := if target.isTerminal then some env.now else r.finishedAt }

/-- A waiting run is cancelled at once, a working run only told to stop. -/
def RunRow.cancelRequest (r : RunRow) (env : Env) : RunRow :=
  let requested := { r with
    cancelRequestedAt := some (r.cancelRequestedAt.getD env.now)
    updatedAt := env.now, version := r.version + 1 }
  if r.status = .awaitingUser then
    { requested with
      status := .cancelled, heartbeatAt := some env.now, finishedAt := some env.now
      leaseExpiresAt := some (env.now + env.settings.leaseTtlMs) }
  else requested

def ExecutionRow.moveTo (e : ExecutionRow) (env : Env) (target : ExecutionStatus) : ExecutionRow :=
  { e with
    status := target, updatedAt := env.now, version := e.version + 1
    finishedAt := if target.isTerminal then some env.now else e.finishedAt }

/-- What an update of an execution's metadata writes; an absent value leaves its column alone. -/
structure ExecutionMetadata where
  externalRequestId : Option String := none
  resultRef : Option String := none
  resultDigest : Option String := none
  targetStatus : Option ExecutionStatus := none

def ExecutionRow.fill (e : ExecutionRow) (env : Env) (metadata : ExecutionMetadata) :
    ExecutionRow :=
  { e with
    status := metadata.targetStatus.getD e.status
    externalRequestId := metadata.externalRequestId.or e.externalRequestId
    resultRef := metadata.resultRef.or e.resultRef
    resultDigest := metadata.resultDigest.or e.resultDigest
    updatedAt := env.now, version := e.version + 1
    finishedAt := if metadata.targetStatus.any (·.isTerminal) then some env.now else e.finishedAt }

def ApprovalRow.close (a : ApprovalRow) (env : Env) (status : ApprovalStatus) : ApprovalRow :=
  { a with status, resolvedAt := some env.now, version := a.version + 1 }

section Keys

variable (r : RunRow) (env : Env) (owner : String)

theorem RunRow.grant_keys : (r.grant env owner).keys = r.keys := rfl

theorem RunRow.resume_keys : (r.resume env owner).keys = r.keys := rfl

theorem RunRow.resumePlan_keys (planVersion : Nat) :
    (r.resumePlan env owner planVersion).keys = r.keys := rfl

theorem RunRow.cancelWaiting_keys : (r.cancelWaiting env owner).keys = r.keys := rfl

theorem RunRow.refresh_keys : (r.refresh env).keys = r.keys := rfl

theorem RunRow.moveTo_keys (target : RunStatus) : (r.moveTo env target).keys = r.keys := rfl

theorem RunRow.cancelRequest_scope : (r.cancelRequest env).scope = r.scope := by
  unfold RunRow.cancelRequest
  split <;> rfl

theorem RunRow.cancelRequest_keys : (r.cancelRequest env).keys = r.keys := by
  rw [RunRow.keys, RunRow.keys, RunRow.cancelRequest_scope]

theorem ExecutionRow.moveTo_keys (e : ExecutionRow) (target : ExecutionStatus) :
    (e.moveTo env target).keys = e.keys := rfl

theorem ExecutionRow.fill_keys (e : ExecutionRow) (metadata : ExecutionMetadata) :
    (e.fill env metadata).keys = e.keys := rfl

theorem ApprovalRow.close_keys (a : ApprovalRow) (status : ApprovalStatus) :
    (a.close env status).keys = a.keys := rfl

end Keys

/-- `ExecutionRecoveryRecord.input_ref`. -/
def ExecutionRow.inputRef (e : ExecutionRow) : String :=
  "tool_execution:" ++ e.executionId ++ ":input_payload_json"

namespace WorkflowRepository

/-- An update of run rows, with the number of rows it touched. -/
def updateRuns (p : RunRow → Bool) (f : RunRow → RunRow) (hf : ∀ r, (f r).keys = r.keys) :
    Tx Nat := do
  let db ← get
  set { db with runs := db.runs.update p f hf }
  return db.runs.count p

def updateExecutions (p : ExecutionRow → Bool) (f : ExecutionRow → ExecutionRow)
    (hf : ∀ r, (f r).keys = r.keys) : Tx Nat := do
  let db ← get
  set { db with executions := db.executions.update p f hf }
  return db.executions.count p

def updateApprovals (p : ApprovalRow → Bool) (f : ApprovalRow → ApprovalRow)
    (hf : ∀ r, (f r).keys = r.keys) : Tx Nat := do
  let db ← get
  set { db with approvals := db.approvals.update p f hf }
  return db.approvals.count p

def requireLease (context : TenantContext) (leaseOwner : String) (fencingToken version : Nat) :
    Tx RunLease := do
  let db ← get
  match db.runs.find? fun r => contextPredicate context r.scope &&
    r.leaseOwner == some leaseOwner && r.fencingToken == fencingToken && r.version == version with
  | none => throw .noResultFound
  | some r =>
    match r.leaseExpiresAt with
    | none => throw (.value "lease_expires_at is missing")
    | some leaseExpiresAt =>
      return { context, leaseOwner, fencingToken, version, leaseExpiresAt }

/-- A conditional update of one run, followed by the lease that it left on the row. -/
def updateRunLease (p : RunRow → Bool) (f : RunRow → RunRow) (hf : ∀ r, (f r).keys = r.keys)
    (context : TenantContext) (leaseOwner : String) (fencingToken version : Nat) :
    Tx (Option RunLease) := do
  let rowcount ← updateRuns p f hf
  if rowcount ≠ 1 then return none
  else some <$> requireLease context leaseOwner fencingToken version

def createRun (context : TenantContext) (runtimeInstanceId : String)
    (status : RunStatus := .running) (plan : Option PlanBinding := none) : Tx RunLease := do
  let env ← ask
  let db ← get
  match context.scope? with
  | none => throw .integrity
  | some scope =>
    if plan.all fun b => db.planVersionExists context b.planId b.initialPlanVersion &&
        db.planVersionExists context b.planId b.activePlanVersion then
      match db.runs.insert?
        { scope, plan, cancelRequestedAt := none, status
          runtimeInstanceId := some runtimeInstanceId, leaseOwner := some runtimeInstanceId
          fencingToken := 1, leaseExpiresAt := some (env.now + env.settings.leaseTtlMs)
          heartbeatAt := some env.now, version := 1, createdAt := env.now, updatedAt := env.now
          finishedAt := none } with
      | none => throw .integrity
      | some runs =>
        set { db with runs }
        requireLease context runtimeInstanceId 1 1
    else throw .integrity

def takeOverRun (context : TenantContext) (runtimeInstanceId : String) : Tx (Option RunLease) := do
  let env ← ask
  let db ← get
  match db.getRun context with
  | none => return none
  | some current =>
    if current.status.isTerminal then
      throw (.invalidTransition ("cannot acquire terminal run: " ++ current.status.value))
    else if current.leaseExpiresAt = none then return none
    else
      updateRunLease
        (fun r => contextPredicate context r.scope && r.leaseExpiresAt.any (· ≤ env.now))
        (fun r => r.grant env runtimeInstanceId) (fun r => r.grant_keys env runtimeInstanceId)
        context runtimeInstanceId (current.fencingToken + 1) (current.version + 1)

def resumeWaitingRun (context : TenantContext) (runtimeInstanceId : String) :
    Tx (Option RunLease) := do
  let env ← ask
  let db ← get
  match db.getRun context with
  | none => return none
  | some current =>
    if current.status ≠ .awaitingUser then return none
    else
      updateRunLease (fun r => contextPredicate context r.scope && r.status == .awaitingUser)
        (fun r => r.resume env runtimeInstanceId) (fun r => r.resume_keys env runtimeInstanceId)
        context runtimeInstanceId (current.fencingToken + 1) (current.version + 1)

/-- The three operations on a waiting plan run share their guards and differ in the plan version
they look up and in the row they write. -/
def updateWaitingPlanRun (context : TenantContext) (runtimeInstanceId : String) (planId : String)
    (planVersion expectedRunVersion : Nat) (contentDigest : Option String)
    (write : RunRow → Env → RunRow) (hwrite : ∀ r env, (write r env).keys = r.keys) :
    Tx (Option RunLease) := do
  let env ← ask
  let db ← get
  match db.getRun context with
  | none => return none
  | some current =>
    if current.status ≠ .awaitingUser ∨ current.plan.any (·.planId == planId) = false ∨
        current.version ≠ expectedRunVersion ∨
        db.planVersionExists context planId planVersion contentDigest = false then return none
    else
      updateRunLease
        (fun r => contextPredicate context r.scope && r.status == .awaitingUser &&
          r.plan.any (·.planId == planId) && r.version == expectedRunVersion)
        (fun r => write r env) (fun r => hwrite r env)
        context runtimeInstanceId (current.fencingToken + 1) (current.version + 1)

def resumeWaitingPlanRun (context : TenantContext) (runtimeInstanceId planId : String)
    (planVersion expectedRunVersion : Nat) : Tx (Option RunLease) :=
  updateWaitingPlanRun context runtimeInstanceId planId planVersion expectedRunVersion none
    (fun r env => r.resumePlan env runtimeInstanceId planVersion)
    fun r env => r.resumePlan_keys env runtimeInstanceId planVersion

def fenceWaitingPlanRun (context : TenantContext) (runtimeInstanceId planId : String)
    (planVersion : Nat) (planDigest : String) (expectedRunVersion : Nat) : Tx (Option RunLease) :=
  updateWaitingPlanRun context runtimeInstanceId planId planVersion expectedRunVersion
    (some planDigest) (fun r env => r.grant env runtimeInstanceId)
    fun r env => r.grant_keys env runtimeInstanceId

def cancelWaitingPlanRun (context : TenantContext) (runtimeInstanceId planId : String)
    (planVersion expectedRunVersion : Nat) : Tx (Option RunLease) :=
  updateWaitingPlanRun context runtimeInstanceId planId planVersion expectedRunVersion none
    (fun r env => r.cancelWaiting env runtimeInstanceId)
    fun r env => r.cancelWaiting_keys env runtimeInstanceId

def requestCancellation (context : TenantContext) : Tx (Option RunRow) := do
  let env ← ask
  let db ← get
  match db.getRun context with
  | none => return none
  | some current =>
    if current.status.isTerminal ∨ current.cancelRequestedAt ≠ none then return some current
    else
      let _ ← updateRuns
        (fun r => contextPredicate context r.scope && r.version == current.version &&
          r.status == current.status)
        (fun r => r.cancelRequest env) fun r => r.cancelRequest_keys env
      return (← get).getRun context

def refreshLease (lease : RunLease) : Tx (Option RunLease) := do
  let env ← ask
  updateRunLease (currentLeasePredicate lease env.now)
    (fun r => r.refresh env) (fun r => r.refresh_keys env)
    lease.context lease.leaseOwner lease.fencingToken (lease.version + 1)

def illegalRunTransition (source target : RunStatus) : WorkflowError :=
  .invalidTransition ("illegal run transition: " ++ source.value ++ " -> " ++ target.value)

def validateRunTransition (current : RunRow) (lease : RunLease) (target : RunStatus) :
    Except WorkflowError Unit :=
  if current.leaseOwner ≠ some lease.leaseOwner ∨ current.fencingToken ≠ lease.fencingToken then
    .error (.invalidTransition "run lease no longer current")
  else if current.version ≠ lease.version then
    .error (.invalidTransition "run version no longer current")
  else if target ∉ current.status.legalTargets then
    .error (illegalRunTransition current.status target)
  else .ok ()

def transitionRun (lease : RunLease) (target : RunStatus) : Tx (Option RunLease) := do
  let env ← ask
  let db ← get
  match db.getRun lease.context with
  | none => return none
  | some current =>
    ofExcept (validateRunTransition current lease target)
    updateRunLease (currentLeasePredicate lease env.now)
      (fun r => r.moveTo env target) (fun r => r.moveTo_keys env target)
      lease.context lease.leaseOwner lease.fencingToken (lease.version + 1)

def insertApproval (lease : RunLease) (approvalId toolCallId : String) (expiresAt : Nat) :
    Tx (Option ApprovalRow) := do
  let env ← ask
  let db ← get
  match db.currentRun lease env.now with
  | none => return none
  | some run =>
    let row : ApprovalRow :=
      { approvalId, scope := run.scope, toolCallId, status := .awaitingUser, requestedAt := env.now
        resolvedAt := none, expiresAt, version := 1 }
    match db.approvals.insert? row with
    | none => throw .integrity
    | some approvals =>
      set { db with approvals }
      return some row

def markApprovalExpired (context : TenantContext) (approvalId : String) (version : Nat) :
    Tx Bool := do
  let env ← ask
  let rowcount ← updateApprovals
    (fun a => contextPredicate context a.scope && a.approvalId == approvalId &&
      a.status == .awaitingUser && a.version == version && a.expiresAt ≤ env.now)
    (fun a => a.close env .expired) fun a => a.close_keys env .expired
  return rowcount == 1

def resolveApproval (context : TenantContext) (approvalId : String) (approved : Bool)
    (version : Nat) : Tx (Option ApprovalRow) := do
  let env ← ask
  let rowcount ← updateApprovals
    (fun a => contextPredicate context a.scope && a.approvalId == approvalId &&
      a.status == .awaitingUser && a.version == version && env.now < a.expiresAt)
    (fun a => a.close env (if approved then .approved else .rejected))
    fun a => a.close_keys env (if approved then .approved else .rejected)
  if rowcount ≠ 1 then return none
  else return (← get).getApproval context approvalId

/-- The arguments of a new execution row. -/
structure NewExecution where
  executionId : String
  approvalId : Option String
  toolCallId : String
  toolName : String
  toolKind : String
  recoveryStrategy : RecoveryStrategy
  idempotencyKey : Option String
  inputPayloadJson : String
  inputHash : String
  status : ExecutionStatus := .notStarted

def NewExecution.row (new : NewExecution) (scope : RunScope) (now : Nat) : ExecutionRow :=
  { executionId := new.executionId, scope, approvalId := new.approvalId
    toolCallId := new.toolCallId, toolName := new.toolName, toolKind := new.toolKind
    status := new.status, recoveryStrategy := new.recoveryStrategy
    idempotencyKey := new.idempotencyKey, inputPayloadJson := new.inputPayloadJson
    inputHash := new.inputHash, externalRequestId := none, resultRef := none, resultDigest := none
    version := 1, createdAt := now, updatedAt := now, finishedAt := none }

/-- SQL `LIKE`: `%` stands for any text and `_` for one character, ASCII case aside. -/
def like : List Char → List Char → Bool
  | [], cs => cs.isEmpty
  | '%' :: ps, cs => cs.tails.any (like ps)
  | _ :: _, [] => false
  | p :: ps, c :: cs => (p == '_' || p.toLower == c.toLower) && like ps cs

/-- The rounds charged to a run: the units of its ledger and its tool executions. -/
def roundsCharged (db : Db) (scope : RunScope) : Nat :=
  let pattern := "%\"run_id\":\"" ++ scope.runId ++ "\"%"
  db.memory.count (fun m =>
    m.tenantId == scope.tenantId && m.workspaceId == scope.workspaceId &&
      m.sessionId == some scope.sessionId && m.type == "plan_round_counter" &&
      like pattern.toList m.metadataJson.toList) +
    db.executions.count fun e => e.scope == scope

def insertExecution (planRoundBudget : Option Int) (lease : RunLease) (new : NewExecution) :
    Tx (Option ExecutionRow) := do
  let env ← ask
  let db ← get
  match db.currentRun lease env.now with
  | none => return none
  | some run =>
    if run.plan.isSome ∧ planRoundBudget.any fun n => n ≤ (roundsCharged db run.scope : Int) then
      throw (.planRoundBudgetExceeded "Plan round budget exceeded")
    else if db.executions.any fun e => e.scope == run.scope && !e.status.isTerminal then
      return none
    else
      -- the foreign key on the approval
      if new.approvalId.all fun id => (db.getApproval lease.context id).isSome then
        match db.executions.insert? (new.row run.scope env.now) with
        | none => throw .integrity
        | some executions =>
          set { db with executions }
          return some (new.row run.scope env.now)
      else throw .integrity

/-- A conditional update of one execution, followed by its row. -/
def updateExecution (p : ExecutionRow → Bool) (f : ExecutionRow → ExecutionRow)
    (hf : ∀ r, (f r).keys = r.keys) (context : TenantContext) (executionId : String) :
    Tx (Option ExecutionRow) := do
  let rowcount ← updateExecutions p f hf
  if rowcount ≠ 1 then return none
  else return (← get).getExecution context executionId

def illegalExecutionTransition (source target : ExecutionStatus) : WorkflowError :=
  .invalidTransition ("illegal execution transition: " ++ source.value ++ " -> " ++ target.value)

def transitionExecution (lease : RunLease) (executionId : String)
    (expectedStatus : ExecutionStatus) (expectedVersion : Nat) (target : ExecutionStatus) :
    Tx (Option ExecutionRow) := do
  if target ∉ expectedStatus.legalTargets then
    throw (illegalExecutionTransition expectedStatus target)
  else
    let env ← ask
    let db ← get
    match db.currentRun lease env.now with
    | none => return none
    | some _ =>
      updateExecution
        (fun e => contextPredicate lease.context e.scope && e.executionId == executionId &&
          e.status == expectedStatus && e.version == expectedVersion)
        (fun e => e.moveTo env target) (fun e => e.moveTo_keys env target) lease.context executionId

/-- A column may be filled once, and then only written with the same value. -/
def writable (column value : Option String) : Bool :=
  value.all fun v => column.all (· == v)

def updateExecutionMetadata (lease : RunLease) (executionId : String)
    (expectedStatus : ExecutionStatus) (expectedVersion : Nat) (metadata : ExecutionMetadata) :
    Tx (Option ExecutionRow) := do
  let env ← ask
  let db ← get
  match db.currentRun lease env.now with
  | none => return none
  | some _ =>
    match metadata.targetStatus.filter (· ∉ expectedStatus.legalTargets) with
    | some target => throw (illegalExecutionTransition expectedStatus target)
    | none =>
      updateExecution
        (fun e => contextPredicate lease.context e.scope && e.executionId == executionId &&
          e.status == expectedStatus && e.version == expectedVersion &&
          writable e.externalRequestId metadata.externalRequestId &&
          writable e.resultRef metadata.resultRef &&
          writable e.resultDigest metadata.resultDigest)
        (fun e => e.fill env metadata) (fun e => e.fill_keys env metadata) lease.context executionId

/-- The arguments of a new checkpoint row. -/
structure NewCheckpoint where
  checkpointId : String
  checkpointSeq : Option Nat := none
  phase : String
  payloadJson : String
  payloadHash : String
  schemaVersion : Int
  approvalId : Option String := none
  executionId : Option String := none
  expectedExecutionStatus : Option ExecutionStatus := none
  expectedExecutionVersion : Option Nat := none

def NewCheckpoint.row (new : NewCheckpoint) (scope : RunScope) (nextSeq now : Nat) :
    CheckpointRow :=
  { checkpointId := new.checkpointId, scope, approvalId := new.approvalId
    executionId := new.executionId, phase := new.phase
    checkpointSeq := new.checkpointSeq.getD nextSeq, payloadJson := new.payloadJson
    payloadHash := new.payloadHash, schemaVersion := new.schemaVersion, createdAt := now }

/-- The checks of a checkpoint against the execution it names. -/
def checkpointConflict (db : Db) (context : TenantContext) (new : NewCheckpoint) :
    Option WorkflowError :=
  match new.executionId with
  | none => none
  | some executionId =>
    match db.getExecution context executionId with
    | none => some (.versionConflict "execution record not found")
    | some e =>
      if new.approvalId ≠ e.approvalId then
        some (.versionConflict "execution approval scope conflict")
      else if new.expectedExecutionStatus.any (· ≠ e.status) then
        some (.versionConflict "execution status conflict")
      else if new.expectedExecutionVersion.any (· ≠ e.version) then
        some (.versionConflict "execution version conflict")
      else none

def insertCheckpoint (lease : RunLease) (new : NewCheckpoint) : Tx (Option Nat) := do
  let env ← ask
  let db ← get
  match db.currentRun lease env.now with
  | none => return none
  | some run =>
    match checkpointConflict db lease.context new with
    | some conflict => throw conflict
    | none =>
      let row := new.row run.scope (db.getNextCheckpointSeq lease.context) env.now
      -- the foreign key on the approval
      if new.approvalId.all fun id => (db.getApproval lease.context id).isSome then
        match db.checkpoints.insert? row with
        | none => throw .integrity
        | some checkpoints =>
          set { db with checkpoints }
          return some row.checkpointSeq
      else throw .integrity

end WorkflowRepository

end MultiClaw
