import MultiClaw.Base.Table
import MultiClaw.Base.Transaction
import MultiClaw.Collaboration.Models
import MultiClaw.Planner.Models

/-! The rows of the workflow, plan and collaboration tables, and the transactions on them. -/
namespace MultiClaw

open Base

/-- The plan columns of a run; they are set together or not at all. -/
structure PlanBinding where
  planId : String
  initialPlanVersion : Nat
  activePlanVersion : Nat
  deriving DecidableEq, Repr

structure RunRow where
  scope : RunScope
  plan : Option PlanBinding
  cancelRequestedAt : Option Nat
  status : RunStatus
  runtimeInstanceId : Option String
  leaseOwner : Option String
  fencingToken : Nat
  leaseExpiresAt : Option Nat
  heartbeatAt : Option Nat
  version : Nat
  createdAt : Nat
  updatedAt : Nat
  finishedAt : Option Nat
  deriving DecidableEq, Repr

structure ApprovalRow where
  approvalId : String
  scope : RunScope
  toolCallId : String
  status : ApprovalStatus
  requestedAt : Nat
  resolvedAt : Option Nat
  expiresAt : Nat
  version : Nat
  deriving DecidableEq, Repr

structure ExecutionRow where
  executionId : String
  scope : RunScope
  approvalId : Option String
  toolCallId : String
  toolName : String
  toolKind : String
  status : ExecutionStatus
  recoveryStrategy : RecoveryStrategy
  idempotencyKey : Option String
  inputPayloadJson : String
  inputHash : String
  externalRequestId : Option String
  resultRef : Option String
  resultDigest : Option String
  version : Nat
  createdAt : Nat
  updatedAt : Nat
  finishedAt : Option Nat
  deriving DecidableEq, Repr

structure CheckpointRow where
  checkpointId : String
  scope : RunScope
  approvalId : Option String
  executionId : Option String
  phase : String
  checkpointSeq : Nat
  payloadJson : String
  payloadHash : String
  schemaVersion : Int
  createdAt : Nat
  deriving DecidableEq, Repr

structure MemoryRow where
  id : String
  tenantId : String
  workspaceId : String
  sessionId : Option String
  content : String
  type : String
  role : String
  turnIndex : Nat
  createdAt : Nat
  metadataJson : String
  deriving DecidableEq, Repr

/-- The unique keys of the run-scoped tables: an id, or a name or number within one run. -/
inductive RowKey where
  | id (id : String)
  | toolCall (scope : RunScope) (toolCallId : String)
  | seq (scope : RunScope) (checkpointSeq : Nat)
  deriving DecidableEq

def RunRow.keys (r : RunRow) : List String := [r.scope.runId]

def ApprovalRow.keys (r : ApprovalRow) : List RowKey :=
  [.id r.approvalId, .toolCall r.scope r.toolCallId]

def ExecutionRow.keys (r : ExecutionRow) : List RowKey :=
  [.id r.executionId, .toolCall r.scope r.toolCallId]

def CheckpointRow.keys (r : CheckpointRow) : List RowKey :=
  [.id r.checkpointId, .seq r.scope r.checkpointSeq]

def MemoryRow.keys (r : MemoryRow) : List String := [r.id]

/-- The four columns that scope a row to one plan. -/
structure PlanScope where
  tenantId : String
  workspaceId : String
  sessionId : String
  planId : String
  deriving DecidableEq, Repr

structure PlanRow where
  scope : PlanScope
  sourceMessageId : String
  triggerMode : PlanTriggerMode
  status : PlanStatus
  currentVersion : Nat
  approvedVersion : Option Nat
  version : Nat
  createdAt : Nat
  updatedAt : Nat
  deriving DecidableEq, Repr

structure PlanVersionRow where
  tenantId : String
  workspaceId : String
  sessionId : String
  planId : String
  planVersion : Nat
  contentDigest : String
  objective : String
  constraintsJson : String
  generationReason : String
  parentVersion : Option Nat
  revisionFeedback : Option String
  schemaVersion : Nat
  createdAt : Nat
  deriving DecidableEq, Repr

def PlanVersionRow.scope (r : PlanVersionRow) : PlanScope :=
  ⟨r.tenantId, r.workspaceId, r.sessionId, r.planId⟩

structure PlanStepRow where
  scope : PlanScope
  planVersion : Nat
  stepId : String
  logicalStepKey : String
  supersedesStepId : Option String
  ordinal : Nat
  title : String
  description : String
  expectedOutcome : String
  maxAttempts : Nat
  definitionDigest : String
  deriving DecidableEq, Repr

structure PlanStepDependencyRow where
  scope : PlanScope
  planVersion : Nat
  stepId : String
  dependsOnStepId : String
  deriving DecidableEq, Repr

structure PlanDecisionRow where
  scope : PlanScope
  decisionId : String
  planVersion : Nat
  expectedPlanCasVersion : Nat
  action : PlanDecisionAction
  feedback : Option String
  decidedBy : String
  resultingPlanVersion : Option Nat
  createdAt : Nat
  deriving DecidableEq, Repr

/-- One attempt at a plan step by a run of the plan. -/
structure PlanStepRunRow where
  scope : PlanScope
  planVersion : Nat
  stepId : String
  stepRunId : String
  runId : String
  attempt : Nat
  status : PlanStepRunStatus
  resultSummary : Option String
  resultRef : Option String
  resultDigest : Option String
  errorCode : Option String
  errorDetailRedacted : Option String
  reusedFromStepRunId : Option String
  version : Nat
  startedAt : Nat
  finishedAt : Option Nat
  deriving DecidableEq, Repr

/-- The run that a job was given, with the session it belongs to. -/
structure ChildRun where
  sessionId : String
  runId : String
  deriving DecidableEq, Repr

structure JobRow where
  jobId : String
  tenantId : String
  workspaceId : String
  sessionId : String
  parentRunId : Option String
  child : Option ChildRun
  teamId : Option String
  memberId : Option String
  taskId : Option String
  status : JobStatus
  budgetTokens : Nat
  request : AgentRequest
  result : JobResult
  version : Nat
  attempt : Nat
  createdAt : Nat
  updatedAt : Nat
  deriving DecidableEq, Repr

/-- The three columns that scope a row to one session. -/
structure SessionScope where
  tenantId : String
  workspaceId : String
  sessionId : String
  deriving DecidableEq, Repr

def JobRow.scope (r : JobRow) : SessionScope := ⟨r.tenantId, r.workspaceId, r.sessionId⟩

structure TeamRow where
  teamId : String
  scope : SessionScope
  objective : String
  status : TeamStatus
  config : TeamConfig
  version : Nat
  createdAt : Nat
  updatedAt : Nat
  deriving DecidableEq, Repr

structure TeamMemberRow where
  memberId : String
  scope : SessionScope
  teamId : String
  name : String
  role : MemberRole
  config : MemberRequest
  deriving DecidableEq, Repr

structure TeamTaskRow where
  taskId : String
  scope : SessionScope
  teamId : String
  title : String
  objective : String
  depends : List String
  ownerMemberId : Option String
  jobId : Option String
  status : TaskStatus
  result : String
  version : Nat
  createdAt : Nat
  updatedAt : Nat
  deriving DecidableEq, Repr

structure PlanVersionKey where
  tenantId : String
  workspaceId : String
  sessionId : String
  planId : String
  planVersion : Nat
  deriving DecidableEq

/-- The unique keys of plan steps and of their attempts. -/
inductive PlanStepKey where
  | id (stepId : String)
  | logical (scope : PlanScope) (planVersion : Nat) (logicalStepKey : String)
  deriving DecidableEq

inductive PlanStepRunKey where
  | primary (scope : PlanScope) (planVersion : Nat) (stepId stepRunId : String)
  | attempt (tenantId workspaceId sessionId runId stepId : String) (attempt : Nat)
  | stepRun (scope : PlanScope) (runId stepRunId : String)
  deriving DecidableEq

def PlanRow.keys (r : PlanRow) : List String := [r.scope.planId]

def PlanVersionRow.keys (r : PlanVersionRow) : List PlanVersionKey :=
  [⟨r.tenantId, r.workspaceId, r.sessionId, r.planId, r.planVersion⟩]

def PlanStepRow.keys (r : PlanStepRow) : List PlanStepKey :=
  [.id r.stepId, .logical r.scope r.planVersion r.logicalStepKey]

def PlanStepDependencyRow.keys (r : PlanStepDependencyRow) : List PlanStepDependencyRow := [r]

def PlanDecisionRow.keys (r : PlanDecisionRow) : List (PlanScope × String) :=
  [(r.scope, r.decisionId)]

def PlanStepRunRow.keys (r : PlanStepRunRow) : List PlanStepRunKey :=
  [.primary r.scope r.planVersion r.stepId r.stepRunId,
    .attempt r.scope.tenantId r.scope.workspaceId r.scope.sessionId r.runId r.stepId r.attempt,
    .stepRun r.scope r.runId r.stepRunId]

def JobRow.keys (r : JobRow) : List String := [r.jobId]

def TeamRow.keys (r : TeamRow) : List String := [r.teamId]

/-- The unique keys of team members. -/
inductive TeamMemberKey where
  | id (memberId : String)
  | name (teamId name : String)
  deriving DecidableEq

def TeamMemberRow.keys (r : TeamMemberRow) : List TeamMemberKey :=
  [.id r.memberId, .name r.teamId r.name]

def TeamTaskRow.keys (r : TeamTaskRow) : List String := [r.taskId]

structure Db where
  runs : Table RunRow String RunRow.keys
  approvals : Table ApprovalRow RowKey ApprovalRow.keys
  executions : Table ExecutionRow RowKey ExecutionRow.keys
  checkpoints : Table CheckpointRow RowKey CheckpointRow.keys
  memory : Table MemoryRow String MemoryRow.keys
  plans : Table PlanRow String PlanRow.keys
  planVersions : Table PlanVersionRow PlanVersionKey PlanVersionRow.keys
  planSteps : Table PlanStepRow PlanStepKey PlanStepRow.keys
  planStepDependencies :
    Table PlanStepDependencyRow PlanStepDependencyRow PlanStepDependencyRow.keys
  planDecisions : Table PlanDecisionRow (PlanScope × String) PlanDecisionRow.keys
  planStepRuns : Table PlanStepRunRow PlanStepRunKey PlanStepRunRow.keys
  jobs : Table JobRow String JobRow.keys
  teams : Table TeamRow String TeamRow.keys
  teamMembers : Table TeamMemberRow TeamMemberKey TeamMemberRow.keys
  teamTasks : Table TeamTaskRow String TeamTaskRow.keys

def Db.empty : Db :=
  { runs := .empty, approvals := .empty, executions := .empty, checkpoints := .empty
    memory := .empty, plans := .empty, planVersions := .empty, planSteps := .empty
    planStepDependencies := .empty, planDecisions := .empty, planStepRuns := .empty
    jobs := .empty, teams := .empty, teamMembers := .empty, teamTasks := .empty }

/-- The validated settings that the modelled code reads. -/
structure Settings where
  heartbeatMs : Nat := 5000
  leaseTtlMs : Nat := 20000
  maxCheckpointPayloadBytes : Nat := 262144
  maxSteps : Nat := 20
  maxDependencyDepth : Nat := 10
  maxRevisions : Nat := 5
  maxStepAttempts : Nat := 2
  maxToolRounds : Int := 10
  maxConcurrentRunsPerTenant : Nat := 2
  heartbeatMs_ge : 1000 ≤ heartbeatMs := by decide
  leaseTtlMs_ge : 5000 ≤ leaseTtlMs := by decide
  leaseTtlMs_ratio : heartbeatMs * 3 ≤ leaseTtlMs := by decide
  maxCheckpointPayloadBytes_range : 1024 ≤ maxCheckpointPayloadBytes ∧
    maxCheckpointPayloadBytes ≤ 1048576 := by decide
  maxSteps_range : 1 ≤ maxSteps ∧ maxSteps ≤ 20 := by decide
  maxDependencyDepth_range : 1 ≤ maxDependencyDepth ∧ maxDependencyDepth ≤ 10 := by decide
  maxRevisions_le : maxRevisions ≤ 20 := by decide
  maxStepAttempts_range : 1 ≤ maxStepAttempts ∧ maxStepAttempts ≤ 20 := by decide
  maxConcurrentRunsPerTenant_range : 1 ≤ maxConcurrentRunsPerTenant ∧
    maxConcurrentRunsPerTenant ≤ 32 := by decide

/-- What the code takes from its interpreter: a recursion limit, which the documents of the code
itself never reach, and Unicode tables, of which only the ASCII part is fixed. -/
structure Host where
  recursionLimit : Nat
  isPrintable : Char → Bool
  isAlnum : Char → Bool
  isSpace : Char → Bool
  lower : String → String
  recursionLimit_ge : 100 ≤ recursionLimit
  isAlnum_ascii : ∀ c : Char, c.toNat < 128 → isAlnum c = c.isAlphanum
  isSpace_ascii : ∀ c : Char, c.toNat < 128 →
    isSpace c = (9 ≤ c.toNat && c.toNat ≤ 13 || 28 ≤ c.toNat && c.toNat ≤ 32)
  lower_ascii : ∀ s : String, (s.toList.all fun c => c.toNat < 128) = true → lower s = s.toLower

/-- A host whose tables stop at ASCII. -/
def Host.ascii : Host where
  recursionLimit := 1000
  isPrintable c := 32 ≤ c.toNat && c.toNat < 127
  isAlnum := Char.isAlphanum
  isSpace c := 9 ≤ c.toNat && c.toNat ≤ 13 || 28 ≤ c.toNat && c.toNat ≤ 32
  lower := String.toLower
  recursionLimit_ge := by decide
  isAlnum_ascii _ _ := rfl
  isSpace_ascii _ _ := rfl
  lower_ascii _ _ := rfl

/-- What a transaction reads besides the tables; it takes effect at one instant `now` of the
database clock, whose milliseconds fit a 64-bit column. -/
structure Env where
  settings : Settings
  host : Host
  now : Nat
  now_lt : now < 2 ^ 63 := by decide

abbrev Tx (α : Type) := Transaction Env Db WorkflowError α

end MultiClaw
