import Mathlib

/-! Statuses, transition tables, leases and errors of the durable workflow. -/
namespace MultiClaw

inductive RunStatus where
  | running
  | awaitingUser
  | resuming
  | completed
  | failedTerminal
  | cancelled
  | blockedCorrupt
  | blockedIncompatible
  deriving DecidableEq, Repr

inductive ApprovalStatus where
  | awaitingUser
  | approved
  | rejected
  | expired
  deriving DecidableEq, Repr

inductive ExecutionStatus where
  | notStarted
  | replaying
  | executing
  | succeeded
  | failedRetryable
  | failedTerminal
  | uncertain
  | blockedIncompatible
  | blockedCorrupt
  deriving DecidableEq, Repr

inductive RecoveryStrategy where
  | readOnlyReplay
  | idempotentRetry
  | manualUncertain
  deriving DecidableEq, Repr

inductive CheckpointPhase where
  | runStarted
  | planAwaitingApproval
  | planStepReady
  | planReplanRequired
  | modelOutputCommitted
  | awaitingApproval
  | executionDispatching
  | executionResultObserved
  | runTerminal
  deriving DecidableEq, Repr

def RunStatus.value : RunStatus → String
  | .running => "running"
  | .awaitingUser => "awaiting_user"
  | .resuming => "resuming"
  | .completed => "completed"
  | .failedTerminal => "failed_terminal"
  | .cancelled => "cancelled"
  | .blockedCorrupt => "blocked_corrupt"
  | .blockedIncompatible => "blocked_incompatible"

def ExecutionStatus.value : ExecutionStatus → String
  | .notStarted => "not_started"
  | .replaying => "replaying"
  | .executing => "executing"
  | .succeeded => "succeeded"
  | .failedRetryable => "failed_retryable"
  | .failedTerminal => "failed_terminal"
  | .uncertain => "uncertain"
  | .blockedIncompatible => "blocked_incompatible"
  | .blockedCorrupt => "blocked_corrupt"

def RecoveryStrategy.value : RecoveryStrategy → String
  | .readOnlyReplay => "read_only_replay"
  | .idempotentRetry => "idempotent_retry"
  | .manualUncertain => "manual_uncertain"

def CheckpointPhase.value : CheckpointPhase → String
  | .runStarted => "run_started"
  | .planAwaitingApproval => "plan_awaiting_approval"
  | .planStepReady => "plan_step_ready"
  | .planReplanRequired => "plan_replan_required"
  | .modelOutputCommitted => "model_output_committed"
  | .awaitingApproval => "awaiting_approval"
  | .executionDispatching => "execution_dispatching"
  | .executionResultObserved => "execution_result_observed"
  | .runTerminal => "run_terminal"

def RunStatus.all : List RunStatus :=
  [.running, .awaitingUser, .resuming, .completed, .failedTerminal, .cancelled, .blockedCorrupt,
    .blockedIncompatible]

def ExecutionStatus.all : List ExecutionStatus :=
  [.notStarted, .replaying, .executing, .succeeded, .failedRetryable, .failedTerminal, .uncertain,
    .blockedIncompatible, .blockedCorrupt]

def RecoveryStrategy.all : List RecoveryStrategy :=
  [.readOnlyReplay, .idempotentRetry, .manualUncertain]

def CheckpointPhase.all : List CheckpointPhase :=
  [.runStarted, .planAwaitingApproval, .planStepReady, .planReplanRequired, .modelOutputCommitted,
    .awaitingApproval, .executionDispatching, .executionResultObserved, .runTerminal]

/-- `TERMINAL_RUN_STATUSES`. -/
def RunStatus.isTerminal : RunStatus → Bool
  | .completed | .failedTerminal | .cancelled | .blockedCorrupt | .blockedIncompatible => true
  | .running | .awaitingUser | .resuming => false

/-- `TERMINAL_EXECUTION_STATUSES`; a retryable failure is not among them. -/
def ExecutionStatus.isTerminal : ExecutionStatus → Bool
  | .succeeded | .failedTerminal | .uncertain | .blockedIncompatible | .blockedCorrupt => true
  | .notStarted | .replaying | .executing | .failedRetryable => false

/-- `LEGAL_RUN_TRANSITIONS`. -/
def RunStatus.legalTargets : RunStatus → List RunStatus
  | .running =>
    [.awaitingUser, .completed, .failedTerminal, .blockedIncompatible, .blockedCorrupt, .cancelled]
  | .awaitingUser => [.resuming, .cancelled]
  | .resuming =>
    [.running, .awaitingUser, .failedTerminal, .blockedIncompatible, .blockedCorrupt, .cancelled]
  | .completed | .failedTerminal | .cancelled | .blockedCorrupt | .blockedIncompatible => []

/-- `LEGAL_EXECUTION_TRANSITIONS`. -/
def ExecutionStatus.legalTargets : ExecutionStatus → List ExecutionStatus
  | .notStarted => [.replaying, .executing, .blockedIncompatible, .blockedCorrupt]
  | .replaying => [.executing, .blockedIncompatible, .blockedCorrupt]
  | .executing =>
    [.succeeded, .failedRetryable, .failedTerminal, .uncertain, .blockedIncompatible,
      .blockedCorrupt]
  | .succeeded | .failedRetryable | .failedTerminal | .uncertain | .blockedIncompatible
  | .blockedCorrupt => []

/-- An execution that is waiting to run or running. -/
def ExecutionStatus.isOpen : ExecutionStatus → Bool
  | .notStarted | .replaying | .executing => true
  | _ => false

theorem RunStatus.legalTargets_of_isTerminal {s : RunStatus} (h : s.isTerminal = true) :
    s.legalTargets = [] := by
  cases s <;> simp_all [isTerminal, legalTargets]

theorem ExecutionStatus.isOpen_of_legal {s t : ExecutionStatus} (h : t ∈ s.legalTargets) :
    s.isOpen = true := by
  cases s <;> simp_all [isOpen, legalTargets]

/-- The four columns that scope a row to one run. -/
structure RunScope where
  tenantId : String
  workspaceId : String
  sessionId : String
  runId : String
  deriving DecidableEq, Repr

/-- A caller's scope. Tenant and workspace are not empty, and a run is named within a session. -/
structure TenantContext where
  tenantId : String
  workspaceId : String
  sessionId : Option String := none
  runId : Option String := none
  requestStartedAtMs : Nat := 0
  tenantId_ne : tenantId ≠ "" := by decide
  workspaceId_ne : workspaceId ≠ "" := by decide
  sessionId_ne : runId.getD "" ≠ "" → sessionId.getD "" ≠ "" := by decide
  deriving DecidableEq

/-- The run that a context names; a context without session or run selects no row. -/
def TenantContext.scope? (context : TenantContext) : Option RunScope :=
  match context.sessionId, context.runId with
  | some sessionId, some runId => some ⟨context.tenantId, context.workspaceId, sessionId, runId⟩
  | _, _ => none

structure RunLease where
  context : TenantContext
  leaseOwner : String
  fencingToken : Nat
  version : Nat
  leaseExpiresAt : Nat
  deriving DecidableEq

/-- The exceptions that the modelled code raises, with their messages. -/
inductive WorkflowError where
  | leaseConflict (message : String)
  | staleFence (message : String)
  | invalidTransition (message : String)
  | versionConflict (message : String)
  | tenantRunQuota (message : String)
  | checkpointTooLarge (maxBytes bytes : Nat)
  | corruptCheckpoint (message : String)
  | incompatibleCheckpoint (message : String)
  | executionConflict (message : String)
  | planRoundBudgetExceeded (message : String)
  | integrity
  | noResultFound
  | assertion
  | validation
  | value (message : String)
  | runtime (message : String)
  | recursion
  deriving DecidableEq, Repr

end MultiClaw
