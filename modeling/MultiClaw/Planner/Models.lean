import MultiClaw.Workflow.Models

/-! Plan drafts and decisions, and the statuses of plans, decisions and step attempts. -/
namespace MultiClaw

inductive PlanStatus where
  | awaitingApproval
  | approved
  | rejected
  | archived
  deriving DecidableEq, Repr

inductive PlanTriggerMode where
  | automatic
  | explicit
  deriving DecidableEq, Repr

inductive PlanDecisionAction where
  | approve
  | reject
  | revise
  deriving DecidableEq, Repr

inductive PlanStepRunStatus where
  | pending
  | running
  | succeeded
  | failedRetryable
  | failedTerminal
  | cancelled
  deriving DecidableEq, Repr

/-- `NON_DISPATCHABLE_PLAN_STEP_STATUSES`. -/
def PlanStepRunStatus.isNonDispatchable : PlanStepRunStatus → Bool
  | .running | .succeeded | .failedTerminal | .cancelled => true
  | .pending | .failedRetryable => false

/-- `LOGICAL_STEP_KEY`. -/
def isLogicalStepKey (s : String) : Bool :=
  1 ≤ s.length && s.length ≤ 64 &&
    s.toList.all fun c => c.isLower || c.isDigit || c == '_' || c == '-'

structure PlanDraftStep where
  logicalStepKey : String
  title : String
  description : String
  expectedOutcome : String
  dependsOn : List String := []
  maxAttempts : Nat := 2
  deriving DecidableEq, Repr

def PlanDraftStep.fieldsValid (s : PlanDraftStep) : Bool :=
  isLogicalStepKey s.logicalStepKey && 1 ≤ s.title.length && s.title.length ≤ 200 &&
    1 ≤ s.description.length && s.description.length ≤ 4000 &&
    1 ≤ s.expectedOutcome.length && s.expectedOutcome.length ≤ 2000 &&
    s.dependsOn.length ≤ 20 && 1 ≤ s.maxAttempts && s.maxAttempts ≤ 20

structure PlanDraft where
  objective : String
  constraints : List String := []
  generationReason : String
  steps : List PlanDraftStep
  deriving DecidableEq, Repr

/-- The field constraints that the model class checks when a draft is built. -/
def PlanDraft.fieldsValid (d : PlanDraft) : Bool :=
  1 ≤ d.objective.length && d.objective.length ≤ 16000 &&
    d.constraints.length ≤ 20 && (d.constraints.all fun c => 1 ≤ c.length && c.length ≤ 1000) &&
    1 ≤ d.generationReason.length && d.generationReason.length ≤ 1000 &&
    1 ≤ d.steps.length && d.steps.length ≤ 20 && d.steps.all (·.fieldsValid)

structure ValidatedPlanStep extends PlanDraftStep where
  ordinal : Nat
  deriving DecidableEq, Repr

structure ValidatedPlanDraft where
  objective : String
  constraints : List String
  generationReason : String
  steps : List ValidatedPlanStep
  deriving DecidableEq, Repr

end MultiClaw
