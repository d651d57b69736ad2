import MultiClaw.Storage.Memory
import MultiClaw.Storage.PlanAttempts
import MultiClaw.Workflow.Coordinator
import MultiClaw.Security.Redaction

/-! The results of plan steps: how they are built, stored, and read back with their proofs. -/
namespace MultiClaw

open Base Transaction

def maxPlanStepResultBytes : Nat := 262144

namespace PlanStepResultDocument

/-- The field constraints of the document class. -/
def fieldsValid (d : PlanStepResultDocument) : Bool :=
  isUuid d.planId && 1 ≤ d.planVersion && isUuid d.runId && isUuid d.stepId &&
    isUuid d.stepRunId && 1 ≤ d.attempt && d.attempt ≤ 20 && 1 ≤ d.summary.length &&
    d.summary.length ≤ 4000 && d.evidence.length ≤ 20 &&
    (d.evidence.all fun e => 1 ≤ e.length && e.length ≤ 2000) && isSha256 d.definitionDigest &&
    d.dependencyResultDigests.length ≤ 20 &&
    (d.dependencyResultDigests.all fun m => isLogicalStepKey m.1 && isSha256 m.2) &&
    isSha256 d.toolCatalogDigest && isSha256 d.policyDigest && isSha256 d.skillSetDigest

end PlanStepResultDocument

namespace PlanExecution

/-- The attempt that a reused attempt stands for, and its step. -/
def lineageOf (db : Db) (scope : RunScope) (plan : PlanSnapshot) (step : PlanStepRow)
    (attempt : PlanStepRunRow) (sourceId : String) :
    Except PlanError (PlanStepRunRow × PlanStepRow) :=
  let inconsistent := PlanError.executionBlocked "Plan reused result lineage is inconsistent"
  match db.stepRunById scope sourceId with
  | none => .error inconsistent
  | some source =>
    if source.reusedFromStepRunId ≠ none ∨ source.scope.planId ≠ plan.planId ∨
        source.runId ≠ scope.runId ∨ source.status ≠ .succeeded ∨
        source.resultRef ≠ attempt.resultRef ∨ source.resultDigest ≠ attempt.resultDigest ∨
        source.resultSummary ≠ attempt.resultSummary then .error inconsistent
    else match (plan.versions.find? (·.row.planVersion == source.planVersion)).bind
        (·.stepById? source.stepId) with
      | none => .error inconsistent
      | some sourceStep =>
        if step.supersedesStepId ≠ some sourceStep.stepId ∨
            step.definitionDigest ≠ sourceStep.definitionDigest then .error inconsistent
        else .ok (source, sourceStep)

/-- The steps in the order of their ordinals. -/
def orderedSteps (steps : List PlanStepRow) : List PlanStepRow :=
  steps.insertionSort fun a b =>
    a.ordinal < b.ordinal ∨ (a.ordinal = b.ordinal ∧ a.stepId ≤ b.stepId)

/-- `_canonical_digest`. -/
def canonicalDigest (host : Host) (value : Json) : String :=
  sha256Hex ((redact host value).dumps.getD "")

/-- What an agent returns for a step. -/
structure PlanStepCompletion where
  status : PlanStepResultStatus
  summary : String
  evidence : List String
  retryable : Bool

/-- What the digests of a runner are taken of: its tools, the policy and the active skills. -/
structure RunnerState where
  toolSchemas : Json
  policy : Json
  activeSkills : List String

def RunnerState.toolDigest (host : Host) (r : RunnerState) : String :=
  canonicalDigest host r.toolSchemas

def RunnerState.policyDigest (host : Host) (r : RunnerState) : String :=
  canonicalDigest host r.policy

def RunnerState.skillDigest (host : Host) (r : RunnerState) : String :=
  canonicalDigest host (.arr ((r.activeSkills.insertionSort (· ≤ ·)).map jsonString))

/-- A step with the attempt that is under way. -/
structure StartedPlanStep where
  plan : PlanSnapshot
  step : PlanStepRow
  stepRun : PlanStepRunRow
  dependencyResults : List PlanStepResultDocument

/-- `_build_result_document`; a dependency result that names a step of another version has no
key. -/
def buildResultDocument (host : Host) (runId : String) (started : StartedPlanStep)
    (completion : PlanStepCompletion) (runner : RunnerState) :
    Except PlanError PlanStepResultDocument := do
  let dependencyResultDigests ← started.dependencyResults.mapM fun result =>
    match started.plan.current.stepById? result.stepId with
    | none => Except.error PlanError.key
    | some step => Except.ok (step.logicalStepKey, result.digest)
  let document : PlanStepResultDocument :=
    { planId := started.plan.planId, planVersion := started.plan.currentVersion, runId
      stepId := started.step.stepId, stepRunId := started.stepRun.stepRunId
      attempt := started.stepRun.attempt, status := completion.status
      summary := Redaction.redactString host completion.summary
      evidence := completion.evidence.map (Redaction.redactString host)
      definitionDigest := started.step.definitionDigest, dependencyResultDigests
      toolCatalogDigest := runner.toolDigest host, policyDigest := runner.policyDigest host
      skillSetDigest := runner.skillDigest host }
  if document.fieldsValid then return document
  else throw (.value "Plan step result document is invalid")

end PlanExecution

end MultiClaw
