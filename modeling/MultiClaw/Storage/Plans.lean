import MultiClaw.Planner.Validation
import MultiClaw.Storage.Workflow

/-! The plan repository: versions, decisions and step attempts of a plan. -/
namespace MultiClaw

open Base Transaction

/-- One version of a plan with its steps; a dependency is a step with one that it waits for. -/
structure PlanVersionRecord where
  row : PlanVersionRow
  constraints : List String
  steps : List PlanStepRow
  dependencies : List (String × String)
  deriving DecidableEq

structure PlanSnapshot where
  context : TenantContext
  planId : String
  sourceMessageId : String
  triggerMode : PlanTriggerMode
  status : PlanStatus
  currentVersion : Nat
  approvedVersion : Option Nat
  aggregateVersion : Nat
  createdAt : Nat
  updatedAt : Nat
  current : PlanVersionRecord
  versions : List PlanVersionRecord
  decisions : List PlanDecisionRow
  deriving DecidableEq

inductive PlanError where
  | workflow (error : WorkflowError)
  | validation (message : String)
  | value (message : String)
  | runtime (message : String)
  | key
  | notFound (message : String)
  | versionConflict (latest : PlanSnapshot)
  | decisionIdempotency (message : String)
  | executionBlocked (message : String)
  | stepAlreadyRunning (message : String)
  | attemptLimit (message : String)
  | roundBudgetExceeded (message : String)
  | revisionLimit (message : String)
  | generation (message : String)
  | integrity
  deriving DecidableEq

abbrev PlanTx (α : Type) := Transaction Env Db PlanError α

/-- A workflow operation inside a transaction of the planner. -/
def workflow {α : Type} (x : Tx α) : PlanTx α := x.mapError .workflow

/-! Reading a plan -/

def PlanVersionRecord.stepById? (v : PlanVersionRecord) (stepId : String) : Option PlanStepRow :=
  v.steps.find? (·.stepId == stepId)

/-- The steps that a step waits for, in the order of their ordinals. -/
def PlanVersionRecord.dependenciesOf (v : PlanVersionRecord) (stepId : String) : List String :=
  (v.dependencies.filter (·.1 == stepId)).map (·.2)

def PlanVersionRecord.draft (v : PlanVersionRecord) : PlanDraft :=
  { objective := v.row.objective, constraints := v.constraints
    generationReason := v.row.generationReason
    steps := v.steps.map fun s =>
      { logicalStepKey := s.logicalStepKey, title := s.title, description := s.description
        expectedOutcome := s.expectedOutcome
        dependsOn := (v.dependenciesOf s.stepId).filterMap fun id =>
          (v.stepById? id).map (·.logicalStepKey)
        maxAttempts := s.maxAttempts } }

def validateVersionIntegrity (host : Host) (v : PlanVersionRecord) : Except PlanError Unit := do
  if v.row.schemaVersion ≠ 1 then throw (.value "Plan version schema is corrupt")
  if v.steps.map (·.ordinal) ≠ List.range' 1 v.steps.length then
    throw (.value "Plan step ordinals are corrupt")
  if ¬(v.steps.map (·.stepId)).Nodup then throw (.value "Plan step identifiers are corrupt")
  if v.dependencies.any fun d => (v.stepById? d.1).isNone then
    throw (.value "Plan dependency targets are corrupt")
  if v.dependencies.any fun d => (v.stepById? d.2).isNone then
    throw (.value "Plan dependency sources are corrupt")
  if v.draft.fieldsValid = false then throw (.value "Plan version content is corrupt")
  match validatePlanDraft host v.draft 20 10 20 with
  | .error _ => throw (.value "Plan version content is corrupt")
  | .ok validated =>
    if validated.steps.map (fun s => (s.logicalStepKey, s.ordinal)) ≠
        v.steps.map fun s => (s.logicalStepKey, s.ordinal) then
      throw (.value "Plan step ordering is corrupt")
    if validated.steps.map (fun s => stepDefinitionDigest s.toPlanDraftStep) ≠
        v.steps.map (·.definitionDigest) then
      throw (.value "Plan step definition_digest is corrupt")
    if planContentDigest validated ≠ v.row.contentDigest then
      throw (.value "Plan version content_digest is corrupt")
    return ()

/-- The strings of a list, if it has nothing else. -/
def stringItems? : List Json → Option (List String)
  | [] => some []
  | .str (.text s) :: items => (stringItems? items).map (s :: ·)
  | _ => none

def hydrateConstraints (host : Host) (text : String) : Except PlanError (List String) :=
  match Json.loads host.recursionLimit text with
  | .ok (.arr items) =>
    match stringItems? items with
    | some constraints => .ok constraints
    | none => .error (.value "Plan constraints_json must contain a list of strings")
  | .ok _ => .error (.value "Plan constraints_json must contain a list of strings")
  | .error .malformed | .error .intTooLong => .error (.value "Plan constraints_json is corrupt")
  | .error .recursion | .error .outOfFuel => .error (.workflow .recursion)

def hydrateVersion (host : Host) (steps : List PlanStepRow)
    (dependencies : List PlanStepDependencyRow) (row : PlanVersionRow) :
    Except PlanError PlanVersionRecord := do
  let v : PlanVersionRecord :=
    { row, constraints := ← hydrateConstraints host row.constraintsJson
      steps := steps.filter (·.planVersion == row.planVersion)
      dependencies := (dependencies.filter (·.planVersion == row.planVersion)).map
        fun d => (d.stepId, d.dependsOnStepId) }
  validateVersionIntegrity host v
  return v

def ordinalOf (steps : List PlanStepRow) (d : PlanStepDependencyRow) : Option Nat :=
  (steps.find? fun s => s.planVersion == d.planVersion && s.stepId == d.dependsOnStepId).map
    (·.ordinal)

/-- The versions of a plan from its rows. -/
def hydrateVersions (host : Host) (versions : List PlanVersionRow) (steps : List PlanStepRow)
    (dependencies : List PlanStepDependencyRow) : Except PlanError (List PlanVersionRecord) :=
  let steps := steps.insertionSort fun a b =>
    a.planVersion < b.planVersion ∨ (a.planVersion = b.planVersion ∧ a.ordinal ≤ b.ordinal)
  -- a dependency on a step that is not there has no ordinal to sort by
  if dependencies.any fun d => (ordinalOf steps d).isNone then .error .key
  else
    (versions.insertionSort fun a b => a.planVersion ≤ b.planVersion).mapM
      (hydrateVersion host steps (dependencies.insertionSort fun a b =>
        (ordinalOf steps a).getD 0 ≤ (ordinalOf steps b).getD 0))

namespace Db

variable (db : Db)

def planVersionsOf (host : Host) (scope : PlanScope) : Except PlanError (List PlanVersionRecord) :=
  hydrateVersions host (db.planVersions.filter (·.scope == scope))
    (db.planSteps.filter (·.scope == scope)) (db.planStepDependencies.filter (·.scope == scope))

def stepRunById (scope : RunScope) (stepRunId : String) : Option PlanStepRunRow :=
  db.planStepRuns.find? fun a => a.scope.tenantId == scope.tenantId &&
    a.scope.workspaceId == scope.workspaceId && a.scope.sessionId == scope.sessionId &&
    a.runId == scope.runId && a.stepRunId == stepRunId

end Db

namespace PlanRepository

/-! Writing versions -/

def validateDraft (env : Env) (draft : PlanDraft) : Except PlanError ValidatedPlanDraft :=
  (validatePlanDraft env.host draft env.settings.maxSteps env.settings.maxDependencyDepth
    env.settings.maxStepAttempts).mapError .validation

/-- The rows of a new version; its steps get fresh ids. -/
def versionRow (scope : PlanScope) (planVersion : Nat) (validated : ValidatedPlanDraft)
    (parentVersion : Option Nat) (revisionFeedback : Option String) (createdAt : Nat) :
    PlanVersionRow :=
  { tenantId := scope.tenantId, workspaceId := scope.workspaceId, sessionId := scope.sessionId
    planId := scope.planId, planVersion, contentDigest := planContentDigest validated
    objective := validated.objective
    constraintsJson := (Json.arr (validated.constraints.map jsonString)).dumps.getD ""
    generationReason := validated.generationReason, parentVersion, revisionFeedback
    schemaVersion := 1, createdAt }

def stepRows (scope : PlanScope) (planVersion : Nat) (validated : ValidatedPlanDraft)
    (supersedes : String → Option String) (stepId : String → String) : List PlanStepRow :=
  validated.steps.map fun s =>
    { scope, planVersion, stepId := stepId s.logicalStepKey, logicalStepKey := s.logicalStepKey
      supersedesStepId := supersedes s.logicalStepKey, ordinal := s.ordinal, title := s.title
      description := s.description, expectedOutcome := s.expectedOutcome
      maxAttempts := s.maxAttempts
      definitionDigest := stepDefinitionDigest s.toPlanDraftStep }

def dependencyRows (scope : PlanScope) (planVersion : Nat) (validated : ValidatedPlanDraft)
    (stepId : String → String) : List PlanStepDependencyRow :=
  validated.steps.flatMap fun s => s.dependsOn.map fun dependency =>
    { scope, planVersion, stepId := stepId s.logicalStepKey, dependsOnStepId := stepId dependency }

def insertVersion (scope : PlanScope) (planVersion : Nat) (validated : ValidatedPlanDraft)
    (parentVersion : Option Nat) (revisionFeedback : Option String)
    (supersedes : String → Option String) (stepId : String → String) : PlanTx Unit := do
  let env ← ask
  let db ← get
  match db.planVersions.insert?
      (versionRow scope planVersion validated parentVersion revisionFeedback env.now),
    db.planSteps.insertAll? (stepRows scope planVersion validated supersedes stepId),
    db.planStepDependencies.insertAll? (dependencyRows scope planVersion validated stepId) with
  | some planVersions, some planSteps, some planStepDependencies =>
    set { db with planVersions, planSteps, planStepDependencies }
  | _, _, _ => throw .integrity

end PlanRepository

end MultiClaw
