import MultiClaw.Storage.Memory
import MultiClaw.Storage.PlanAttempts
import MultiClaw.Workflow.Coordinator
import MultiClaw.Workflow.System

/-! What the transactions of the planner can do to the plan tables. -/
namespace MultiClaw

open Base Transaction Relation PlanRepository

/-- The rows of one version were added to a plan, for a draft that was validated. -/
structure WroteVersion (env : Env) (scope : PlanScope) (planVersion : Nat) (parent : Option Nat)
    (validated : ValidatedPlanDraft) (stepId : String → String) (db db' : Db) : Prop where
  draft : ∃ draft, validateDraft env draft = .ok validated
  version : ∃ feedback, db.planVersions.insert?
    (versionRow scope planVersion validated parent feedback env.now) = some db'.planVersions
  steps : ∃ supersedes, db.planSteps.insertAll?
    (stepRows scope planVersion validated supersedes stepId) = some db'.planSteps
  dependencies : db.planStepDependencies.insertAll?
    (dependencyRows scope planVersion validated stepId) = some db'.planStepDependencies

/-- A new version of a plan was written. -/
def NewVersion (env : Env) (scope : PlanScope) (planVersion : Nat) (parent : Option Nat)
    (db db' : Db) : Prop :=
  ∃ validated stepId, WroteVersion env scope planVersion parent validated stepId db db'

end MultiClaw
