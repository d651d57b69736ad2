import MultiClaw.Storage.Plans

/-! The plan repository, continued: attempts at the steps of a plan, and the rounds of its runs. -/
namespace MultiClaw

open Base Transaction

inductive PlanStepResultStatus where
  | succeeded
  | failed
  deriving DecidableEq, Repr

def PlanStepResultStatus.value : PlanStepResultStatus → String
  | succeeded => "succeeded"
  | failed => "failed"

structure PlanStepResultDocument where
  planId : String
  planVersion : Nat
  runId : String
  stepId : String
  stepRunId : String
  attempt : Nat
  status : PlanStepResultStatus
  summary : String
  evidence : List String
  definitionDigest : String
  dependencyResultDigests : List (String × String)
  toolCatalogDigest : String
  policyDigest : String
  skillSetDigest : String
  deriving DecidableEq, Repr

namespace PlanStepResultDocument

def toJson (d : PlanStepResultDocument) : Json :=
  .obj [(.text "attempt", .int d.attempt),
    (.text "definition_digest", jsonString d.definitionDigest),
    (.text "dependency_result_digests",
      .obj (d.dependencyResultDigests.map fun m => (.text m.1, jsonString m.2))),
    (.text "evidence", .arr (d.evidence.map jsonString)), (.text "plan_id", jsonString d.planId),
    (.text "plan_version", .int d.planVersion), (.text "policy_digest", jsonString d.policyDigest),
    (.text "run_id", jsonString d.runId), (.text "schema_version", .int 1),
    (.text "skill_set_digest", jsonString d.skillSetDigest),
    (.text "status", jsonString d.status.value), (.text "step_id", jsonString d.stepId),
    (.text "step_run_id", jsonString d.stepRunId), (.text "summary", jsonString d.summary),
    (.text "tool_catalog_digest", jsonString d.toolCatalogDigest)]

def canonicalJson (d : PlanStepResultDocument) : String := d.toJson.dumps.getD ""

def digest (d : PlanStepResultDocument) : String := sha256Hex d.canonicalJson

end PlanStepResultDocument

/-! Attempts -/

def isPlanStepReady (stepId : String) (dependencyIds : List String)
    (latest : String → Option PlanStepRunRow) : Bool :=
  (latest stepId).all (!·.status.isNonDispatchable) &&
    dependencyIds.all fun id => (latest id).any (·.status == .succeeded)

end MultiClaw
