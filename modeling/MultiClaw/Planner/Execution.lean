import MultiClaw.Planner.Results

/-! Plan execution: the transactions of the coordinator that runs the steps of a plan. -/
namespace MultiClaw

open Base Transaction PlanRepository

namespace PlanExecution

def chooseReadyStep (v : PlanVersionRecord) (latest : String → Option PlanStepRunRow) :
    Option PlanStepRow :=
  (orderedSteps v.steps).find? fun s =>
    isPlanStepReady s.stepId (v.dependenciesOf s.stepId) latest

/-- `persist_plan_step_result`: the reference of the entry that holds the document. -/
def persistPlanStepResult (context : TenantContext) (document : PlanStepResultDocument)
    (memoryId : String) : PlanTx String :=
  if context.sessionId = none then
    throw (.value "session_id is required for Plan step result persistence")
  else if maxPlanStepResultBytes < utf8Length document.canonicalJson then
    throw (.value "Plan step result document exceeds 262144 bytes")
  else do
    let _ ← workflow (MemoryRepository.save context
      { id := memoryId, content := document.canonicalJson, type := "plan_step_result"
        role := "assistant", sessionId := context.sessionId
        metadata := .obj [(.text "schema_version", .int 1),
          (.text "plan_id", jsonString document.planId),
          (.text "step_run_id", jsonString document.stepRunId)] })
    return "memory:" ++ memoryId

end PlanExecution

end MultiClaw
