import MultiClaw.Tools.Scheduler
import MultiClaw.Workflow.CoordinatorSpec

/-! When closing an execution commits, and what it writes. -/
namespace MultiClaw

open Base Transaction WorkflowRepository CoreToolScheduler
open WorkflowCoordinator (jsonText jsonOption)
open Json (stringBytes)

variable {env : Env} {db : Db} {context : TenantContext} {executionId : String}
  {status : ExecutionStatus}

/-! Closing an execution -/

theorem persistToolResult_ensures {memoryId content toolCallId toolName : String} :
    Ensures (persistToolResult context memoryId content toolCallId toolName executionId status)
      env db fun _ db' => ∃ memory, db' = { db with memory } := by
  unfold persistToolResult
  split
  · exact ensures_of_error rfl
  · exact ensures_bind MemoryRepository.save_ensures fun _ _ h => ensures_of_ok rfl h

end MultiClaw
