import MultiClaw.Tools.Recovery
import MultiClaw.Tools.SchedulerSpec
import MultiClaw.Workflow.Writes

/-! Every way in which the scheduler closes an execution, and what it leaves in the tables. -/
namespace MultiClaw

open Base Transaction Relation CoreToolScheduler

variable {env : Env} {db db' : Db} {context : TenantContext} {lease : RunLease} {ids : NewIds}
  {e : ExecutionRow} {id : String}

/-! Executions by their id alone -/

def Db.executionById (db : Db) (id : String) : Option ExecutionRow :=
  db.executions.find? (·.executionId = id)

theorem executionById_of_mem (he : e ∈ db.executions.rows) :
    db.executionById e.executionId = some e := by
  refine Table.find?_eq_some_of_mem he (by simp) ?_
  intro a _ ha
  have hid : a.executionId = e.executionId := by simpa using ha
  exact ⟨.id e.executionId, by simp [ExecutionRow.keys, hid], by simp [ExecutionRow.keys]⟩

theorem mem_of_executionById (h : db.executionById id = some e) :
    e ∈ db.executions.rows ∧ e.executionId = id := by
  obtain ⟨he, hp⟩ := Table.mem_of_find? h
  exact ⟨he, by simpa using hp⟩

/-! Closing an execution -/

/-- One closing, with what the scheduler knows of the execution. -/
inductive SchedulerClosing where
  | dispatched (prepared : PreparedExecution) (toolName : String) (callId : Option String)
      (outcome : DispatchOutcome)
  | recovered (prepared : PreparedExecution) (toolName toolCallId : String)
      (result : ToolExecutionResult)
  | uncertain (execution : ExecutionRow)
  | blocked (execution : ExecutionRow) (status : Blocked) (detail : String)
  | failed (execution : ExecutionRow) (toolName : String)

/-- What the closing did: one execution got its status, and rows of other tables were added. -/
def ClosesTo (env : Env) (db : Db) (executionId : String) (status : ExecutionStatus)
    (db' : Db) : Prop :=
  ∃ e metadata memory checkpoints, e ∈ db.executions.rows ∧ e.executionId = executionId ∧
    metadata.targetStatus = some status ∧
    db' = { db with
      memory, checkpoints
      executions := db.executions.replace e (e.fill env metadata) (e.fill_keys env metadata) }

theorem closeExecution_ensures {closing : Closing} :
    Ensures (closeExecution context lease closing ids) env db
      fun _ db' => ClosesTo env db closing.executionId closing.status db' := by
  refine ensures_bind persistToolResult_ensures fun out db₁ hdb₁ => ?_
  obtain ⟨memory, rfl⟩ := hdb₁
  refine ensures_bind WorkflowCoordinator.updateExecutionMetadata_ensures fun row db₂ hdb₂ => ?_
  obtain ⟨e, he, -, -, rfl, rfl⟩ := hdb₂
  refine ensures_bind WorkflowCoordinator.checkpoint_ensures fun _ db₃ hdb₃ => ?_
  obtain ⟨-, checkpoints, rfl⟩ := hdb₃
  obtain ⟨hmem, -, hid⟩ := getExecution_mem he
  exact ensures_of_ok rfl ⟨e, _, memory, checkpoints, hmem, hid, rfl, rfl⟩

theorem leaseForObservedResult_ensures :
    Ensures (leaseForObservedResult lease context) env db fun _ db' => db' = db := by
  unfold leaseForObservedResult
  split
  · exact ensures_of_error rfl
  · refine ensures_get ?_
    split
    · exact ensures_of_ok rfl rfl
    · split
      · exact ensures_of_ok rfl rfl
      · split
        · split <;> exact ensures_of_ok rfl rfl
        · exact ensures_of_ok rfl rfl

theorem persistExecutionResult_ensures {prepared : PreparedExecution} {toolName : String}
    {callId : Option String} {result : ToolExecutionResult}
    {terminalStatus : Option ExecutionStatus} :
    Ensures (persistExecutionResult prepared toolName context callId result terminalStatus ids) env
      db fun _ db' => ClosesTo env db prepared.executionId
        (terminalStatus.getD (terminalExecutionStatus result)) db' := by
  rw [persistExecutionResult]
  split
  · exact ensures_of_error rfl
  · refine ensures_bind leaseForObservedResult_ensures fun lease' db₁ hdb₁ => ?_
    rw [hdb₁]
    exact ensures_bind closeExecution_ensures fun _ _ h => ensures_of_ok rfl h

namespace SchedulerClosing

def executionId : SchedulerClosing → String
  | dispatched prepared _ _ _ | recovered prepared _ _ _ => prepared.executionId
  | uncertain execution | blocked execution _ _ | failed execution _ => execution.executionId

/-- The status in which the execution is left. -/
def status : SchedulerClosing → ExecutionStatus
  | dispatched prepared _ _ outcome => outcome.status prepared.recoveryStrategy
  | recovered _ _ _ result => terminalExecutionStatus result
  | uncertain _ => .uncertain
  | blocked _ status _ => status.executionStatus
  | failed execution _ =>
    if execution.status = .notStarted ∨ execution.status = .replaying then .blockedCorrupt
    else if execution.recoveryStrategy = .manualUncertain then .uncertain
    else .failedTerminal

def tx (context : TenantContext) (lease : RunLease) (ids : NewIds) : SchedulerClosing → Tx Unit
  | dispatched prepared toolName callId outcome =>
    (fun _ => ()) <$> closeDispatched prepared toolName context callId outcome ids
  | recovered prepared toolName toolCallId result =>
    (fun _ => ()) <$> persistExecutionResult prepared toolName context (some toolCallId) result
      none ids
  | uncertain execution => (fun _ => ()) <$> markUncertainExecution context lease execution ids
  | blocked execution status detail =>
    (fun _ => ()) <$> blockExecution context lease execution status.executionStatus detail ids
  | failed execution toolName => failRecovery context lease toolName execution ids

variable {c : SchedulerClosing}

theorem tx_ensures : Ensures (c.tx context lease ids) env db
    fun _ db' => ClosesTo env db c.executionId c.status db' := by
  cases c with
  | dispatched prepared toolName callId outcome =>
    exact ensures_map persistExecutionResult_ensures
  | recovered prepared toolName toolCallId result =>
    exact ensures_map persistExecutionResult_ensures
  | uncertain execution => exact ensures_map persistExecutionResult_ensures
  | blocked execution status detail => exact ensures_map closeExecution_ensures
  | failed execution toolName =>
    rw [tx, failRecovery, status, executionId]
    split_ifs
    · exact ensures_bind closeExecution_ensures fun _ _ h => ensures_of_ok rfl h
    · exact ensures_bind persistExecutionResult_ensures fun _ _ h => ensures_of_ok rfl h
    · exact ensures_bind persistExecutionResult_ensures fun _ _ h => ensures_of_ok rfl h

end SchedulerClosing

end MultiClaw
