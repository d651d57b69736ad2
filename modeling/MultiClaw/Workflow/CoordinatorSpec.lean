import MultiClaw.Storage.WorkflowSpec
import MultiClaw.Workflow.CheckpointSpec

/-! When the coordinator stores a checkpoint or completes an execution, and what it writes. -/
namespace MultiClaw

open Base Transaction WorkflowRepository

variable {env : Env} {db : Db} {context : TenantContext} {lease : RunLease} {r : RunRow}
  {payload : CheckpointPayload} {options : CheckpointOptions}

theorem le_newest {c : CheckpointRow} {cs : List CheckpointRow} (hc : c ∈ cs) :
    ∃ d, Db.newest cs = some d ∧ c.checkpointSeq ≤ d.checkpointSeq := by
  induction cs with
  | nil => cases hc
  | cons a cs ih =>
    rw [Db.newest]
    rcases List.mem_cons.mp hc with rfl | hc
    · cases Db.newest cs with
      | none => exact ⟨c, rfl, le_refl _⟩
      | some d =>
        by_cases hlt : d.checkpointSeq < c.checkpointSeq
        · exact ⟨c, if_pos hlt, le_refl _⟩
        · exact ⟨d, if_neg hlt, by omega⟩
    · obtain ⟨d, hd, hle⟩ := ih hc
      rw [hd]
      by_cases hlt : d.checkpointSeq < a.checkpointSeq
      · exact ⟨a, if_pos hlt, by omega⟩
      · exact ⟨d, if_neg hlt, hle⟩

/-- The next sequence number of a run is above all that its checkpoints carry. -/
theorem lt_getNextCheckpointSeq {c : CheckpointRow} (hc : c ∈ db.checkpoints.rows)
    (hctx : contextPredicate context c.scope = true) :
    c.checkpointSeq < db.getNextCheckpointSeq context := by
  have hmem : c ∈ db.checkpoints.rows.filter fun c => contextPredicate context c.scope :=
    List.mem_filter.mpr ⟨hc, hctx⟩
  obtain ⟨d, hd, hle⟩ := le_newest hmem
  unfold Db.getNextCheckpointSeq Db.getLatestCheckpoint Table.filter
  rw [hd, Option.elim_some]
  omega

namespace WorkflowCoordinator

/-- The row that is inserted for a payload with this text. -/
def newCheckpoint (payload : CheckpointPayload) (text : String) (options : CheckpointOptions)
    (approvalId executionId : Option String) : NewCheckpoint :=
  { checkpointId := options.checkpointId, checkpointSeq := options.checkpointSeq
    phase := payload.phase.value, payloadJson := text, payloadHash := sha256Hex text
    schemaVersion := 1, approvalId, executionId
    expectedExecutionStatus := options.executionExpectedStatus
    expectedExecutionVersion := options.executionExpectedVersion }

/-! What a committed operation leaves alone -/

variable {phase : CheckpointPhase} {data : FieldValues} {checkpointId : String}

/-- The tables differ in the checkpoints at most. -/
def OnlyCheckpoints (db db' : Db) : Prop := ∃ checkpoints, db' = { db with checkpoints }

theorem insertCheckpoint_ensures {new : NewCheckpoint} :
    Ensures (insertCheckpoint lease new) env db fun _ db' => OnlyCheckpoints db db' := by
  cases hcur : db.currentRun lease env.now with
  | none => exact ensures_of_ok (insertCheckpoint_of_stale hcur) ⟨db.checkpoints, rfl⟩
  | some r =>
    intro a db' h
    rw [insertCheckpoint_of_current hcur] at h
    split at h
    · cases h
    · split_ifs at h
      split at h <;> cases h
      exact ⟨_, rfl⟩

theorem orStale_ensures {α : Type} {message : String} {o : Option α} :
    Ensures (orStale message o) env db fun _ db' => db' = db := by
  cases o with
  | none => exact ensures_of_error rfl
  | some a => exact ensures_of_ok rfl rfl

theorem checkpointPayload_ensures :
    Ensures (checkpointPayload lease payload options) env db
      fun _ db' => OnlyCheckpoints db db' := by
  refine ensures_ask (ensures_ofExcept fun ids _ => ensures_ofExcept fun encoded _ => ?_)
  refine ensures_bind insertCheckpoint_ensures fun o db₁ hdb₁ => ?_
  rintro a db' h
  rw [orStale_ensures a db' h]
  exact hdb₁

/-- A stored checkpoint has a valid payload. -/
theorem checkpoint_ensures :
    Ensures (checkpoint lease phase data options) env db fun _ db' =>
      (∃ payload, validatePhasePayload phase data = .ok payload) ∧ OnlyCheckpoints db db' := by
  refine ensures_ofExcept fun payload hpayload => ?_
  intro a db' h
  exact ⟨⟨payload, hpayload⟩, checkpointPayload_ensures a db' h⟩

theorem createExecution_ensures {new : NewExecution} :
    Ensures (createExecution lease new) env db fun o db' => ∀ row, o = some row →
      ∃ r executions, db.currentRun lease env.now = some r ∧ row = new.row r.scope env.now ∧
        db.executions.insert? row = some executions ∧ db' = { db with executions } := by
  refine ensures_ask ?_
  intro o db' h
  rintro row rfl
  cases hcur : db.currentRun lease env.now with
  | none => cases (insertExecution_of_stale hcur).symm.trans h
  | some r =>
    rw [insertExecution_of_current hcur] at h
    split_ifs at h
    · cases h
    · cases hinsert : db.executions.insert? (new.row r.scope env.now) with
      | none =>
        rw [hinsert] at h
        cases h
      | some executions =>
        rw [hinsert] at h
        cases h
        exact ⟨r, executions, rfl, rfl, hinsert, rfl⟩

theorem executionConflict_ensures {α : Type} {Q : α → Db → Prop} :
    Ensures (executionConflict lease) env db Q := by
  refine ensures_ask (ensures_get ?_)
  split <;> exact ensures_of_error rfl

theorem transitionExecution_ensures {executionId : String} {expected target : ExecutionStatus}
    {version : Nat} :
    Ensures (transitionExecution lease executionId expected version target) env db fun _ db' =>
      ∃ e, db.getExecution lease.context executionId = some e ∧ e.status = expected ∧
        e.version = version ∧ db' = { db with
          executions := db.executions.replace e (e.moveTo env target)
            (e.moveTo_keys env target) } := by
  refine ensures_bind (Q := fun o db' => ∀ row, o = some row → ∃ e,
    db.getExecution lease.context executionId = some e ∧ e.status = expected ∧
      e.version = version ∧ db' = { db with
        executions := db.executions.replace e (e.moveTo env target)
          (e.moveTo_keys env target) }) ?_ ?_
  · rintro o db' h row rfl
    cases hcur : db.currentRun lease env.now with
    | none =>
      rw [transitionExecution_of_stale hcur] at h
      split_ifs at h
      cases h
    | some r =>
      by_cases hlegal : target ∈ expected.legalTargets
      · rw [transitionExecution_of_current hcur hlegal] at h
        cases hget : (db.getExecution lease.context executionId).filter
            fun e => e.status == expected && e.version == version with
        | none =>
          rw [hget] at h
          cases h
        | some e =>
          rw [hget] at h
          cases h
          rw [Option.filter_eq_some_iff] at hget
          simp only [Bool.and_eq_true, beq_iff_eq] at hget
          exact ⟨e, hget.1, hget.2.1, hget.2.2, rfl⟩
      · simp [WorkflowRepository.transitionExecution, hlegal] at h
  · intro o db' hdb'
    cases o with
    | none => exact executionConflict_ensures
    | some row => exact ensures_of_ok rfl (hdb' row rfl)

theorem updateExecutionMetadata_ensures {executionId : String} {expected : ExecutionStatus}
    {version : Nat} {metadata : ExecutionMetadata} :
    Ensures (updateExecutionMetadata lease executionId expected version metadata) env db
      fun row db' => ∃ e, db.getExecution lease.context executionId = some e ∧
        e.status = expected ∧ e.version = version ∧ row = e.fill env metadata ∧
        db' = { db with
          executions := db.executions.replace e (e.fill env metadata)
            (e.fill_keys env metadata) } := by
  refine ensures_bind (Q := fun o db' => ∀ row, o = some row → ∃ e,
    db.getExecution lease.context executionId = some e ∧ e.status = expected ∧
      e.version = version ∧ row = e.fill env metadata ∧ db' = { db with
        executions := db.executions.replace e (e.fill env metadata)
          (e.fill_keys env metadata) }) ?_ ?_
  · rintro o db' h row rfl
    cases hcur : db.currentRun lease env.now with
    | none => cases (updateExecutionMetadata_of_stale hcur).symm.trans h
    | some r =>
      rw [updateExecutionMetadata_of_current hcur] at h
      split at h
      · cases h
      · cases hget : (db.getExecution lease.context executionId).filter
            fun e => e.status == expected && e.version == version && metadata.fits e with
        | none =>
          rw [hget] at h
          cases h
        | some e =>
          rw [hget] at h
          cases h
          rw [Option.filter_eq_some_iff] at hget
          simp only [Bool.and_eq_true, beq_iff_eq] at hget
          exact ⟨e, hget.1, hget.2.1.1, hget.2.1.2, rfl, rfl⟩
  · intro o db' hdb'
    cases o with
    | none => exact executionConflict_ensures
    | some row => exact ensures_of_ok rfl (hdb' row rfl)

/-- A request to cancel touches the run it names and its checkpoints. -/
theorem requestCancellation_ensures :
    Ensures (requestCancellation context checkpointId) env db fun _ db' =>
      ∃ db₁, OnlyCheckpoints db₁ db' ∧ (db₁ = db ∨ ∃ r, db.getRun context = some r ∧
        db₁ = { db with
          runs := db.runs.replace r (r.cancelRequest env) (r.cancelRequest_keys env) }) := by
  refine ensures_bind (Q := fun _ db₁ => db₁ = db ∨ ∃ r, db.getRun context = some r ∧
      db₁ = { db with
        runs := db.runs.replace r (r.cancelRequest env) (r.cancelRequest_keys env) }) ?_ ?_
  · intro a db₁ h
    rw [requestCancellation_run] at h
    split at h
    · cases h
      exact .inl rfl
    · rename_i r hrun
      split_ifs at h <;> cases h
      · exact .inl rfl
      · exact .inr ⟨r, hrun, rfl⟩
  · intro o db₁ hdb₁
    -- what follows the update writes at most a checkpoint
    suffices hrest : Ensures _ env db₁ fun _ db' => OnlyCheckpoints db₁ db' from
      fun a db' h => ⟨db₁, hrest a db' h, hdb₁⟩
    have hsame : OnlyCheckpoints db₁ db₁ := ⟨db₁.checkpoints, rfl⟩
    have hclose : ∀ record finishedAt, Ensures (requestCancellation.close context checkpointId db₁
        record finishedAt) env db₁ fun _ db' => OnlyCheckpoints db₁ db' := fun _ _ =>
      ensures_bind checkpoint_ensures fun _ _ h => ensures_of_ok rfl h.2
    split
    · exact ensures_of_error rfl
    · split
      · exact ensures_of_ok rfl hsame
      · split_ifs
        · exact ensures_of_ok rfl hsame
        · refine ensures_get ?_
          split
          · split
            · exact ensures_of_error rfl
            · exact ensures_of_ok rfl hsame
            · exact hclose _ _
          · exact hclose _ _

end WorkflowCoordinator

end MultiClaw
