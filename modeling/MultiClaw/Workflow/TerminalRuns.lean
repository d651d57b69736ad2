import MultiClaw.Workflow.System

/-! Whether a run that has ended may still own an open execution. -/
namespace MultiClaw

open Base Transaction Relation

variable {env : Env} {db db' : Db} {may : Effect → Prop} {scope : RunScope}

namespace Db

/-- No execution of the run is waiting to run or running. -/
def Idle (db : Db) (scope : RunScope) : Prop :=
  ∀ e ∈ db.executions.rows, e.scope = scope → e.status.isOpen = false

/-- The run has not ended. -/
def Live (db : Db) (scope : RunScope) : Prop :=
  ∀ r ∈ db.runs.rows, r.scope = scope → r.status.isTerminal = false

/-- A run that has ended owns no open execution. -/
def TerminalRunsIdle (db : Db) : Prop :=
  ∀ r ∈ db.runs.rows, r.status.isTerminal = true → db.Idle r.scope

instance (db : Db) (scope : RunScope) : Decidable (db.Idle scope) := by
  unfold Idle
  infer_instance

instance (db : Db) : Decidable db.TerminalRunsIdle := by
  unfold TerminalRunsIdle
  infer_instance

end Db

theorem ExecutionChange.closed {e e' : ExecutionRow} (h : ExecutionChange env e e')
    (hclosed : e.status.isOpen = false) : e'.scope = e.scope ∧ e'.status.isOpen = false := by
  cases h with
  | transition target hlegal =>
    have := ExecutionStatus.isOpen_of_legal hlegal
    simp_all
  | metadata m hlegal =>
    cases htarget : m.targetStatus with
    | none => simpa [ExecutionRow.fill, htarget] using hclosed
    | some target =>
      have := ExecutionStatus.isOpen_of_legal (hlegal target htarget)
      simp_all

/-- An idle run stays idle as long as no execution is created for it. -/
theorem Step.idle (h : Step may env db db')
    (hnew : ∀ status, may (.newExecution scope status) → status.isOpen = false)
    (hidle : db.Idle scope) : db'.Idle scope := by
  cases h with
  | insertExecution lease run row executions _ _ _ _ hmay _ hinsert =>
    intro e he hscope
    rcases (Table.mem_insert? hinsert).mp he with he | rfl
    · exact hidle e he hscope
    · exact hnew e.status (hscope ▸ hmay)
  | changeExecution lease run a a' _ ha _ hchange =>
    intro e he hscope
    have hne : a.keys ≠ [] := by simp [ExecutionRow.keys]
    rcases (Table.mem_replace_iff hchange.keys_eq ha hne).mp he with rfl | ⟨he, -⟩
    · have hkeys := hchange.keys_eq
      simp only [ExecutionRow.keys, List.cons.injEq, RowKey.toolCall.injEq] at hkeys
      exact (hchange.closed (hidle a ha (hkeys.2.1.1 ▸ hscope))).2
    · exact hidle e he hscope
  | _ => exact hidle

/-- A live run stays live as long as nothing may end it. -/
theorem Step.live (h : Step may env db db') (hend : ¬may (.endRun scope)) (hlive : db.Live scope) :
    db'.Live scope := by
  cases h with
  | insertRun row runs _ _ hnew _ _ hinsert =>
    intro r hr hscope
    rcases (Table.mem_insert? hinsert).mp hr with hr | rfl
    · exact hlive r hr hscope
    · exact hnew
  | changeRun a a' ha hchange hmay =>
    intro r hr hscope
    have hne : a.keys ≠ [] := by simp [RunRow.keys]
    rcases (Table.mem_replace_iff hchange.keys_eq ha hne).mp hr with rfl | ⟨hr, -⟩
    · rw [hchange.scope_eq] at hscope
      by_contra hterm
      exact hend (hscope ▸ hmay (by simpa using hterm) (hlive a ha hscope))
    · exact hlive r hr hscope
  | _ => exact hlive

/-- A run that has ended had ended before, or is ended by this step. -/
theorem Step.ended {r' : RunRow} (h : Step may env db db') (hr' : r' ∈ db'.runs.rows)
    (hterm : r'.status.isTerminal = true) :
    (∃ r ∈ db.runs.rows, r.scope = r'.scope ∧ r.status.isTerminal = true) ∨
      (may (.endRun r'.scope) ∧ db'.executions = db.executions) := by
  cases h with
  | insertRun row runs _ _ hnew _ _ hinsert =>
    rcases (Table.mem_insert? hinsert).mp hr' with hr' | rfl
    · exact .inl ⟨r', hr', rfl, hterm⟩
    · simp [hnew] at hterm
  | changeRun a a' ha hchange hmay =>
    have hne : a.keys ≠ [] := by simp [RunRow.keys]
    rcases (Table.mem_replace_iff hchange.keys_eq ha hne).mp hr' with rfl | ⟨hr', -⟩
    · by_cases hbefore : a.status.isTerminal = true
      · exact .inl ⟨a, ha, hchange.scope_eq.symm, hbefore⟩
      · exact .inr ⟨hchange.scope_eq ▸ hmay hterm (by simpa using hbefore), rfl⟩
    · exact .inl ⟨r', hr', rfl, hterm⟩
  | _ => exact .inl ⟨r', hr', rfl, hterm⟩

/-- Steps that end only idle runs, and create open executions only for live ones. -/
structure Orderly (may : Effect → Prop) (db : Db) : Prop where
  ends : ∀ scope, may (.endRun scope) → db.Idle scope
  creates : ∀ scope status, may (.newExecution scope status) → status.isOpen = true → db.Live scope

theorem Step.terminalRunsIdle (h : Step may env db db') (hmay : Orderly may db)
    (hinv : db.TerminalRunsIdle) : db'.TerminalRunsIdle := by
  intro r' hr' hterm
  rcases h.ended hr' hterm with ⟨r, hr, hscope, hbefore⟩ | ⟨hend, hsame⟩
  · rw [← hscope]
    refine h.idle ?_ (hinv r hr hbefore)
    intro status hnew
    by_contra hopen
    have hlive := hmay.creates r.scope status hnew (by simpa using hopen) r hr rfl
    simp [hbefore] at hlive
  · unfold Db.Idle
    rw [hsame]
    exact hmay.ends r'.scope hend

/-- No transaction both ends a run and creates an execution, so its effects stay orderly from its
first write to its last. -/
theorem steps_terminalRunsIdle (h : ReflTransGen (Step may env) db db')
    (hone : (∀ scope, ¬may (.endRun scope)) ∨ ∀ scope status, ¬may (.newExecution scope status))
    (hmay : Orderly may db) (hinv : db.TerminalRunsIdle) :
    Orderly may db' ∧ db'.TerminalRunsIdle := by
  induction h with
  | refl => exact ⟨hmay, hinv⟩
  | tail _ hstep ih =>
    obtain ⟨hmay, hinv⟩ := ih
    refine ⟨?_, hstep.terminalRunsIdle hmay hinv⟩
    rcases hone with hend | hnew
    · exact ⟨fun scope h => absurd h (hend scope), fun scope status h hopen =>
        hstep.live (hend scope) (hmay.creates scope status h hopen)⟩
    · exact ⟨fun scope h => hstep.idle (fun status h => absurd h (hnew scope status))
        (hmay.ends scope h), fun scope status h => absurd h (hnew scope status)⟩

theorem WorkflowOp.effects_exclusive (op : WorkflowOp) (db : Db) :
    (∀ scope, ¬op.effects db (.endRun scope)) ∨
      ∀ scope status, ¬op.effects db (.newExecution scope status) := by
  cases op <;> simp [WorkflowOp.effects]

namespace Call

/-- Every call finds tables on which its effects are orderly. -/
def OrderlyRun : Db → List Call → Prop
  | _, [] => True
  | db, call :: calls => Orderly (call.op.effects db) db ∧ OrderlyRun (call.step db) calls

end Call

/-- As long as callers end only idle runs and create executions only for live runs, a run that has
ended owns no open execution, in any state that is reached. -/
theorem terminal_runs_idle {db : Db} {calls : List Call} (hinv : db.TerminalRunsIdle)
    (horderly : Call.OrderlyRun db calls) :
    ∀ before, before <+: calls → (Call.runAll db before).TerminalRunsIdle := by
  induction calls generalizing db with
  | nil =>
    intro before hbefore
    rw [List.prefix_nil.mp hbefore]
    exact hinv
  | cons call calls ih =>
    intro before hbefore
    cases before with
    | nil => exact hinv
    | cons call' before =>
      obtain ⟨rfl, hrest⟩ := List.cons_prefix_cons.mp hbefore
      have hstep := steps_terminalRunsIdle (call'.step_writes db) (call'.op.effects_exclusive db)
        horderly.1 hinv
      exact ih hstep.2 horderly.2 before hrest

/-- A run that creates one execution, completes it, and then finishes. -/
theorem terminal_runs_idle_completed :
    let context : TenantContext :=
      { tenantId := "t", workspaceId := "w", sessionId := some "s", runId := some "r" }
    let env : Env := { settings := {}, host := .ascii, now := 0 }
    let lease : RunLease := ⟨context, "a", 1, 1, 20000⟩
    let calls : List Call :=
      [⟨env, .startRun context "a"⟩,
        ⟨env, .createExecution lease
          { executionId := "execution", approvalId := none, toolCallId := "call"
            toolName := "shell", toolKind := "execute", recoveryStrategy := .manualUncertain
            idempotencyKey := none, inputPayloadJson := "\x7b\x7d", inputHash := "" }⟩,
        ⟨env, .transitionExecution lease "execution" .notStarted 1 .executing⟩,
        ⟨env, .updateExecutionMetadata lease "execution" .executing 2
          { targetStatus := some .succeeded }⟩,
        ⟨env, .finishRun lease .completed⟩]
    ((Call.runAll .empty calls).runs.rows.map (·.status) = [.completed] ∧
      (Call.runAll .empty calls).executions.rows.map (·.status) = [.succeeded]) ∧
      (Call.runAll .empty calls).TerminalRunsIdle := by
  intro context env lease calls
  refine ⟨by decide, terminal_runs_idle (by decide) ?_ calls (List.prefix_refl _)⟩
  refine ⟨⟨by simp [WorkflowOp.effects], by simp [WorkflowOp.effects]⟩,
    ⟨by simp [WorkflowOp.effects], fun _ _ _ _ r hr hscope => ?_⟩,
    ⟨by simp [WorkflowOp.effects], by simp [WorkflowOp.effects]⟩,
    ⟨by simp [WorkflowOp.effects], by simp [WorkflowOp.effects]⟩,
    ⟨fun _ _ e he hscope => ?_, by simp [WorkflowOp.effects]⟩, trivial⟩
  · clear hscope
    revert r
    decide
  · clear hscope
    revert e
    decide

/-- A user cancels a run that waits for the approval of a tool call. -/
theorem cancelled_run_keeps_execution :
    ¬∀ (db : Db) (calls : List Call), db.TerminalRunsIdle →
      (Call.runAll db calls).TerminalRunsIdle := by
  intro hall
  let context : TenantContext :=
    { tenantId := "t", workspaceId := "w", sessionId := some "s"
      runId := some "00000000-0000-0000-0000-000000000001" }
  let env : Env := { settings := {}, host := .ascii, now := 0 }
  have := hall .empty
    [⟨env, .startRun context "a"⟩,
      ⟨env, .transitionRun ⟨context, "a", 1, 1, 20000⟩ .awaitingUser⟩,
      ⟨env, .createApproval ⟨context, "a", 1, 2, 20000⟩ "approval" "call" 120000⟩,
      ⟨env, .createExecution ⟨context, "a", 1, 2, 20000⟩
        { executionId := "execution", approvalId := some "approval", toolCallId := "call"
          toolName := "shell", toolKind := "execute", recoveryStrategy := .manualUncertain
          idempotencyKey := none, inputPayloadJson := "\x7b\x7d", inputHash := "" }⟩,
      ⟨env, .requestCancellation context "checkpoint"⟩]
    (by decide)
  revert this
  decide +kernel

end MultiClaw
