import MultiClaw.Deletion.Moves

/-! Runs that have ended stay as they ended, whatever else is written. -/
namespace MultiClaw

open Base Transaction Relation DeletionRepository

variable {env : Env} {db db' : Db} {r r' : RunRow} {may : Effect → Prop} {s s' : ServerState}
  {e : ServerEvent}

/-- The runs with an end time are those that have ended. -/
def Db.Stamped (db : Db) : Prop := ∀ r ∈ db.runs.rows, r.finishedAt.isSome = r.status.isTerminal

/-- The run of the row is stored, with the status and the end time of the row. -/
def Db.EndedAs (db : Db) (r : RunRow) : Prop :=
  ∃ r' ∈ db.runs.rows, r'.scope = r.scope ∧ r'.status = r.status ∧ r'.finishedAt = r.finishedAt

/-! Rows -/

/-- A lease on a run that has ended can still be renewed, but that writes neither the status nor
the end time. -/
theorem RunChange.final (h : RunChange env r r') (hended : r.status.isTerminal = true) :
    r'.status = r.status ∧ r'.finishedAt = r.finishedAt := by
  cases h with
  | takeOver _ hlive => simp [hended] at hlive
  | cancelRequest hlive => simp [hended] at hlive
  | refresh => exact ⟨rfl, rfl⟩
  | transition target hlegal =>
    rw [RunStatus.legalTargets_of_isTerminal hended] at hlegal
    cases hlegal
  | resume _ hwait => simp [hwait, RunStatus.isTerminal] at hended
  | resumePlan _ _ hwait => simp [hwait, RunStatus.isTerminal] at hended
  | fence _ hwait => simp [hwait, RunStatus.isTerminal] at hended
  | cancelWaiting _ hwait => simp [hwait, RunStatus.isTerminal] at hended

theorem RunChange.stamped (h : RunChange env r r')
    (hr : r.finishedAt.isSome = r.status.isTerminal) :
    r'.finishedAt.isSome = r'.status.isTerminal := by
  cases h with
  | takeOver => exact hr
  | fence => exact hr
  | refresh => exact hr
  | resume _ hwait =>
    rw [hwait] at hr
    exact hr
  | resumePlan _ _ hwait =>
    rw [hwait] at hr
    exact hr
  | cancelWaiting => rfl
  | cancelRequest =>
    unfold RunRow.cancelRequest
    split
    · rfl
    · exact hr
  | transition target hlegal =>
    have hlive : r.status.isTerminal = false := by
      by_contra hended
      rw [RunStatus.legalTargets_of_isTerminal (Bool.not_eq_false _ ▸ hended)] at hlegal
      cases hlegal
    cases htarget : target.isTerminal <;> simp [RunRow.moveTo, htarget, hr, hlive]

/-! Tables -/

/-- A change after which end times are still in place, and no run that has ended is lost or
altered. -/
structure Db.Advances (db db' : Db) : Prop where
  stamped : db.Stamped → db'.Stamped
  endedAs : ∀ r : RunRow, r.status.isTerminal = true → db.EndedAs r → db'.EndedAs r

namespace Db.Advances

theorem of_runs_eq (h : db'.runs = db.runs) : db.Advances db' where
  stamped hs := by
    unfold Stamped
    rw [h]
    exact hs
  endedAs r _ hr := by
    unfold EndedAs
    rw [h]
    exact hr

theorem trans {db'' : Db} (h : db.Advances db') (h' : db'.Advances db'') : db.Advances db'' :=
  ⟨fun hs => h'.stamped (h.stamped hs),
    fun r hended hr => h'.endedAs r hended (h.endedAs r hended hr)⟩

end Db.Advances

theorem Step.advances (h : Step may env db db') : db.Advances db' := by
  cases h with
  | insertRun row runs _ _ hlive hfinished _ hinsert =>
    constructor
    · intro hs r hr
      rcases (Table.mem_insert? hinsert).mp hr with hr | rfl
      · exact hs r hr
      · rw [hfinished, hlive]
        rfl
    · rintro r - ⟨a, ha, hsame⟩
      exact ⟨a, (Table.mem_insert? hinsert).mpr (.inl ha), hsame⟩
  | changeRun b b' hb hchange =>
    have hne : b.keys ≠ [] := by simp [RunRow.keys]
    have hmem := fun a => Table.mem_replace_iff (a := a) hchange.keys_eq hb hne
    constructor
    · intro hs r hr
      rcases (hmem r).mp hr with rfl | ⟨hr, -⟩
      · exact hchange.stamped (hs b hb)
      · exact hs r hr
    · rintro r hended ⟨a, ha, hscope, hstatus, hfinished⟩
      by_cases hab : a = b
      · subst hab
        obtain ⟨hstatus', hfinished'⟩ := hchange.final (hstatus ▸ hended)
        exact ⟨b', (hmem b').mpr (.inl rfl), hchange.scope_eq.trans hscope,
          hstatus'.trans hstatus, hfinished'.trans hfinished⟩
      · exact ⟨a, (hmem a).mpr (.inr ⟨ha, hab⟩), hscope, hstatus, hfinished⟩
  | _ => exact .of_runs_eq rfl

theorem Call.step_advances (db : Db) (call : Call) : db.Advances (call.step db) := by
  have hsteps := call.step_writes db
  generalize call.step db = db' at hsteps
  induction hsteps with
  | refl => exact .of_runs_eq rfl
  | tail _ hstep ih => exact ih.trans hstep.advances

theorem expireWork_advances (tenantId : String) : db.Advances (expireWork tenantId env db) := by
  have hmem : ∀ a, a ∈ (expireWork tenantId env db).runs.rows ↔ _ := fun a =>
    @Table.mem_update _ _ _ _ _ a _ (RunRow.expireWaiting_keys env.now)
  constructor
  · intro hs r hr
    obtain ⟨a, ha, heq⟩ := (hmem r).mp hr
    subst heq
    split
    · rfl
    · exact hs a ha
  · rintro r hended ⟨a, ha, hsame⟩
    refine ⟨a, (hmem a).mpr ⟨a, ha, if_neg fun hwait => ?_⟩, hsame⟩
    simp only [Bool.and_eq_true, beq_iff_eq] at hwait
    rw [← hsame.2.1, hwait.1.2] at hended
    cases hended

/-- Rows that are left after a deletion are as they were. -/
theorem stamped_of_delete {p : RunRow → Bool} (h : db'.runs = db.runs.delete p) (hs : db.Stamped) :
    db'.Stamped := by
  intro r hr
  rw [h] at hr
  exact hs r (Table.mem_delete.mp hr).1

theorem endedAs_of_delete {p : RunRow → Bool} (h : db'.runs = db.runs.delete p)
    (hkept : db'.runs.any (·.scope == r.scope) = true) (hr : db.EndedAs r) : db'.EndedAs r := by
  obtain ⟨a, ha, hsame⟩ := hr
  obtain ⟨b, hb, hscope⟩ := List.any_eq_true.mp hkept
  have hmem : b ∈ db.runs.rows := by
    rw [h] at hb
    exact (Table.mem_delete.mp hb).1
  -- A run has one row.
  have hab : a = b := Table.eq_of_shared_key ha hmem (k := r.scope.runId)
    (by simp [RunRow.keys, hsame.1]) (by simp [RunRow.keys, beq_iff_eq.mp hscope])
  exact ⟨b, hb, hab ▸ hsame⟩

/-! The server -/

/-- An event leaves the tables alone, makes a call, expires the work of an account that waits, or
deletes an account. -/
theorem Moves.db_cases (h : Moves s e s') :
    s'.accounts.db = s.accounts.db ∨ (∃ call, s'.accounts.db = Call.step s.accounts.db call) ∨
    (∃ env tenantId, s'.accounts.db = expireWork tenantId env s.accounts.db) ∨
    ∃ tenantId, s'.accounts.db = purgeWork tenantId s.accounts.db := by
  cases h with
  | still _ _ hdb =>
    rcases hdb with hsame | ⟨call, -, hcall⟩
    · exact .inl hsame
    · exact .inr (.inl ⟨call, hcall⟩)
  | register user _ _ _ hdb => exact .inl hdb
  | request env user jobId purgeAfter hdrawn hscheduled =>
    exact .inr (.inr (.inl ⟨env, user.id, hscheduled.db_eq⟩))
  | recover env user job hrestored => exact .inl hrestored.db_eq
  | claim env workerId j hnow hj hdue haccounts => exact .inl (by rw [haccounts])
  | rewrite workerId job j j' hheld hj hheldBy hk htenant hstatus hworkerId htoken hpurgeAfter
      haccounts =>
    exact .inl (by rw [haccounts])
  | remove workerId job hheld haccounts => exact .inl (by rw [haccounts])
  | purge workerId user job j hevent hphase huser hid hpending hj hheldBy haccounts =>
    exact .inr (.inr (.inr ⟨j.tenantId, congrArg Accounts.db haccounts⟩))

/-- An event advances the tables or deletes the runs of an account. -/
theorem Moves.advances (h : Moves s e s') : s.accounts.db.Advances s'.accounts.db ∨
    ∃ p, s'.accounts.db.runs = s.accounts.db.runs.delete p := by
  rcases h.db_cases with hdb | ⟨call, hdb⟩ | ⟨env, tenantId, hdb⟩ | ⟨tenantId, hdb⟩ <;> rw [hdb]
  · exact .inl (.of_runs_eq rfl)
  · exact .inl (call.step_advances _)
  · exact .inl (expireWork_advances tenantId)
  · exact .inr ⟨_, rfl⟩

/-- What happens to the tables: an event of the server, a write to other tables than that of the
runs (by the planner, the memory or the collaboration service), and the deletion of the runs of a
session, which `SessionRepository.delete` repeats for each child session. -/
inductive StoreMove where
  | event (event : ServerEvent)
  | elsewhere (write : Db → Db) (hruns : ∀ db, (write db).runs = db.runs)
  | deleteSession (tenantId workspaceId sessionId : String)

namespace ServerState

def writeDb (s : ServerState) (db : Db) : ServerState :=
  { s with accounts := { s.accounts with db } }

def apply (s : ServerState) : StoreMove → ServerState
  | .event event => s.step event
  | .elsewhere write _ => s.writeDb (write s.accounts.db)
  | .deleteSession tenantId workspaceId sessionId =>
    s.writeDb { s.accounts.db with
      runs := s.accounts.db.runs.delete fun r => r.scope.tenantId == tenantId &&
        r.scope.workspaceId == workspaceId && r.scope.sessionId == sessionId }

def runMoves (s : ServerState) (moves : List StoreMove) : ServerState := moves.foldl apply s

/-- No move of the sequence deletes the run. -/
def keeps (scope : RunScope) : ServerState → List StoreMove → Bool
  | _, [] => true
  | s, move :: moves => (s.apply move).accounts.db.runs.any (·.scope == scope) &&
      (s.apply move).keeps scope moves

variable (hc : s.accounts.Consistent)
include hc

theorem apply_consistent (move : StoreMove) : (s.apply move).accounts.Consistent := by
  cases move with
  | event e => exact (Moves.of_step hc e).consistent hc
  | elsewhere => exact ⟨hc.oneJob, hc.pending⟩
  | deleteSession => exact ⟨hc.oneJob, hc.pending⟩

theorem apply_advances (move : StoreMove) :
    s.accounts.db.Advances (s.apply move).accounts.db ∨
      ∃ p, (s.apply move).accounts.db.runs = s.accounts.db.runs.delete p := by
  cases move with
  | event e => exact (Moves.of_step hc e).advances
  | elsewhere write hruns => exact .inl (.of_runs_eq (hruns _))
  | deleteSession => exact .inr ⟨_, rfl⟩

theorem runMoves_stamped (hs : s.accounts.db.Stamped) (moves : List StoreMove) :
    (s.runMoves moves).accounts.db.Stamped ∧ (s.runMoves moves).accounts.Consistent := by
  induction moves generalizing s with
  | nil => exact ⟨hs, hc⟩
  | cons move moves ih =>
    refine ih (apply_consistent hc move) ?_
    rcases apply_advances hc move with hadvances | ⟨p, hdelete⟩
    · exact hadvances.stamped hs
    · exact stamped_of_delete hdelete hs

theorem runMoves_endedAs (hended : r.status.isTerminal = true) (hr : s.accounts.db.EndedAs r)
    {moves : List StoreMove} (hkeeps : s.keeps r.scope moves = true) :
    (s.runMoves moves).accounts.db.EndedAs r := by
  induction moves generalizing s with
  | nil => exact hr
  | cons move moves ih =>
    obtain ⟨hkept, hrest⟩ := Bool.and_eq_true_iff.mp hkeeps
    refine ih (apply_consistent hc move) ?_ hrest
    rcases apply_advances hc move with hadvances | ⟨p, hdelete⟩
    · exact hadvances.endedAs r hended hr
    · exact endedAs_of_delete hdelete hkept hr

end ServerState

/-- In every state that is reached, the runs with an end time are those that have ended, and a run
that has ended keeps its status and its end time for as long as its row is stored. -/
theorem terminal_runs_final (maxQueue : Nat) (moves : List StoreMove) :
    ∀ r ∈ ((ServerState.initial maxQueue).runMoves moves).accounts.db.runs.rows,
      (r.finishedAt.isSome = true ↔ r.status.isTerminal = true) ∧
      (r.status.isTerminal = true → ∀ later : List StoreMove,
        ((ServerState.initial maxQueue).runMoves moves).keeps r.scope later = true →
        ∃ r' ∈ (((ServerState.initial maxQueue).runMoves moves).runMoves
          later).accounts.db.runs.rows,
          r'.scope = r.scope ∧ r'.status = r.status ∧ r'.finishedAt = r.finishedAt) := by
  intro r hr
  have hempty : (ServerState.initial maxQueue).accounts.db.Stamped := fun _ h =>
    absurd h List.not_mem_nil
  obtain ⟨hstamped, hc⟩ := ServerState.runMoves_stamped (consistent_initial maxQueue) hempty moves
  refine ⟨by rw [hstamped r hr], fun hended later hkeeps => ?_⟩
  exact ServerState.runMoves_endedAs hc hended ⟨r, hr, rfl, rfl, rfl⟩ hkeeps

/-- A run is completed, and then its lease is renewed once more. -/
theorem terminal_runs_final_renewed :
    let context : TenantContext :=
      { tenantId := "t", workspaceId := "w", sessionId := some "s", runId := some "r" }
    let env : Env := { settings := {}, host := .ascii, now := 0 }
    let start : List StoreMove :=
      [.event (.workflow ⟨env, .startRun context "a"⟩),
        .event (.workflow ⟨env, .finishRun ⟨context, "a", 1, 1, 20000⟩ .completed⟩)]
    let renewal : List StoreMove :=
      [.event (.workflow ⟨{ settings := {}, host := .ascii, now := 1000 },
        .heartbeat ⟨context, "a", 1, 2, 20000⟩⟩)]
    (((ServerState.initial 1).runMoves start).runMoves renewal).accounts.db.runs.rows.map
      (·.version) = [3] ∧
      ∃ r ∈ ((ServerState.initial 1).runMoves start).accounts.db.runs.rows,
        r.status = .completed ∧ r.finishedAt.isSome = true ∧
        ∃ r' ∈ (((ServerState.initial 1).runMoves start).runMoves renewal).accounts.db.runs.rows,
          r'.scope = r.scope ∧ r'.status = r.status ∧ r'.finishedAt = r.finishedAt := by
  intro context env start renewal
  refine ⟨by decide +kernel, ?_⟩
  have hstored : ((ServerState.initial 1).runMoves start).accounts.db.runs.rows.any (fun r =>
      r.status == .completed &&
        ((ServerState.initial 1).runMoves start).keeps r.scope renewal) = true := by
    decide +kernel
  obtain ⟨r, hr, hcheck⟩ := List.any_eq_true.mp hstored
  obtain ⟨hstatus, hkeeps⟩ := Bool.and_eq_true_iff.mp hcheck
  have hcompleted : r.status = .completed := beq_iff_eq.mp hstatus
  have hended : r.status.isTerminal = true := by rw [hcompleted]; rfl
  obtain ⟨hstamped, hfinal⟩ := terminal_runs_final 1 start r hr
  exact ⟨r, hr, hcompleted, hstamped.mpr hended, hfinal hended renewal hkeeps⟩

end MultiClaw
