import MultiClaw.Deletion.FinishedRuns

/-! Approvals that are no longer waited for stay as they are, and users decide in time. -/
namespace MultiClaw

open Base Transaction Relation DeletionRepository

variable {env : Env} {db db' : Db} {a a' : ApprovalRow} {may : Effect → Prop}
  {s s' : ServerState} {e : ServerEvent}

/-- What users decided, they decided before the approval expired. -/
def Db.DecidedInTime (db : Db) : Prop :=
  ∀ a ∈ db.approvals.rows, a.status = .approved ∨ a.status = .rejected →
    a.resolvedAt.any (· < a.expiresAt) = true

theorem ApprovalChange.inTime (h : ApprovalChange env a a')
    (hdecided : a'.status = .approved ∨ a'.status = .rejected) :
    a'.resolvedAt.any (· < a'.expiresAt) = true := by
  cases h with
  | resolve approved hwait hopen => exact decide_eq_true hopen
  | expire => simp [ApprovalRow.close] at hdecided

theorem ApprovalChange.waiting (h : ApprovalChange env a a') : a.status = .awaitingUser := by
  cases h with
  | resolve _ hwait => exact hwait
  | expire hwait => exact hwait

/-- A change after which decisions are still in time, and approvals that were closed are as they
were. -/
structure Db.KeepsDecisions (db db' : Db) : Prop where
  inTime : db.DecidedInTime → db'.DecidedInTime
  closed : ∀ a ∈ db.approvals.rows, a.status ≠ .awaitingUser → a ∈ db'.approvals.rows

namespace Db.KeepsDecisions

theorem of_approvals_eq (h : db'.approvals = db.approvals) : db.KeepsDecisions db' where
  inTime hd := by
    unfold DecidedInTime
    rw [h]
    exact hd
  closed a ha _ := by
    rw [h]
    exact ha

theorem trans {db'' : Db} (h : db.KeepsDecisions db') (h' : db'.KeepsDecisions db'') :
    db.KeepsDecisions db'' :=
  ⟨fun hd => h'.inTime (h.inTime hd),
    fun a ha hclosed => h'.closed a (h.closed a ha hclosed) hclosed⟩

end Db.KeepsDecisions

theorem Step.keepsDecisions (h : Step may env db db') : db.KeepsDecisions db' := by
  cases h with
  | insertApproval lease run row approvals _ _ hwait hinsert =>
    constructor
    · intro hd a ha hdecided
      rcases (Table.mem_insert? hinsert).mp ha with ha | rfl
      · exact hd a ha hdecided
      · simp [hwait] at hdecided
    · intro a ha _
      exact (Table.mem_insert? hinsert).mpr (.inl ha)
  | changeApproval b b' hb hchange =>
    have hne : b.keys ≠ [] := by simp [ApprovalRow.keys]
    have hmem := fun a => Table.mem_replace_iff (a := a) hchange.keys_eq hb hne
    constructor
    · intro hd a ha hdecided
      rcases (hmem a).mp ha with rfl | ⟨ha, -⟩
      · exact hchange.inTime hdecided
      · exact hd a ha hdecided
    · intro a ha hclosed
      refine (hmem a).mpr (.inr ⟨ha, ?_⟩)
      rintro rfl
      exact hclosed hchange.waiting
  | _ => exact .of_approvals_eq rfl

theorem Call.keepsDecisions (db : Db) (call : Call) : db.KeepsDecisions (call.step db) := by
  have hsteps := call.step_writes db
  generalize call.step db = db' at hsteps
  induction hsteps with
  | refl => exact .of_approvals_eq rfl
  | tail _ hstep ih => exact ih.trans hstep.keepsDecisions

/-- The deletion of an account expires the approvals that wait, in time or not. -/
theorem expireWork_keepsDecisions (tenantId : String) :
    db.KeepsDecisions (expireWork tenantId env db) := by
  have hmem : ∀ a, a ∈ (expireWork tenantId env db).approvals.rows ↔ _ := fun a =>
    @Table.mem_update _ _ _ _ _ a _ fun b => b.close_keys env .expired
  constructor
  · intro hd a ha hdecided
    obtain ⟨b, hb, heq⟩ := (hmem a).mp ha
    subst heq
    split at hdecided
    · simp [ApprovalRow.close] at hdecided
    · rename_i hsel
      rw [if_neg hsel]
      exact hd b hb hdecided
  · intro a ha hclosed
    refine (hmem a).mpr ⟨a, ha, if_neg fun hsel => hclosed ?_⟩
    simp only [Bool.and_eq_true, beq_iff_eq] at hsel
    exact hsel.2

/-- An event keeps the decisions or deletes the approvals of an account. -/
theorem Moves.keepsDecisions (h : Moves s e s') :
    s.accounts.db.KeepsDecisions s'.accounts.db ∨
      ∃ p, s'.accounts.db.approvals = s.accounts.db.approvals.delete p := by
  rcases h.db_cases with hdb | ⟨call, hdb⟩ | ⟨env, tenantId, hdb⟩ | ⟨tenantId, hdb⟩ <;> rw [hdb]
  · exact .inl (.of_approvals_eq rfl)
  · exact .inl (call.keepsDecisions _)
  · exact .inl (expireWork_keepsDecisions tenantId)
  · exact .inr ⟨_, rfl⟩

namespace ServerState

/-- No event of the sequence deletes the approval. -/
def keepsApproval (approvalId : String) : ServerState → List ServerEvent → Bool
  | _, [] => true
  | s, e :: events => (s.step e).accounts.db.approvals.any (·.approvalId == approvalId) &&
      (s.step e).keepsApproval approvalId events

variable (hc : s.accounts.Consistent)
include hc

theorem run_decidedInTime (hd : s.accounts.db.DecidedInTime) (events : List ServerEvent) :
    (s.run events).accounts.db.DecidedInTime := by
  induction events generalizing s with
  | nil => exact hd
  | cons e events ih =>
    have hmoves := Moves.of_step hc e
    refine ih (hmoves.consistent hc) ?_
    rcases hmoves.keepsDecisions with hkeeps | ⟨p, hdelete⟩
    · exact hkeeps.inTime hd
    · intro a ha
      rw [hdelete] at ha
      exact hd a (Table.mem_delete.mp ha).1

theorem run_closed (hclosed : a.status ≠ .awaitingUser) (ha : a ∈ s.accounts.db.approvals.rows)
    {events : List ServerEvent} (hkept : s.keepsApproval a.approvalId events = true) :
    a ∈ (s.run events).accounts.db.approvals.rows := by
  induction events generalizing s with
  | nil => exact ha
  | cons e events ih =>
    obtain ⟨hstored, hrest⟩ := Bool.and_eq_true_iff.mp hkept
    have hmoves := Moves.of_step hc e
    refine ih (hmoves.consistent hc) ?_ hrest
    rcases hmoves.keepsDecisions with hkeeps | ⟨p, hdelete⟩
    · exact hkeeps.closed a ha hclosed
    · -- The approval that is left under the id is the one that was there.
      obtain ⟨b, hb, hid⟩ := List.any_eq_true.mp hstored
      have hmem : b ∈ s.accounts.db.approvals.rows := by
        rw [hdelete] at hb
        exact (Table.mem_delete.mp hb).1
      have hab : a = b := Table.eq_of_shared_key ha hmem (k := .id a.approvalId)
        (by simp [ApprovalRow.keys]) (by simp [ApprovalRow.keys, beq_iff_eq.mp hid])
      exact hab ▸ hb

end ServerState

/-- In every state that the server reaches, approvals that were granted or refused were so before
they expired, and an approval that is no longer waited for is never written again. -/
theorem decided_approvals_final (maxQueue : Nat) (events : List ServerEvent) :
    ∀ a ∈ ((ServerState.initial maxQueue).run events).accounts.db.approvals.rows,
      (a.status = .approved ∨ a.status = .rejected →
        a.resolvedAt.any (· < a.expiresAt) = true) ∧
      (a.status ≠ .awaitingUser → ∀ later : List ServerEvent,
        ((ServerState.initial maxQueue).run events).keepsApproval a.approvalId later = true →
        a ∈ (((ServerState.initial maxQueue).run events).run
          later).accounts.db.approvals.rows) := by
  intro a ha
  have hempty : (ServerState.initial maxQueue).accounts.db.DecidedInTime := fun _ h =>
    absurd h List.not_mem_nil
  have hc := consistent_initial maxQueue
  refine ⟨ServerState.run_decidedInTime hc hempty events a ha, fun hclosed later hkept => ?_⟩
  exact ServerState.run_closed (consistent_run hc events) hclosed ha hkept

/-- A tool call is approved, and then somebody else refuses it. -/
theorem decided_approvals_final_refused :
    let context : TenantContext :=
      { tenantId := "t", workspaceId := "w", sessionId := some "s", runId := some "r" }
    let env : Env := { settings := {}, host := .ascii, now := 0 }
    let approval : List ServerEvent :=
      [.workflow ⟨env, .startRun context "a"⟩,
        .workflow ⟨env, .createApproval ⟨context, "a", 1, 1, 20000⟩ "approval" "call" 5000⟩,
        .workflow ⟨env, .decideApproval context "approval" true 1⟩]
    let refusal : List ServerEvent := [.workflow ⟨env, .decideApproval context "approval" false 2⟩]
    ∃ a ∈ ((ServerState.initial 1).run approval).accounts.db.approvals.rows,
      a.status = .approved ∧ a.resolvedAt.any (· < a.expiresAt) = true ∧
      a ∈ (((ServerState.initial 1).run approval).run refusal).accounts.db.approvals.rows := by
  intro context env approval refusal
  have hstored : ((ServerState.initial 1).run approval).accounts.db.approvals.rows.any (fun a =>
      a.status == .approved &&
        ((ServerState.initial 1).run approval).keepsApproval a.approvalId refusal) = true := by
    decide +kernel
  obtain ⟨a, ha, hcheck⟩ := List.any_eq_true.mp hstored
  obtain ⟨hstatus, hkept⟩ := Bool.and_eq_true_iff.mp hcheck
  have happroved : a.status = .approved := beq_iff_eq.mp hstatus
  obtain ⟨hinTime, hfinal⟩ := decided_approvals_final 1 approval a ha
  exact ⟨a, ha, happroved, hinTime (.inl happroved),
    hfinal (by simp [happroved]) refusal hkept⟩

end MultiClaw
