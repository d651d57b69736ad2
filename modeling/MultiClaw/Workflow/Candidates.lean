import MultiClaw.Base.Lists
import MultiClaw.Storage.Defaults
import MultiClaw.Workflow.System

/-! Which runs one pass of the recovery worker picks up. -/
namespace MultiClaw

open Base

variable {db : Db} {now : Nat} {r r' : RunRow}

/-- The columns by which candidates are ordered. -/
def RunScope.key (s : RunScope) : String ×ₗ String ×ₗ String ×ₗ String :=
  toLex (s.tenantId, toLex (s.workspaceId, toLex (s.sessionId, s.runId)))

namespace Db

/-- Some approval of the run is no longer waiting for its user. -/
def hasResolvedApproval (db : Db) (scope : RunScope) : Bool :=
  db.approvals.any fun a =>
    a.scope == scope && (a.status == .approved || a.status == .expired || a.status == .rejected)

def isJobRun (db : Db) (scope : RunScope) : Bool :=
  db.jobs.any fun j =>
    j.tenantId == scope.tenantId && j.workspaceId == scope.workspaceId &&
      j.child == some ⟨scope.sessionId, scope.runId⟩

/-- The where-clause of the candidate query. -/
def isCandidate (db : Db) (now : Nat) (r : RunRow) : Bool :=
  !db.isJobRun r.scope &&
    ((r.status == .awaitingUser && db.hasResolvedApproval r.scope) ||
      ((r.status == .running || r.status == .awaitingUser || r.status == .resuming) &&
        r.leaseExpiresAt.any (· ≤ now)))

end Db

structure RecoveryCandidate where
  scope : RunScope
  awaitingResolution : Bool
  deriving DecidableEq, Repr

namespace WorkflowRecoveryWorker

/-- The first `batchSize` candidates, in the order of their ids. -/
def loadCandidates (db : Db) (now batchSize : Nat) : List RecoveryCandidate :=
  (((db.runs.filter (db.isCandidate now)).insertionSort fun a b =>
    a.scope.key ≤ b.scope.key).take batchSize).map fun r =>
      ⟨r.scope, db.hasResolvedApproval r.scope⟩

end WorkflowRecoveryWorker

/-- A run on which recovery can make progress: its process is gone, or its user has answered. -/
def Db.IsActionable (db : Db) (now : Nat) (r : RunRow) : Prop :=
  ((r.status = .running ∨ r.status = .resuming) ∧ r.leaseExpiresAt.any (· ≤ now) = true) ∨
    (r.status = .awaitingUser ∧ db.hasResolvedApproval r.scope = true)

instance : DecidablePred (db.IsActionable now) := fun _ =>
  inferInstanceAs (Decidable (_ ∨ _))

/-- A candidate that only waits for its user. -/
def Db.onlyWaits (db : Db) (now : Nat) (r : RunRow) : Bool :=
  db.isCandidate now r && !decide (db.IsActionable now r)

theorem isCandidate_of_isActionable (h : db.IsActionable now r)
    (hjob : db.isJobRun r.scope = false) : db.isCandidate now r = true := by
  obtain ⟨hstatus | hstatus, hexpired⟩ | ⟨hstatus, hresolved⟩ := h
  · simp [Db.isCandidate, hjob, hstatus, hexpired]
  · simp [Db.isCandidate, hjob, hstatus, hexpired]
  · simp [Db.isCandidate, hjob, hstatus, hresolved]

theorem RunScope.key_injective : Function.Injective RunScope.key := by
  rintro ⟨t, w, s, u⟩ ⟨t', w', s', u'⟩ h
  simpa [RunScope.key] using h

/-- The candidates in the order of the query have strictly increasing keys. -/
theorem candidates_sorted (db : Db) (p : RunRow → Bool) :
    ((db.runs.filter p).insertionSort fun a b => a.scope.key ≤ b.scope.key).Pairwise
      fun a b => a.scope.key < b.scope.key := by
  have hle := List.pairwise_insertionSort (fun a b : RunRow => a.scope.key ≤ b.scope.key)
    (db.runs.filter p)
  have hne : (db.runs.filter p).Pairwise fun a b => a.scope.key ≠ b.scope.key := by
    refine (db.runs.unique.filter p).imp fun {a b} hdisjoint he => ?_
    exact hdisjoint (a := a.scope.runId) (by simp [RunRow.keys])
      (by simp [RunRow.keys, RunScope.key_injective he])
  have hne' := (List.perm_insertionSort (fun a b : RunRow => a.scope.key ≤ b.scope.key)
    (db.runs.filter p)).symm.pairwise hne (fun h => h.symm)
  exact (hle.and hne').imp fun h => lt_of_le_of_ne h.1 h.2

/-- One pass picks up an actionable run if and only if there is one, not bound to a job, that fewer
than `batchSize` candidates that only wait for their user precede in the order of ids. -/
theorem actionable_run_loaded_iff (db : Db) (now batchSize : Nat) :
    (∃ c ∈ WorkflowRecoveryWorker.loadCandidates db now batchSize,
        ∃ r ∈ db.runs.rows, r.scope = c.scope ∧ db.IsActionable now r) ↔
      ∃ r ∈ db.runs.rows, db.IsActionable now r ∧ db.isJobRun r.scope = false ∧
        (db.runs.count fun w => db.onlyWaits now w && decide (w.scope.key < r.scope.key)) <
          batchSize := by
  let candidates := (db.runs.filter (db.isCandidate now)).insertionSort fun a b =>
    a.scope.key ≤ b.scope.key
  have hmem : ∀ r, r ∈ candidates ↔ r ∈ db.runs.rows ∧ db.isCandidate now r = true := by
    intro r
    rw [List.mem_insertionSort]
    exact List.mem_filter
  have hcount : ∀ r : RunRow,
      candidates.countP (fun w => !decide (db.IsActionable now w) &&
        decide (w.scope.key < r.scope.key)) =
      db.runs.count fun w => db.onlyWaits now w && decide (w.scope.key < r.scope.key) := by
    intro r
    rw [(List.perm_insertionSort _ _).countP_eq]
    unfold Table.count Table.filter
    rw [List.countP_filter]
    refine List.countP_congr fun w _ => ?_
    simp only [Db.onlyWaits, Bool.and_eq_true]
    tauto
  have hkey := exists_mem_take_iff (p := fun r => decide (db.IsActionable now r)) (n := batchSize)
    (candidates_sorted db (db.isCandidate now))
  calc
    _ ↔ ∃ r ∈ candidates.take batchSize, decide (db.IsActionable now r) = true := by
      constructor
      · rintro ⟨c, hc, r, hr, hscope, hact⟩
        obtain ⟨r', hr', rfl⟩ := List.mem_map.mp hc
        have hr'' := ((hmem r').mp (List.mem_of_mem_take hr')).1
        have heq : r = r' := run_eq_of_scope hr hr'' (congrArg RunScope.runId hscope)
        exact ⟨r', hr', by simpa [heq] using hact⟩
      · rintro ⟨r, hr, hact⟩
        exact ⟨_, List.mem_map.mpr ⟨r, hr, rfl⟩, r, ((hmem r).mp (List.mem_of_mem_take hr)).1, rfl,
          by simpa using hact⟩
    _ ↔ _ := hkey
    _ ↔ _ := by
      refine exists_congr fun r => ?_
      rw [hcount, hmem, decide_eq_true_eq]
      constructor
      · rintro ⟨⟨hr, hcand⟩, hact, hfew⟩
        exact ⟨hr, hact, by simpa [Db.isCandidate] using (Bool.and_eq_true_iff.mp hcand).1, hfew⟩
      · rintro ⟨hr, hact, hjob, hfew⟩
        exact ⟨⟨hr, isCandidate_of_isActionable hact hjob⟩, hact, hfew⟩

theorem strandedCalls_tenantId_ne : "t" ≠ "" := by decide

theorem strandedCalls_workspaceId_ne : "w" ≠ "" := by decide

/-- Two runs of a tenant: `a` waits for its user, `b` works, and then their process dies. -/
def strandedCalls : List Call :=
  let env : Env :=
    { settings := .standard, host := .ascii, now := 1000, now_lt := Env.thousand_lt }
  let context (runId : String) : TenantContext :=
    { tenantId := "t", workspaceId := "w", sessionId := some "s", runId := some runId
      tenantId_ne := strandedCalls_tenantId_ne, workspaceId_ne := strandedCalls_workspaceId_ne
      sessionId_ne := fun _ => by decide }
  [⟨env, .startRun (context "a") "p"⟩,
    ⟨env, .transitionRun ⟨context "a", "p", 1, 1, 21000⟩ .awaitingUser⟩,
    ⟨env, .startRun (context "b") "p"⟩]

theorem waiting_run_starves_working_run :
    ¬∀ (db : Db) (now batchSize : Nat), 1 ≤ batchSize →
      (∃ r ∈ db.runs.rows, db.IsActionable now r) →
      ∃ c ∈ WorkflowRecoveryWorker.loadCandidates db now batchSize,
        ∃ r ∈ db.runs.rows, r.scope = c.scope ∧ db.IsActionable now r := by
  intro h
  have hloaded := h (Call.runAll .empty strandedCalls) 30000 1 le_rfl (by decide +kernel)
  revert hloaded
  decide +kernel

end MultiClaw
