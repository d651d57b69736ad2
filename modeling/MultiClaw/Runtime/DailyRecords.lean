import MultiClaw.Runtime.Inference

/-! The usage of a day as concurrent transactions record it, statement by statement. -/
namespace MultiClaw

/-- How the transactions of a database keep apart: a select of MySQL reads what is committed, and
SQLite lets one writer begin at a time. -/
inductive RecordIsolation where
  | readCommitted
  | serialized
  deriving DecidableEq

/-- Where the transaction of a record stands. It adds an amount to the total that it has read. -/
inductive RecordStage where
  | idle
  | began (amount : Nat)
  | selected (amount total : Nat)
  /-- The update has found no row. -/
  | inserting (amount total : Nat)
  /-- The insert has met a row. -/
  | retrying (amount total : Nat)
  /-- The row has the new total, and is locked. -/
  | written (amount total : Nat)
  deriving DecidableEq

namespace RecordStage

def isWritten : RecordStage → Bool
  | written .. => true
  | _ => false

/-- The total that was read and is not written yet. -/
def read? : RecordStage → Option Nat
  | selected _ total | inserting _ total | retrying _ total => some total
  | _ => none

end RecordStage

/-- The total that is stored for the day, if there is a row, the transactions, and the amounts that
were committed. -/
structure DailyRecords (n : Nat) where
  stored : Option Nat := none
  stage : Fin n → RecordStage := fun _ => .idle
  committed : List Nat := []

inductive RecordMove where
  | beginWrite (usage : ReportedUsage) (inputEstimate outputEstimate : Nat)
  | select
  | update
  | insert
  | commit
  | rollback
  deriving DecidableEq

namespace DailyRecords

variable {n : Nat}

/-- No other transaction has locked the row. -/
def RowFree (s : DailyRecords n) (i : Fin n) : Prop :=
  ∀ j, j ≠ i → (s.stage j).isWritten = false

instance (s : DailyRecords n) (i : Fin n) : Decidable (s.RowFree i) :=
  inferInstanceAs (Decidable (∀ _, _))

def moveTo (s : DailyRecords n) (i : Fin n) (stage : RecordStage) : DailyRecords n :=
  { s with stage := Function.update s.stage i stage }

/-- One statement of `_record`. An update or insert waits for the lock of the row. -/
def move? (isolation : RecordIsolation) (s : DailyRecords n) (i : Fin n) (move : RecordMove) :
    Option (DailyRecords n) :=
  match s.stage i, move with
  | .idle, .beginWrite usage inputEstimate outputEstimate =>
    if isolation = .serialized ∧ ∃ j, s.stage j ≠ .idle then none
    else some (s.moveTo i (.began (usage.tokens inputEstimate outputEstimate)))
  | .began amount, .select => some (s.moveTo i (.selected amount (s.stored.getD 0)))
  | .selected amount total, .update =>
    if s.RowFree i then
      some (s.moveTo i (if s.stored.isSome then .written amount (total + amount)
        else .inserting amount total))
    else none
  | .inserting amount total, .insert =>
    if s.RowFree i then
      some (s.moveTo i (if s.stored.isSome then .retrying amount total
        else .written amount (total + amount)))
    else none
  | .retrying amount total, .update =>
    if s.RowFree i then
      some (s.moveTo i (if s.stored.isSome then .written amount (total + amount) else .idle))
    else none
  | .written amount total, .commit =>
    some { s.moveTo i .idle with stored := some total, committed := amount :: s.committed }
  | .idle, .rollback => none
  | _, .rollback => some (s.moveTo i .idle)
  | _, _ => none

def run? (isolation : RecordIsolation) (s : DailyRecords n) :
    List (Fin n × RecordMove) → Option (DailyRecords n)
  | [] => some s
  | (i, move) :: trace => (s.move? isolation i move).bind (run? isolation · trace)

/-- A statement that writes finds the total as it was read. -/
def Careful (s : DailyRecords n) (i : Fin n) : RecordMove → Prop
  | .update | .insert => ∀ total ∈ (s.stage i).read?, total = s.stored.getD 0
  | _ => True

/-- Every step of the run meets the condition. -/
def AllCareful (isolation : RecordIsolation) (s : DailyRecords n) : List (Fin n × RecordMove) → Prop
  | [] => True
  | (i, move) :: trace =>
    s.Careful i move ∧ ∀ t ∈ s.move? isolation i move, t.AllCareful isolation trace

end DailyRecords

namespace DailyRecords

variable {n : Nat} {isolation : RecordIsolation} {s t : DailyRecords n} {i : Fin n}

/-! What a statement can do -/

/-- The stage that a statement leads to, unless it commits. -/
inductive StageStep (isolation : RecordIsolation) (s : DailyRecords n) (i : Fin n) :
    RecordMove → RecordStage → Prop
  | start {usage : ReportedUsage} {inputEstimate outputEstimate amount : Nat}
      (halone : isolation = .serialized → ∀ j, s.stage j = .idle) :
      StageStep isolation s i (.beginWrite usage inputEstimate outputEstimate) (.began amount)
  | select {amount : Nat} (hstage : s.stage i ≠ .idle) :
      StageStep isolation s i .select (.selected amount (s.stored.getD 0))
  | write {move : RecordMove} {amount total : Nat} (hmove : move = .update ∨ move = .insert)
      (hread : (s.stage i).read? = some total) (hfree : s.RowFree i) :
      StageStep isolation s i move (.written amount (total + amount))
  | wait {move : RecordMove} {total : Nat} {stage : RecordStage}
      (hread : (s.stage i).read? = some total) (hstage : stage.read? = some total) :
      StageStep isolation s i move stage
  | stop {move : RecordMove} : StageStep isolation s i move .idle

variable {move : RecordMove}

theorem move_cases (h : s.move? isolation i move = some t) :
    (∃ stage, StageStep isolation s i move stage ∧ t = s.moveTo i stage) ∨
      ∃ amount total, s.stage i = .written amount total ∧ t = { s.moveTo i .idle with
        stored := some total
        committed := amount :: s.committed } := by
  unfold move? at h
  split at h
  · next hstage =>
    split at h
    · cases h
    · next halone =>
      refine .inl ⟨_, .start fun hserial j => ?_, (Option.some.inj h).symm⟩
      by_contra hj
      exact halone ⟨hserial, j, hj⟩
  · next amount hstage =>
    exact .inl ⟨_, .select (by simp [hstage]), (Option.some.inj h).symm⟩
  · next amount total hstage =>
    split at h
    · next hfree =>
      refine .inl ⟨_, ?_, (Option.some.inj h).symm⟩
      split
      · exact .write (.inl rfl) (by rw [hstage]; rfl) hfree
      · exact .wait (by rw [hstage]; rfl) rfl
    · cases h
  · next amount total hstage =>
    split at h
    · next hfree =>
      refine .inl ⟨_, ?_, (Option.some.inj h).symm⟩
      split
      · exact .wait (by rw [hstage]; rfl) rfl
      · exact .write (.inr rfl) (by rw [hstage]; rfl) hfree
    · cases h
  · next amount total hstage =>
    split at h
    · next hfree =>
      refine .inl ⟨_, ?_, (Option.some.inj h).symm⟩
      split
      · exact .write (.inl rfl) (by rw [hstage]; rfl) hfree
      · exact .stop
    · cases h
  · next amount total hstage => exact .inr ⟨amount, total, hstage, (Option.some.inj h).symm⟩
  · cases h
  · exact .inl ⟨_, .stop, (Option.some.inj h).symm⟩
  · cases h

theorem moveTo_stage {stage : RecordStage} {j : Fin n} :
    (s.moveTo i stage).stage j = if j = i then stage else s.stage j := by
  simp [moveTo, Function.update_apply]

/-! The total under careful writes -/

/-- The stored total is the sum of what was committed, on top of `first`; a transaction that has
written adds its amount, and is the only one. -/
structure Sound (first : Nat) (s : DailyRecords n) : Prop where
  total : s.stored.getD 0 = first + s.committed.sum
  written : ∀ i amount total, s.stage i = .written amount total →
    total = s.stored.getD 0 + amount ∧ s.RowFree i

variable {first : Nat}

theorem StageStep.total_eq {amount total : Nat}
    (h : StageStep isolation s i move (.written amount total)) (hcareful : s.Careful i move) :
    total = s.stored.getD 0 + amount ∧ s.RowFree i := by
  cases h with
  | write hmove hread hfree =>
    rcases hmove with rfl | rfl
    · exact ⟨by rw [hcareful _ hread], hfree⟩
    · exact ⟨by rw [hcareful _ hread], hfree⟩
  | wait _ hstage => cases hstage

theorem rowFree_moveTo {stage : RecordStage} {j : Fin n} (h : s.RowFree j)
    (hstage : j ≠ i → stage.isWritten = false) : (s.moveTo i stage).RowFree j := by
  intro k hk
  rw [moveTo_stage]
  split
  · next hki => exact hstage (fun hji => hk (hki.trans hji.symm))
  · exact h k hk

theorem Sound.step (h : s.Sound first) (hcareful : s.Careful i move)
    (hmove : s.move? isolation i move = some t) : t.Sound first := by
  rcases move_cases hmove with ⟨stage, hstep, rfl⟩ | ⟨amount, total, hstage, rfl⟩
  · refine ⟨h.total, ?_⟩
    intro j amount total hj
    rw [moveTo_stage] at hj
    split at hj
    · next hji =>
      subst hj hji
      obtain ⟨htotal, hfree⟩ := hstep.total_eq hcareful
      exact ⟨htotal, rowFree_moveTo hfree fun hne => absurd rfl hne⟩
    · next hji =>
      obtain ⟨htotal, hfree⟩ := h.written j amount total hj
      refine ⟨htotal, rowFree_moveTo hfree fun _ => ?_⟩
      -- the row is locked by `j`, so that the transaction cannot have written
      cases stage with
      | written amount' total' =>
        have := (hstep.total_eq hcareful).2 j hji
        simp [hj, RecordStage.isWritten] at this
      | _ => rfl
  · obtain ⟨htotal, hfree⟩ := h.written i amount total hstage
    refine ⟨?_, ?_⟩
    · have := h.total
      simp only [Option.getD_some, List.sum_cons]
      omega
    · intro j amount' total' hj
      change (s.moveTo i .idle).stage j = _ at hj
      rw [moveTo_stage] at hj
      split at hj
      · cases hj
      · next hne =>
        have := hfree j hne
        simp [hj, RecordStage.isWritten] at this

theorem Sound.run {trace : List (Fin n × RecordMove)} (h : s.Sound first)
    (hcareful : s.AllCareful isolation trace) (hrun : s.run? isolation trace = some t) :
    t.Sound first := by
  induction trace generalizing s with
  | nil =>
    obtain rfl := Option.some.inj hrun
    exact h
  | cons e trace ih =>
    obtain ⟨u, hmove, hrun⟩ := Option.bind_eq_some_iff.mp hrun
    exact ih (h.step hcareful.1 hmove) (hcareful.2 u hmove) hrun

theorem sound_first (stored : Option Nat) : Sound (stored.getD 0) ({ stored } : DailyRecords n) :=
  ⟨rfl, by simp⟩

/-! Serialized writers are careful -/

/-- One transaction at most has begun, and the total that it has read is the stored one. -/
structure Alone (s : DailyRecords n) : Prop where
  one : ∀ i j, s.stage i ≠ .idle → s.stage j ≠ .idle → i = j
  current : ∀ i total, (s.stage i).read? = some total → total = s.stored.getD 0

theorem Alone.careful (h : s.Alone) : s.Careful i move := by
  unfold Careful
  split
  · exact fun total htotal => h.current i total htotal
  · exact fun total htotal => h.current i total htotal
  · trivial

theorem StageStep.busy {stage : RecordStage} (h : StageStep .serialized s i move stage)
    (hstage : stage ≠ .idle) : s.stage i ≠ .idle ∨ ∀ j, s.stage j = .idle := by
  cases h with
  | start halone => exact .inr (halone rfl)
  | select hbusy => exact .inl hbusy
  | write _ hread _ => exact .inl fun hidle => by simp [hidle, RecordStage.read?] at hread
  | wait hread _ => exact .inl fun hidle => by simp [hidle, RecordStage.read?] at hread
  | stop => exact absurd rfl hstage

theorem StageStep.current {stage : RecordStage} {total : Nat} (h : s.Alone)
    (hstep : StageStep isolation s i move stage) (htotal : stage.read? = some total) :
    total = s.stored.getD 0 := by
  cases hstep with
  | select => exact (Option.some.inj htotal).symm
  | wait hread hstage => exact h.current i total (hread.trans (hstage.symm.trans htotal))
  | _ => cases htotal

theorem Alone.step (h : s.Alone) (hmove : s.move? .serialized i move = some t) : t.Alone := by
  rcases move_cases hmove with ⟨stage, hstep, rfl⟩ | ⟨amount, total, hstage, rfl⟩
  · refine ⟨?_, ?_⟩
    · intro j k hj hk
      rw [moveTo_stage] at hj hk
      split at hj <;> split at hk
      · next hji hki => exact hji.trans hki.symm
      · next hji hki =>
        rcases hstep.busy hj with hbusy | hidle
        · exact hji.trans (h.one i k hbusy hk)
        · exact absurd (hidle k) hk
      · next hji hki =>
        rcases hstep.busy hk with hbusy | hidle
        · exact (h.one j i hj hbusy).trans hki.symm
        · exact absurd (hidle j) hj
      · exact h.one j k hj hk
    · intro j total htotal
      rw [moveTo_stage] at htotal
      split at htotal
      · have hcurrent := hstep.current h htotal
        exact hcurrent
      · exact h.current j total htotal
  · have hidle : ∀ j, (s.moveTo i .idle).stage j = .idle := by
      intro j
      rw [moveTo_stage]
      split
      · rfl
      · next hji =>
        by_contra hj
        exact hji (h.one j i hj (by simp [hstage]))
    refine ⟨fun j k hj _ => absurd (hidle j) hj, fun j total htotal => ?_⟩
    change ((s.moveTo i .idle).stage j).read? = _ at htotal
    rw [hidle j] at htotal
    cases htotal

theorem Alone.allCareful {trace : List (Fin n × RecordMove)} (h : s.Alone) :
    s.AllCareful .serialized trace := by
  induction trace generalizing s with
  | nil => trivial
  | cons e trace ih => exact ⟨h.careful, fun t hmove => ih (h.step hmove)⟩

theorem alone_first (stored : Option Nat) : Alone ({ stored } : DailyRecords n) :=
  ⟨fun _ _ hi => absurd rfl hi, fun _ _ h => nomatch h⟩

/-- No record of the day is lost among serialized writers, or if every record writes while the total
is the one that it has read. -/
theorem daily_usage_not_lost {stored : Option Nat} {trace : List (Fin n × RecordMove)}
    (hcareful : isolation = .serialized ∨
      AllCareful isolation ({ stored } : DailyRecords n) trace)
    (hrun : run? isolation ({ stored } : DailyRecords n) trace = some s) :
    s.stored.getD 0 = stored.getD 0 + s.committed.sum := by
  have hall : AllCareful isolation ({ stored } : DailyRecords n) trace := by
    rcases hcareful with rfl | hcareful
    · exact (alone_first stored).allCareful
    · exact hcareful
  exact ((sound_first stored).run hall hrun).total

/-! Two records of a day -/

def sampleUsage (tokens : Int) : ReportedUsage := { totalTokens := some tokens }

/-- The first record reads and writes before the second one reads. -/
def sampleTurns : List (Fin 2 × RecordMove) :=
  [(0, .beginWrite (sampleUsage 5) 1 1), (0, .select), (0, .update), (0, .insert), (0, .commit),
    (1, .beginWrite (sampleUsage 7) 1 1), (1, .select), (1, .update), (1, .commit)]

theorem daily_usage_not_lost_turns :
    ∃ s, run? .serialized ({} : DailyRecords 2) sampleTurns = some s ∧
      s.committed.sum = 12 ∧ s.stored.getD 0 = 0 + s.committed.sum := by
  have hsum : (run? .serialized ({} : DailyRecords 2) sampleTurns).any
      (·.committed.sum = 12) = true := by decide
  obtain ⟨s, hrun, hsum⟩ := (Option.any_eq_true _ _).mp hsum
  exact ⟨s, hrun, of_decide_eq_true hsum, daily_usage_not_lost (.inl rfl) hrun⟩

/-- Both records read before either writes. -/
def sampleRace : List (Fin 2 × RecordMove) :=
  [(0, .beginWrite (sampleUsage 5) 1 1), (1, .beginWrite (sampleUsage 7) 1 1), (0, .select),
    (1, .select), (0, .update), (0, .insert), (0, .commit), (1, .update), (1, .commit)]

theorem concurrent_record_lost :
    ¬∀ (n : Nat) (isolation : RecordIsolation) (stored : Option Nat)
      (trace : List (Fin n × RecordMove)) (s : DailyRecords n),
      run? isolation { stored } trace = some s →
        s.stored.getD 0 = stored.getD 0 + s.committed.sum := by
  intro h
  have hlost : (run? .readCommitted ({} : DailyRecords 2) sampleRace).any
      (fun s => s.stored.getD 0 = 7 && s.committed.sum = 12) = true := by decide
  obtain ⟨s, hrun, hlost⟩ := (Option.any_eq_true _ _).mp hlost
  simp only [Bool.and_eq_true, decide_eq_true_eq] at hlost
  have := h 2 .readCommitted none sampleRace s hrun
  rw [hlost.1, hlost.2] at this
  cases this

end DailyRecords

end MultiClaw
