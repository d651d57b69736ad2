import MultiClaw.Base.Lists
import MultiClaw.Runtime.DailyQuota

/-! The daily limit of a tenant holds as long as its routers take turns. -/
namespace MultiClaw

open Base

variable {m n : Nat} {settings : DailySettings} {s t : DailyState m n} {i : Fin n}
  {stage : DailyStage}

theorem DailyStage.unrecorded_le_outstanding : stage.unrecorded ≤ stage.outstanding := by
  cases stage with
  | releasing r recorded => cases recorded <;> simp [unrecorded, outstanding]
  | _ => simp [unrecorded, outstanding]

namespace DailyState

/-- A provider reports no more than was reserved for its call. -/
def Frugal (s : DailyState m n) (i : Fin n) : DailyMove → Prop
  | .respond usage outputEstimate =>
    match s.stage i with
    | .calling estimate reservation => usage.tokens estimate outputEstimate ≤ reservation
    | _ => True
  | _ => True

/-- The routers take turns: a call reserves while no call of another router has a reservation that
is not recorded, and records while no call of another router has read the usage of the day without
having reserved. -/
def TakesTurns (s : DailyState m n) (i : Fin n) : DailyMove → Prop
  | .reserve => ∀ j, s.router j ≠ s.router i → (s.stage j).unrecorded = 0
  | .record => ∀ j, s.router j ≠ s.router i → (s.stage j).hasReadUsage = false
  | _ => True

instance (move : DailyMove) : Decidable (s.Frugal i move) := by
  unfold Frugal
  split
  · split <;> infer_instance
  · infer_instance

instance (move : DailyMove) : Decidable (s.TakesTurns i move) := by
  unfold TakesTurns
  split <;> infer_instance

/-- Every step of the run meets a condition on the state before it. -/
def StepsMeet (settings : DailySettings) (P : DailyState m n → Fin n → DailyMove → Prop)
    (s : DailyState m n) : List (Fin n × DailyMove) → Prop
  | [] => True
  | (i, move) :: trace => P s i move ∧ ∀ t ∈ s.move? settings i move, t.StepsMeet settings P trace

instance decidableStepsMeet (P : DailyState m n → Fin n → DailyMove → Prop)
    [∀ s i move, Decidable (P s i move)] (s : DailyState m n) (trace : List (Fin n × DailyMove)) :
    Decidable (s.StepsMeet settings P trace) := by
  induction trace generalizing s with
  | nil => exact instDecidableTrue
  | cons a trace ih => exact instDecidableAnd

/-- What a function of the stages adds up to over the calls of one router. -/
def sumOf (s : DailyState m n) (r : Fin m) (g : DailyStage → Nat) : Nat :=
  ∑ i, if s.router i = r then g (s.stage i) else 0

/-- The stored usage and the reservations that are not recorded fit into the limit. A call that has
read the usage knows, with what its router has reserved, of all that its own router spends. -/
structure Inv (settings : DailySettings) (s : DailyState m n) : Prop where
  quota : ∀ i j, s.router i = s.router j → (s.stage i).holdsQuotaLock = true →
    (s.stage j).holdsQuotaLock = true → i = j
  reserved : ∀ r, (s.sumOf r DailyStage.outstanding : Int) ≤ s.reservedTokens r
  bound : s.used + s.unrecordedTokens ≤ settings.tenantDailyTokenLimit
  granting : ∀ i estimate reservation used, s.stage i = .granting estimate reservation used →
    (s.used + s.sumOf (s.router i) DailyStage.unrecorded : Int) ≤
      used + s.reservedTokens (s.router i)
  recording : ∀ i reservation tokens, s.stage i = .recording reservation tokens →
    tokens ≤ reservation

theorem update_stage {k : Fin n} {st : DailyStage}
    (hk : Function.update s.stage i stage k = st) :
    (k = i ∧ st = stage) ∨ (k ≠ i ∧ s.stage k = st) := by
  by_cases hki : k = i
  · subst hki
    rw [Function.update_self] at hk
    exact Or.inl ⟨rfl, hk.symm⟩
  · rw [Function.update_of_ne hki] at hk
    exact Or.inr ⟨hki, hk⟩

theorem sumOf_update (s : DailyState m n) (i : Fin n) (stage : DailyStage) (r : Fin m)
    (g : DailyStage → Nat) :
    (s.moveTo i stage).sumOf r g + (if s.router i = r then g (s.stage i) else 0) =
      s.sumOf r g + if s.router i = r then g stage else 0 :=
  sum_update_at (fun k st => if s.router k = r then g st else 0) s.stage i stage

theorem unrecorded_update (s : DailyState m n) (i : Fin n) (stage : DailyStage) :
    (s.moveTo i stage).unrecordedTokens + (s.stage i).unrecorded =
      s.unrecordedTokens + stage.unrecorded :=
  sum_update _ _ _ _

theorem sumOf_le_sumOf (r : Fin m) {g g' : DailyStage → Nat} (h : ∀ st, g st ≤ g' st) :
    s.sumOf r g ≤ s.sumOf r g' :=
  Finset.sum_le_sum fun k _ => by split <;> simp [h]

theorem Inv.quota_update (h : s.Inv settings)
    (hquota : stage.holdsQuotaLock = true →
      (s.stage i).holdsQuotaLock = true ∨ s.lockFree (s.router i)) :
    ∀ k l, s.router k = s.router l →
      (Function.update s.stage i stage k).holdsQuotaLock = true →
      (Function.update s.stage i stage l).holdsQuotaLock = true → k = l := by
  have hother : ∀ k, k ≠ i → s.router k = s.router i → (s.stage k).holdsQuotaLock = true →
      stage.holdsQuotaLock = true → False := by
    intro k hk hrouter hlock hlock'
    rcases hquota hlock' with hi | hfree
    · exact hk (h.quota k i hrouter hlock hi)
    · rw [hfree k hrouter] at hlock
      cases hlock
  intro k l hrouter hk hl
  have hk' := update_stage (rfl : Function.update s.stage i stage k = _)
  have hl' := update_stage (rfl : Function.update s.stage i stage l = _)
  rcases hk' with ⟨hki, hk'⟩ | ⟨hki, hk'⟩ <;> rcases hl' with ⟨hli, hl'⟩ | ⟨hli, hl'⟩
  · exact hki.trans hli.symm
  · exact (hother l hli (hki ▸ hrouter.symm) (hl' ▸ hl) (hk' ▸ hk)).elim
  · exact (hother k hki (hli ▸ hrouter) (hk' ▸ hk) (hl' ▸ hl)).elim
  · exact h.quota k l hrouter (hk' ▸ hk) (hl' ▸ hl)

/-- A call goes on, and what is stored and reserved does not grow. -/
theorem Inv.move {used : Nat} {reserved : Fin m → Int} (h : s.Inv settings)
    (hquota : stage.holdsQuotaLock = true →
      (s.stage i).holdsQuotaLock = true ∨ s.lockFree (s.router i))
    (hreserved : s.reservedTokens (s.router i) - (s.stage i).outstanding ≤
      reserved (s.router i) - stage.outstanding)
    (hothers : ∀ r, r ≠ s.router i → reserved r = s.reservedTokens r)
    (hspent : used + stage.unrecorded ≤ s.used + (s.stage i).unrecorded)
    (hstored : used = s.used ∨ ∀ j, s.router j ≠ s.router i → (s.stage j).hasReadUsage = false)
    (hreleased : reserved (s.router i) = s.reservedTokens (s.router i) ∨
      s.lockFree (s.router i))
    (hgranting : ∀ estimate reservation read, stage = .granting estimate reservation read →
      read = s.used ∧ used = s.used ∧ reserved = s.reservedTokens)
    (hrecording : ∀ reservation tokens, stage = .recording reservation tokens →
      tokens ≤ reservation := by rintro _ _ ⟨⟩) :
    DailyState.Inv settings ⟨s.router, used, reserved, Function.update s.stage i stage⟩ := by
  have hun := s.unrecorded_update i stage
  refine ⟨h.quota_update hquota, ?_, ?_, ?_, ?_⟩
  · intro r
    have hsum := s.sumOf_update i stage r DailyStage.outstanding
    have hbefore := h.reserved r
    change ((s.moveTo i stage).sumOf r DailyStage.outstanding : Int) ≤ reserved r
    by_cases hr : s.router i = r
    · subst hr
      simp only [if_true] at hsum
      omega
    · rw [hothers r (Ne.symm hr)]
      simp only [hr, if_false] at hsum
      omega
  · have := h.bound
    change used + (s.moveTo i stage).unrecordedTokens ≤ _
    omega
  · intro k estimate reservation read hk
    have hsum := s.sumOf_update i stage (s.router k) DailyStage.unrecorded
    change (used + (s.moveTo i stage).sumOf (s.router k) DailyStage.unrecorded : Int) ≤
      read + reserved (s.router k)
    obtain ⟨rfl, hst⟩ | ⟨hki, hst⟩ := update_stage hk
    · obtain ⟨rfl, rfl, rfl⟩ := hgranting estimate reservation read hst.symm
      have hle : s.sumOf (s.router k) DailyStage.unrecorded ≤
          s.sumOf (s.router k) DailyStage.outstanding :=
        sumOf_le_sumOf _ fun _ => DailyStage.unrecorded_le_outstanding
      have hreserved := h.reserved (s.router k)
      simp only [if_true] at hsum
      omega
    · have hbefore := h.granting k estimate reservation read hst
      by_cases hrouter : s.router k = s.router i
      · have hsame : reserved (s.router i) = s.reservedTokens (s.router i) := by
          refine hreleased.resolve_right fun hfree => ?_
          have := hfree k hrouter
          rw [hst] at this
          cases this
        rw [hrouter] at hbefore hsum ⊢
        simp only [if_true] at hsum
        omega
      · have hused : used = s.used := by
          refine hstored.resolve_right fun hread => ?_
          have := hread k hrouter
          rw [hst] at this
          cases this
        rw [hothers _ hrouter, hused]
        simp only [Ne.symm hrouter, if_false] at hsum
        omega
  · intro k reservation tokens hk
    obtain ⟨-, hst⟩ | ⟨-, hst⟩ := update_stage hk
    · exact hrecording reservation tokens hst.symm
    · exact h.recording k reservation tokens hst

theorem addReserved_self (s : DailyState m n) (i : Fin n) (tokens : Int) :
    (s.addReserved i tokens).reservedTokens (s.router i) =
      s.reservedTokens (s.router i) + tokens :=
  Function.update_self ..

theorem addReserved_of_ne {tokens : Int} {r : Fin m} (hr : r ≠ s.router i) :
    (s.addReserved i tokens).reservedTokens r = s.reservedTokens r :=
  Function.update_of_ne hr ..

/-- A call goes on to a stage without the quota lock, with nothing stored or released. -/
theorem Inv.goTo {old : DailyStage} (h : s.Inv settings) (hstage : s.stage i = old)
    (hlock : stage.holdsQuotaLock = false) (houtstanding : stage.outstanding ≤ old.outstanding)
    (hunrecorded : stage.unrecorded ≤ old.unrecorded)
    (hrecording : ∀ reservation tokens, stage = .recording reservation tokens →
      tokens ≤ reservation := by rintro _ _ ⟨⟩) : (s.moveTo i stage).Inv settings := by
  subst hstage
  refine h.move ?_ (by omega) (fun _ _ => rfl) (Nat.add_le_add_left hunrecorded _) (.inl rfl)
    (.inl rfl) ?_ hrecording
  · intro hlock'
    cases hlock.symm.trans hlock'
  · rintro _ _ _ rfl
    cases hlock

/-- Without reservations of other routers, a reservation fits into what the day has left. -/
theorem Inv.reserve {estimate reservation used : Nat} (h : s.Inv settings)
    (hstage : s.stage i = .granting estimate reservation used)
    (hothers : ∀ j, s.router j ≠ s.router i → (s.stage j).unrecorded = 0)
    (hfits : (used + s.reservedTokens (s.router i) + reservation : Int) ≤
      settings.tenantDailyTokenLimit) :
    ((s.addReserved i reservation).moveTo i (.calling estimate reservation)).Inv settings := by
  have hun := s.unrecorded_update i (.calling estimate reservation)
  rw [hstage] at hun
  have hgranting := h.granting i estimate reservation used hstage
  have hown : s.unrecordedTokens = s.sumOf (s.router i) DailyStage.unrecorded := by
    refine Finset.sum_congr rfl fun j _ => ?_
    split
    · rfl
    · next hrouter => exact hothers j hrouter
  refine ⟨h.quota_update (by rintro ⟨⟩), ?_, ?_, ?_, ?_⟩
  · intro r
    have hsum := s.sumOf_update i (.calling estimate reservation) r DailyStage.outstanding
    have hbefore := h.reserved r
    rw [hstage] at hsum
    change ((s.moveTo i (.calling estimate reservation)).sumOf r DailyStage.outstanding : Int) ≤
      (s.addReserved i reservation).reservedTokens r
    by_cases hr : s.router i = r
    · subst hr
      simp only [if_true, DailyStage.outstanding] at hsum
      rw [addReserved_self]
      omega
    · simp only [hr, if_false] at hsum
      rw [addReserved_of_ne (Ne.symm hr)]
      omega
  · change s.used + (s.moveTo i (.calling estimate reservation)).unrecordedTokens ≤ _
    simp only [DailyStage.unrecorded] at hun
    omega
  · intro k estimate' reservation' read hk
    obtain ⟨-, hst⟩ | ⟨hki, hst⟩ := update_stage hk
    · cases hst
    have hrouter : s.router k ≠ s.router i := by
      intro hrouter
      -- The caller has the lock of its router.
      exact hki (h.quota k i hrouter (hst ▸ rfl) (hstage ▸ rfl))
    have hsum := s.sumOf_update i (.calling estimate reservation) (s.router k)
      DailyStage.unrecorded
    have hbefore := h.granting k estimate' reservation' read hst
    change (s.used + (s.moveTo i (.calling estimate reservation)).sumOf (s.router k)
      DailyStage.unrecorded : Int) ≤
        read + (s.addReserved i reservation).reservedTokens (s.router k)
    rw [addReserved_of_ne hrouter]
    simp only [Ne.symm hrouter, if_false] at hsum
    omega
  · intro k reservation' tokens hk
    obtain ⟨-, hst⟩ | ⟨-, hst⟩ := update_stage hk
    · cases hst
    · exact h.recording k reservation' tokens hst

theorem Inv.step {act : DailyMove} (hlimit : settings.tenantDailyTokenLimit ≠ 0)
    (h : s.Inv settings) (hfrugal : s.Frugal i act) (hturns : s.TakesTurns i act)
    (hmove : s.move? settings i act = some t) : t.Inv settings := by
  unfold move? at hmove
  split at hmove
  case h_1 hstage => -- request
    cases hmove
    exact h.goTo hstage rfl le_rfl le_rfl
  case h_2 hstage => -- lockQuota
    split_ifs at hmove with hfree
    cases hmove
    exact h.move (fun _ => .inr hfree) (by rw [hstage]; exact le_rfl) (fun _ _ => rfl)
      (by rw [hstage]; exact le_rfl) (.inl rfl) (.inl rfl) (by rintro _ _ _ ⟨⟩)
  case h_3 hstage => -- readUsage
    dsimp only at hmove
    split_ifs at hmove
    · cases hmove
      exact h.goTo hstage rfl le_rfl le_rfl
    · cases hmove
      refine h.move (fun _ => .inl (hstage ▸ rfl)) (by rw [hstage]; exact le_rfl) (fun _ _ => rfl)
        (by rw [hstage]; exact le_rfl) (.inl rfl) (.inl rfl) ?_
      rintro _ _ _ ⟨⟩
      exact ⟨rfl, rfl, rfl⟩
  case h_4 hstage => -- reserve
    split_ifs at hmove with hrefused
    · cases hmove
      exact h.goTo hstage rfl le_rfl le_rfl
    · cases hmove
      have hfits := not_lt.mp fun hover => hrefused ⟨hlimit, hover⟩
      exact h.reserve hstage hturns hfits
  case h_5 hstage => -- respond
    cases hmove
    refine h.goTo hstage rfl le_rfl le_rfl ?_
    rintro _ _ ⟨⟩
    rw [Frugal, hstage] at hfrugal
    exact hfrugal
  case h_6 hstage => -- failCall
    cases hmove
    exact h.goTo hstage rfl le_rfl le_rfl
  case h_7 reservation tokens hstage => -- record
    cases hmove
    have htokens := h.recording i reservation tokens hstage
    refine h.move (by rintro ⟨⟩) (by rw [hstage]; exact le_rfl) (fun _ _ => rfl) ?_ (.inr hturns)
      (.inl rfl) (by rintro _ _ _ ⟨⟩)
    rw [hstage]
    exact Nat.add_le_add_left htokens _
  case h_8 hstage => -- failRecord
    cases hmove
    exact h.goTo hstage rfl le_rfl le_rfl
  case h_9 reservation recorded hstage => -- release
    split_ifs at hmove with hfree
    cases hmove
    refine h.move (by rintro ⟨⟩) ?_ (fun r hr => addReserved_of_ne hr)
      (Nat.add_le_add_left (Nat.zero_le _) _) (.inl rfl) (.inr hfree) (by rintro _ _ _ ⟨⟩)
    rw [hstage, addReserved_self]
    simp only [DailyStage.outstanding]
    omega
  case h_10 hstage => -- cancelRelease
    split_ifs at hmove
    cases hmove
    exact h.goTo hstage rfl (Nat.zero_le _) (Nat.zero_le _)
  case h_11 hstage => -- cancel
    cases hmove
    exact h.goTo hstage rfl le_rfl le_rfl
  case h_12 hstage =>
    cases hmove
    exact h.goTo hstage rfl le_rfl le_rfl
  case h_13 hstage =>
    cases hmove
    exact h.goTo hstage rfl le_rfl le_rfl
  case h_14 => cases hmove

theorem Inv.run {trace : List (Fin n × DailyMove)} (hlimit : settings.tenantDailyTokenLimit ≠ 0)
    (h : s.Inv settings) (hfrugal : s.StepsMeet settings Frugal trace)
    (hturns : s.StepsMeet settings TakesTurns trace) (hrun : s.run? settings trace = some t) :
    t.Inv settings := by
  induction trace generalizing s with
  | nil => exact Option.some.inj hrun ▸ h
  | cons a trace ih =>
    obtain ⟨u, hstep, hrun⟩ := Option.bind_eq_some_iff.mp hrun
    exact ih (h.step hlimit hfrugal.1 hturns.1 hstep) (hfrugal.2 u hstep) (hturns.2 u hstep) hrun

/-- Nothing is reserved before the first call. -/
theorem inv_initial {router : Fin n → Fin m} {used : Nat}
    (h : used ≤ settings.tenantDailyTokenLimit) :
    ({ router, used } : DailyState m n).Inv settings where
  quota _ _ _ hlock := by cases hlock
  reserved r := by simp [sumOf, DailyStage.outstanding]
  bound := by simpa [unrecordedTokens, DailyStage.unrecorded] using h
  granting _ _ _ _ hstage := by cases hstage
  recording _ _ _ hstage := by cases hstage

end DailyState

open DailyState

/-- In every run in which the routers of a tenant take turns, and no call uses more than was
reserved for it, the daily limit is never exceeded. With one router they always do. -/
theorem daily_usage_within_limit {router : Fin n → Fin m} {used : Nat}
    {trace : List (Fin n × DailyMove)} (hlimit : settings.tenantDailyTokenLimit ≠ 0)
    (hstart : used ≤ settings.tenantDailyTokenLimit)
    (hfrugal : ({ router, used } : DailyState m n).StepsMeet settings Frugal trace)
    (hturns : ({ router, used } : DailyState m n).StepsMeet settings TakesTurns trace)
    (hrun : ({ router, used } : DailyState m n).run? settings trace = some s) :
    s.used + s.unrecordedTokens ≤ settings.tenantDailyTokenLimit :=
  ((inv_initial hstart).run hlimit hfrugal hturns hrun).bound

/-- The main runtime and a member of a team make a call each, one after the other. -/
theorem daily_usage_within_limit_in_turn :
    let settings : DailySettings := ⟨10000, 4096⟩
    let start : DailyState 2 2 := { router := id }
    ∃ s : DailyState 2 2, start.run? settings
        [(0, .request 1500), (0, .lockQuota 250000), (0, .readUsage), (0, .reserve),
          (0, .respond { totalTokens := some 5000 } 0), (0, .record), (0, .release),
          (1, .request 500), (1, .lockQuota 20000), (1, .readUsage), (1, .reserve)] = some s ∧
      s.used = 5000 ∧ s.unrecordedTokens = 4596 ∧ s.used + s.unrecordedTokens ≤ 10000 := by
  intro settings start
  have hrun : (start.run? settings
      [(0, .request 1500), (0, .lockQuota 250000), (0, .readUsage), (0, .reserve),
        (0, .respond { totalTokens := some 5000 } 0), (0, .record), (0, .release),
        (1, .request 500), (1, .lockQuota 20000), (1, .readUsage), (1, .reserve)]).map
      (fun s => (s.used, s.unrecordedTokens)) = some (5000, 4596) := by
    decide +kernel
  obtain ⟨s, hs, hfound⟩ := Option.map_eq_some_iff.mp hrun
  obtain ⟨hused, hunrecorded⟩ := Prod.mk.inj hfound
  have hbound : s.used + s.unrecordedTokens ≤ settings.tenantDailyTokenLimit :=
    daily_usage_within_limit (by decide) (by decide) (by decide +kernel) (by decide +kernel) hs
  exact ⟨s, hs, hused, hunrecorded, hbound⟩

/-- Each router knows of its own reservations only: two calls at the same time exceed the limit. -/
theorem two_routers_exceed_daily_limit :
    ¬∀ (m n : Nat) (settings : DailySettings) (router : Fin n → Fin m) (used : Nat)
      (trace : List (Fin n × DailyMove)) (s : DailyState m n),
      settings.tenantDailyTokenLimit ≠ 0 → used ≤ settings.tenantDailyTokenLimit →
      ({ router, used } : DailyState m n).StepsMeet settings Frugal trace →
      ({ router, used } : DailyState m n).run? settings trace = some s →
      s.used + s.unrecordedTokens ≤ settings.tenantDailyTokenLimit := by
  intro h
  let settings : DailySettings := ⟨10000, 4096⟩
  let trace : List (Fin 2 × DailyMove) :=
    [(0, .request 1500), (0, .lockQuota 250000), (0, .readUsage), (0, .reserve),
      (1, .request 1500), (1, .lockQuota 20000), (1, .readUsage), (1, .reserve)]
  have hrun : (({ router := id } : DailyState 2 2).run? settings trace).map (fun s =>
      (s.used, s.unrecordedTokens)) = some (0, 11192) := by
    decide +kernel
  obtain ⟨s, hs, hfound⟩ := Option.map_eq_some_iff.mp hrun
  obtain ⟨hused, hunrecorded⟩ := Prod.mk.inj hfound
  have hbound := h 2 2 settings id 0 trace s (by decide) (by decide) (by decide +kernel) hs
  rw [hused, hunrecorded] at hbound
  revert hbound
  decide

end MultiClaw
