import MultiClaw.Base.Lists
import MultiClaw.Runtime.Inference

/-! The token budget of a run holds as long as its jobs are spawned between its calls. -/
namespace MultiClaw

open Base

variable {n : Nat} {settings : InferenceSettings} {s t : InferenceState n} {i : Fin n}
  {stage : InferenceStage} {runId : String} {store store' : CollaborationStore}
  {allocation : JobAllocation}

theorem ok_of_bind {ε α β : Type} {x : Except ε α} {f : α → Except ε β} {b : β}
    (h : x >>= f = .ok b) : ∃ a, x = .ok a ∧ f a = .ok b := by
  cases x with
  | error e => cases h
  | ok a => exact ⟨a, rfl, h⟩

namespace InferenceStage

/-- The call has read what is allocated to jobs, and has not reserved. -/
def hasReadAllocated : InferenceStage → Bool
  | granting .. => true
  | _ => false

theorem unrecorded_le_outstanding : stage.unrecorded ≤ stage.outstanding := by
  cases stage with
  | releasing r recorded => cases recorded <;> simp [unrecorded, outstanding]
  | _ => simp [unrecorded, outstanding]

end InferenceStage

namespace CollaborationStore

theorem used_saveUsage {total : Nat} : (store.saveUsage runId total).used runId = total := by
  simp [used, saveUsage]

theorem allocated_saveUsage {total : Nat} :
    (store.saveUsage runId total).allocated runId = store.allocated runId :=
  rfl

/-- A job that is not spawned from the run is not charged to it; one that is fits into what the
parent's limit leaves. -/
theorem createJob_charge (hne : runId ≠ "") (h : store.createJob allocation = .ok store') :
    store'.used runId = store.used runId ∧
      (store'.allocated runId = store.allocated runId ∨
        allocation.parentRunId = some runId ∧
          store'.allocated runId = store.allocated runId + allocation.budgetTokens ∧
          store.allocated runId + store.used runId + allocation.budgetTokens ≤
            allocation.parentLimit) := by
  unfold createJob at h
  split at h
  · cases h
  obtain ⟨-, -, h⟩ := ok_of_bind h
  obtain ⟨_, hparent, h⟩ := ok_of_bind h
  split_ifs at h
  cases h
  refine ⟨rfl, ?_⟩
  have hjobs : ∀ job : AgentJob, allocated { store with jobs := store.jobs ++ [job] } runId =
      store.allocated runId + if job.parentRunId = some runId then job.budgetTokens else 0 := by
    intro job
    rw [allocated, reservedWhere, List.filter_append, List.map_append, List.sum_append]
    by_cases hrun : job.parentRunId = some runId
    · simp [hrun, allocated, reservedWhere]
    · simp [hrun, allocated, reservedWhere]
  rw [hjobs]
  by_cases hrun : allocation.parentRunId = some runId
  · right
    rw [hrun, Option.filter_some, if_pos (by simpa using hne)] at hparent
    simp only [Option.elim_some, requireParent] at hparent
    split_ifs at hparent with _ hlimit
    exact ⟨hrun, by simp [hrun], not_lt.mp hlimit⟩
  · exact Or.inl (by simp [hrun])

end CollaborationStore

namespace InferenceState

/-- A provider reports no more than was reserved for its call. -/
def Frugal (s : InferenceState n) : InferenceAction n → Prop
  | .call i (.respond usage outputEstimate) =>
    match s.stage i with
    | .calling estimate reservation => usage.tokens estimate outputEstimate ≤ reservation
    | _ => True
  | _ => True

/-- A job is spawned from the run while nothing is reserved that is not stored as its usage, and no
call has read what is allocated to jobs without having reserved; and no call is cancelled before
the lock of its release. -/
def Quiet (settings : InferenceSettings) (s : InferenceState n) : InferenceAction n → Prop
  | .call _ .cancelRelease => False
  | .createJob allocation => allocation.parentRunId = some settings.runId →
    allocation.parentLimit ≤ settings.maxRunTokens ∧
    s.budget.totalTokens + s.unrecordedTokens ≤ s.store.used settings.runId ∧
    ∀ i, (s.stage i).hasReadAllocated = false
  | _ => True

instance {a : InferenceAction n} : Decidable (s.Frugal a) := by
  unfold Frugal
  split
  · split <;> infer_instance
  · infer_instance

instance {a : InferenceAction n} : Decidable (s.Quiet settings a) := by
  unfold Quiet
  split <;> infer_instance

/-- Every step of the run meets a condition on the state before it. -/
def StepsMeet (settings : InferenceSettings) (P : InferenceState n → InferenceAction n → Prop)
    (s : InferenceState n) : List (InferenceAction n) → Prop
  | [] => True
  | a :: trace => P s a ∧ ∀ t ∈ s.step? settings a, t.StepsMeet settings P trace

instance decidableStepsMeet (P : InferenceState n → InferenceAction n → Prop)
    [∀ s a, Decidable (P s a)] (s : InferenceState n) (trace : List (InferenceAction n)) :
    Decidable (s.StepsMeet settings P trace) := by
  induction trace generalizing s with
  | nil => exact instDecidableTrue
  | cons a trace ih => exact instDecidableAnd

/-- What is recorded, reserved and allocated fits into the budget, and so does what a call is about
to reserve. -/
structure Inv (settings : InferenceSettings) (s : InferenceState n) : Prop where
  quota : ∀ i j, (s.stage i).holdsQuotaLock → (s.stage j).holdsQuotaLock → i = j
  loading : s.budget.loaded = false → s.budget.totalTokens = 0 ∧ ∀ i, s.stage i = .idle
  used_le : s.budget.loaded = true → s.store.used settings.runId ≤ s.budget.totalTokens
  reserved : s.budget.reservedTokens = (∑ i, (s.stage i).outstanding : Nat)
  bound : s.recordedTokens settings + s.unrecordedTokens + s.store.allocated settings.runId ≤
    settings.maxRunTokens
  reading : ∀ i estimate remaining, s.stage i = .reading estimate remaining →
    (s.budget.totalTokens + s.unrecordedTokens : Int) ≤ settings.maxRunTokens - remaining
  granting : ∀ i estimate remaining, s.stage i = .granting estimate remaining →
    (s.budget.totalTokens + s.unrecordedTokens + s.store.allocated settings.runId : Int) ≤
      settings.maxRunTokens - remaining
  recording : ∀ i reservation tokens, s.stage i = .recording reservation tokens →
    tokens ≤ reservation

theorem Inv.loaded (h : s.Inv settings) (hstage : s.stage i = stage) (hne : stage ≠ .idle) :
    s.budget.loaded = true := by
  by_contra hloaded
  exact hne (hstage.symm.trans ((h.loading (by simpa using hloaded)).2 i))

theorem update_stage {k : Fin n} {st : InferenceStage}
    (hk : Function.update s.stage i stage k = st) :
    (k = i ∧ st = stage) ∨ (k ≠ i ∧ s.stage k = st) := by
  by_cases hki : k = i
  · subst hki
    rw [Function.update_self] at hk
    exact Or.inl ⟨rfl, hk.symm⟩
  · rw [Function.update_of_ne hki] at hk
    exact Or.inr ⟨hki, hk⟩

theorem Inv.quota_update (h : s.Inv settings)
    (hquota : stage.holdsQuotaLock → (s.stage i).holdsQuotaLock ∨ s.quotaLockFree) :
    ∀ k l, (Function.update s.stage i stage k).holdsQuotaLock →
      (Function.update s.stage i stage l).holdsQuotaLock → k = l := by
  have hother : ∀ k, k ≠ i → (s.stage k).holdsQuotaLock = true → stage.holdsQuotaLock = true →
      False := by
    intro k hk hlock hlock'
    rcases hquota hlock' with hi | hfree
    · exact hk (h.quota k i hlock hi)
    · rw [hfree k] at hlock
      cases hlock
  intro k l hk hl
  have hk' := update_stage (rfl : Function.update s.stage i stage k = _)
  have hl' := update_stage (rfl : Function.update s.stage i stage l = _)
  rcases hk' with ⟨hki, hk'⟩ | ⟨hki, hk'⟩ <;> rcases hl' with ⟨hli, hl'⟩ | ⟨hli, hl'⟩
  · exact hki.trans hli.symm
  · exact (hother l hli (hl' ▸ hl) (hk' ▸ hk)).elim
  · exact (hother k hki (hk' ▸ hk) (hl' ▸ hl)).elim
  · exact h.quota k l (hk' ▸ hk) (hl' ▸ hl)

/-- A call goes on, and what is recorded and reserved does not grow. -/
theorem Inv.move {budget : InferenceBudget} (h : s.Inv settings)
    (hquota : stage.holdsQuotaLock → (s.stage i).holdsQuotaLock ∨ s.quotaLockFree)
    (hloaded : budget.loaded = true) (hused : store.used settings.runId ≤ budget.totalTokens)
    (hreserved : budget.reservedTokens - stage.outstanding =
      s.budget.reservedTokens - (s.stage i).outstanding)
    (hspent : budget.totalTokens + stage.unrecorded ≤
      s.budget.totalTokens + (s.stage i).unrecorded)
    (hallocated : store.allocated settings.runId = s.store.allocated settings.runId)
    (hreading : ∀ estimate remaining, stage = .reading estimate remaining →
      (s.budget.totalTokens + s.unrecordedTokens : Int) ≤ settings.maxRunTokens - remaining)
    (hgranting : ∀ estimate remaining, stage = .granting estimate remaining →
      (s.budget.totalTokens + s.unrecordedTokens + s.store.allocated settings.runId : Int) ≤
        settings.maxRunTokens - remaining)
    (hrecording : ∀ reservation tokens, stage = .recording reservation tokens →
      tokens ≤ reservation := by rintro _ _ ⟨⟩) :
    InferenceState.Inv settings ⟨store, budget, Function.update s.stage i stage⟩ := by
  have hun : (⟨store, budget, Function.update s.stage i stage⟩ :
      InferenceState n).unrecordedTokens + (s.stage i).unrecorded =
        s.unrecordedTokens + stage.unrecorded := sum_update _ _ _ _
  have hout := sum_update InferenceStage.outstanding s.stage i stage
  have hbound := h.bound
  rw [recordedTokens] at hbound
  refine ⟨?_, ?_, fun _ => hused, ?_, ?_, ?_, ?_, ?_⟩
  · exact h.quota_update hquota
  · intro hfalse
    rw [hloaded] at hfalse
    cases hfalse
  · have := h.reserved
    dsimp only
    omega
  · rw [recordedTokens, hallocated, max_eq_left hused]
    omega
  · intro k estimate remaining hk
    dsimp only
    obtain ⟨rfl, hst⟩ | ⟨-, hst⟩ := update_stage hk
    · have := hreading estimate remaining hst.symm
      omega
    · have := h.reading k estimate remaining hst
      omega
  · intro k estimate remaining hk
    rw [hallocated]
    dsimp only
    obtain ⟨rfl, hst⟩ | ⟨-, hst⟩ := update_stage hk
    · have := hgranting estimate remaining hst.symm
      omega
    · have := h.granting k estimate remaining hst
      omega
  · intro k reservation tokens hk
    obtain ⟨rfl, hst⟩ | ⟨-, hst⟩ := update_stage hk
    · exact hrecording reservation tokens hst.symm
    · exact h.recording k reservation tokens hst

theorem Inv.load (h : s.Inv settings) : (s.load settings).Inv settings := by
  unfold InferenceState.load
  split_ifs with hloaded
  · exact h
  · obtain ⟨htotal, hidle⟩ := h.loading (by simpa using hloaded)
    have hbound := h.bound
    rw [recordedTokens, htotal, Nat.zero_max] at hbound
    refine ⟨h.quota, (by rintro ⟨⟩), fun _ => le_rfl, h.reserved, ?_, ?_, ?_, h.recording⟩
    · rw [recordedTokens, max_self]
      exact hbound
    · exact fun i _ _ hi => by cases (hidle i).symm.trans hi
    · exact fun i _ _ hi => by cases (hidle i).symm.trans hi

theorem load_loaded : (s.load settings).budget.loaded = true := by
  unfold InferenceState.load
  split_ifs with hloaded
  · exact hloaded
  · rfl

theorem load_stage : (s.load settings).stage = s.stage := by
  unfold InferenceState.load
  split_ifs <;> rfl

/-- A call goes on with nothing recorded, reserved or released. -/
theorem Inv.moveTo (h : s.Inv settings)
    (hquota : stage.holdsQuotaLock → (s.stage i).holdsQuotaLock ∨ s.quotaLockFree)
    (hloaded : s.budget.loaded = true)
    (houtstanding : stage.outstanding = (s.stage i).outstanding)
    (hunrecorded : stage.unrecorded ≤ (s.stage i).unrecorded)
    (hreading : ∀ estimate remaining, stage = .reading estimate remaining →
      (s.budget.totalTokens + s.unrecordedTokens : Int) ≤ settings.maxRunTokens - remaining)
    (hgranting : ∀ estimate remaining, stage = .granting estimate remaining →
      (s.budget.totalTokens + s.unrecordedTokens + s.store.allocated settings.runId : Int) ≤
        settings.maxRunTokens - remaining)
    (hrecording : ∀ reservation tokens, stage = .recording reservation tokens →
      tokens ≤ reservation := by rintro _ _ ⟨⟩) :
    (s.moveTo i stage).Inv settings :=
  h.move hquota hloaded (h.used_le hloaded) (by rw [houtstanding])
    (Nat.add_le_add_left hunrecorded _) rfl hreading hgranting hrecording

/-- The reservation fits into what was found to remain. -/
theorem Inv.reserve {estimate reservation : Nat} {remaining : Int} (h : s.Inv settings)
    (hstage : s.stage i = .granting estimate remaining) (hfits : (reservation : Int) ≤ remaining) :
    InferenceState.Inv settings ⟨s.store,
      { s.budget with reservedTokens := s.budget.reservedTokens + reservation },
      Function.update s.stage i (.calling estimate reservation)⟩ := by
  have hloaded := h.loaded hstage (by simp)
  have hun : (s.moveTo i (.calling estimate reservation)).unrecordedTokens =
      s.unrecordedTokens + reservation := by
    have := sum_update InferenceStage.unrecorded s.stage i (.calling estimate reservation)
    rw [hstage] at this
    exact this
  have hout : ∑ k, (Function.update s.stage i (.calling estimate reservation) k).outstanding =
      ∑ k, (s.stage k).outstanding + reservation := by
    have := sum_update InferenceStage.outstanding s.stage i (.calling estimate reservation)
    rw [hstage] at this
    exact this
  have hgranting := h.granting i estimate remaining hstage
  -- The caller has the lock: no other call is between reading what remains and reserving it.
  have hothers : ∀ k, (Function.update s.stage i (.calling estimate reservation)
      k).holdsQuotaLock = false := by
    intro k
    by_contra hlock
    obtain ⟨-, hk⟩ | ⟨hki, hk⟩ := update_stage
      (rfl : Function.update s.stage i (.calling estimate reservation) k = _)
    · rw [hk] at hlock
      exact hlock rfl
    · rw [← hk, Bool.not_eq_false] at hlock
      exact hki (h.quota k i hlock (hstage ▸ rfl))
  refine ⟨h.quota_update (by rintro ⟨⟩), ?_, h.used_le, ?_, ?_, ?_, ?_, ?_⟩
  · intro hfalse
    cases hloaded.symm.trans hfalse
  · have := h.reserved
    change s.budget.reservedTokens + reservation = ((_ : Nat) : Int)
    rw [hout]
    omega
  · change max s.budget.totalTokens (s.store.used settings.runId) +
      (s.moveTo i (.calling estimate reservation)).unrecordedTokens +
        s.store.allocated settings.runId ≤ settings.maxRunTokens
    rw [hun, max_eq_left (h.used_le hloaded)]
    omega
  · intro k _ _ hk
    have := hothers k
    rw [show Function.update s.stage i (.calling estimate reservation) k = _ from hk] at this
    cases this
  · intro k _ _ hk
    have := hothers k
    rw [show Function.update s.stage i (.calling estimate reservation) k = _ from hk] at this
    cases this
  · intro k reservation tokens hk
    obtain ⟨-, hst⟩ | ⟨-, hst⟩ := update_stage hk
    · cases hst
    · exact h.recording k reservation tokens hst

/-- A call goes on to a stage without the quota lock. -/
theorem Inv.goTo {old : InferenceStage} (h : s.Inv settings) (hstage : s.stage i = old)
    (hne : old ≠ .idle) (hlock : stage.holdsQuotaLock = false)
    (houtstanding : stage.outstanding = old.outstanding)
    (hunrecorded : stage.unrecorded ≤ old.unrecorded)
    (hrecording : ∀ reservation tokens, stage = .recording reservation tokens →
      tokens ≤ reservation := by rintro _ _ ⟨⟩) : (s.moveTo i stage).Inv settings := by
  subst hstage
  refine h.moveTo ?_ (h.loaded rfl hne) houtstanding hunrecorded ?_ ?_ hrecording
  · intro hlock'
    cases hlock.symm.trans hlock'
  · rintro _ _ rfl
    cases hlock
  · rintro _ _ rfl
    cases hlock

theorem Inv.step_call {move : InferenceMove} (h : s.Inv settings)
    (hfrugal : s.Frugal (.call i move)) (hquiet : s.Quiet settings (.call i move))
    (hmove : s.move? settings i move = some t) : t.Inv settings := by
  unfold move? at hmove
  split at hmove
  case h_1 hstage => -- enter
    cases hmove
    refine h.load.moveTo (by rintro ⟨⟩) load_loaded ?_ ?_ (by rintro _ _ ⟨⟩) (by rintro _ _ ⟨⟩)
    · rw [load_stage, hstage]
      rfl
    · rw [load_stage, hstage]
      exact le_rfl
  case h_2 hstage => -- leave
    cases hmove
    exact h.goTo hstage (by simp) rfl rfl le_rfl
  case h_3 hstage => -- request
    split_ifs at hmove <;> cases hmove <;> exact h.goTo hstage (by simp) rfl rfl le_rfl
  case h_4 estimate hstage => -- lockQuota
    split_ifs at hmove with hfree
    cases hmove
    refine h.moveTo (fun _ => Or.inr hfree) (h.loaded hstage (by simp)) (hstage ▸ rfl)
      (hstage ▸ le_rfl) ?_ (by rintro _ _ ⟨⟩)
    rintro _ _ ⟨⟩
    have hle : s.unrecordedTokens ≤ ∑ k, (s.stage k).outstanding :=
      Finset.sum_le_sum fun k _ => InferenceStage.unrecorded_le_outstanding
    have := h.reserved
    omega
  case h_5 estimate remaining hstage => -- readAllocated
    cases hmove
    refine h.moveTo (fun _ => Or.inl (hstage ▸ rfl)) (h.loaded hstage (by simp)) (hstage ▸ rfl)
      (hstage ▸ le_rfl) (by rintro _ _ ⟨⟩) ?_
    rintro _ _ ⟨⟩
    have := h.reading i estimate remaining hstage
    omega
  case h_6 estimate remaining dailyAllowed hstage => -- reserve
    dsimp only at hmove
    split_ifs at hmove with hrefused
    · cases hmove
      exact h.goTo hstage (by simp) rfl rfl le_rfl
    · cases hmove
      have hroom := not_le.mp (not_or.mp hrefused).1
      exact h.reserve hstage (by omega)
  case h_7 estimate reservation usage outputEstimate hstage => -- respond
    cases hmove
    refine h.goTo hstage (by simp) rfl rfl le_rfl ?_
    rintro _ _ ⟨⟩
    rw [Frugal, hstage] at hfrugal
    exact hfrugal
  case h_8 hstage => -- failCall
    cases hmove
    exact h.goTo hstage (by simp) rfl rfl le_rfl
  case h_9 reservation tokens hstage => -- record
    split_ifs at hmove
    cases hmove
    have hloaded := h.loaded hstage (by simp)
    have htokens := h.recording i reservation tokens hstage
    refine h.move (by rintro ⟨⟩) hloaded ((h.used_le hloaded).trans (Nat.le_add_right _ _))
      (hstage ▸ rfl) ?_ rfl (by rintro _ _ ⟨⟩) (by rintro _ _ ⟨⟩)
    rw [hstage]
    exact Nat.add_le_add_left htokens _
  case h_10 hstage => -- cancelRecord
    cases hmove
    exact h.goTo hstage (by simp) rfl rfl le_rfl
  case h_11 reservation hstage => -- store
    cases hmove
    have hloaded := h.loaded hstage (by simp)
    exact h.move (by rintro ⟨⟩) hloaded CollaborationStore.used_saveUsage.le (hstage ▸ rfl)
      (hstage ▸ le_rfl) CollaborationStore.allocated_saveUsage (by rintro _ _ ⟨⟩) (by rintro _ _ ⟨⟩)
  case h_12 hstage => -- failStore
    cases hmove
    exact h.goTo hstage (by simp) rfl rfl le_rfl
  case h_13 reservation recorded hstage => -- release
    split_ifs at hmove
    cases hmove
    have hloaded := h.loaded hstage (by simp)
    refine h.move (by rintro ⟨⟩) hloaded (h.used_le hloaded) ?_ ?_ rfl (by rintro _ _ ⟨⟩)
      (by rintro _ _ ⟨⟩)
    · rw [hstage]
      simp [InferenceStage.outstanding]
    · simp [InferenceStage.unrecorded]
  case h_14 => cases hquiet
  case h_15 hstage => -- cancel
    cases hmove
    exact h.goTo hstage (by simp) rfl rfl le_rfl
  case h_16 hstage =>
    cases hmove
    exact h.goTo hstage (by simp) rfl rfl le_rfl
  case h_17 hstage =>
    cases hmove
    exact h.goTo hstage (by simp) rfl rfl le_rfl
  case h_18 => cases hmove

theorem Inv.step_createJob (h : s.Inv settings) (hquiet : s.Quiet settings (.createJob allocation))
    (hstore : s.store.createJob allocation = .ok store) :
    ({ s with store } : InferenceState n).Inv settings := by
  obtain ⟨hused, hsame | ⟨hparent, hallocated, hlimit⟩⟩ :=
    CollaborationStore.createJob_charge settings.runId_ne hstore
  · refine ⟨h.quota, h.loading, ?_, h.reserved, ?_, h.reading, ?_, h.recording⟩
    · rw [hused]
      exact h.used_le
    · rw [recordedTokens, hused, hsame]
      exact h.bound
    · rw [hsame]
      exact h.granting
  · obtain ⟨hparentLimit, hspent, hgranting⟩ := hquiet hparent
    refine ⟨h.quota, h.loading, ?_, h.reserved, ?_, h.reading, ?_, h.recording⟩
    · rw [hused]
      exact h.used_le
    · rw [recordedTokens, hused, hallocated]
      change max s.budget.totalTokens (s.store.used settings.runId) + s.unrecordedTokens + _ ≤ _
      have : s.unrecordedTokens + max s.budget.totalTokens (s.store.used settings.runId) ≤
          s.store.used settings.runId := by
        cases hloaded : s.budget.loaded with
        | true =>
          rw [max_eq_left (h.used_le hloaded)]
          omega
        | false =>
          obtain ⟨htotal, hidle⟩ := h.loading hloaded
          have hnone : s.unrecordedTokens = 0 := by
            refine Finset.sum_eq_zero fun k _ => ?_
            rw [hidle k]
            rfl
          rw [hnone, htotal, Nat.zero_max, Nat.zero_add]
      omega
    · intro i estimate remaining hi
      have := hgranting i
      rw [show s.stage i = _ from hi] at this
      cases this

theorem Inv.step {a : InferenceAction n} (h : s.Inv settings) (hfrugal : s.Frugal a)
    (hquiet : s.Quiet settings a) (hstep : s.step? settings a = some t) : t.Inv settings := by
  cases a with
  | call i move => exact h.step_call hfrugal hquiet hstep
  | createJob allocation =>
    cases hstore : s.store.createJob allocation with
    | error e =>
      simp only [step?, hstore] at hstep
      cases hstep
      exact h
    | ok store =>
      simp only [step?, hstore] at hstep
      cases hstep
      exact h.step_createJob hquiet hstore

theorem Inv.run {trace : List (InferenceAction n)} (h : s.Inv settings)
    (hfrugal : s.StepsMeet settings Frugal trace)
    (hquiet : s.StepsMeet settings (Quiet settings) trace)
    (hrun : s.run? settings trace = some t) : t.Inv settings := by
  induction trace generalizing s with
  | nil => exact Option.some.inj hrun ▸ h
  | cons a trace ih =>
    obtain ⟨u, hstep, hrun⟩ := Option.bind_eq_some_iff.mp hrun
    exact ih (h.step hfrugal.1 hquiet.1 hstep) (hfrugal.2 u hstep) (hquiet.2 u hstep) hrun

/-- Nothing is reserved before the first call. -/
theorem inv_initial
    (h : store.used settings.runId + store.allocated settings.runId ≤ settings.maxRunTokens) :
    ({ store } : InferenceState n).Inv settings where
  quota _ _ hlock := by cases hlock
  loading _ := ⟨rfl, fun _ => rfl⟩
  used_le hloaded := by cases hloaded
  reserved := by simp [InferenceStage.outstanding]
  bound := by simpa [recordedTokens, unrecordedTokens, InferenceStage.unrecorded] using h
  reading _ _ _ hstage := by cases hstage
  granting _ _ _ hstage := by cases hstage
  recording _ _ _ hstage := by cases hstage

end InferenceState

open InferenceState

/-- In every run of calls that use no more than they reserve, and of jobs that are spawned while
nothing of the run is reserved or in doubt: the budget is never exceeded, and nothing stays
reserved. -/
theorem run_tokens_within_budget {trace : List (InferenceAction n)}
    (hstart : store.used settings.runId + store.allocated settings.runId ≤ settings.maxRunTokens)
    (hfrugal : ({ store } : InferenceState n).StepsMeet settings Frugal trace)
    (hquiet : ({ store } : InferenceState n).StepsMeet settings (Quiet settings) trace)
    (hrun : ({ store } : InferenceState n).run? settings trace = some s) :
    s.recordedTokens settings + s.unrecordedTokens + s.store.allocated settings.runId ≤
        settings.maxRunTokens ∧
      ((∀ i, s.stage i = .idle) → s.budget.reservedTokens = 0) := by
  have h := (inv_initial hstart).run hfrugal hquiet hrun
  refine ⟨h.bound, fun hidle => ?_⟩
  rw [h.reserved]
  simp [hidle, InferenceStage.outstanding]

/-- A job is spawned between two calls; the second call has what the first and the job leave. -/
theorem run_tokens_within_budget_betweenCalls :
    let settings : InferenceSettings := ⟨"r", 250000, 4096, by decide⟩
    ∃ s : InferenceState 1, ({ store := { runs := ["r"] } } : InferenceState 1).run? settings
        [.call 0 .enter, .call 0 (.request 220000), .call 0 .lockQuota, .call 0 .readAllocated,
          .call 0 (.reserve true), .call 0 (.respond { totalTokens := some 221000 } 0),
          .call 0 .record, .call 0 .store, .call 0 .release, .call 0 .leave,
          .createJob { parentRunId := some "r" },
          .call 0 .enter, .call 0 (.request 5000), .call 0 .lockQuota, .call 0 .readAllocated,
          .call 0 (.reserve true)] = some s ∧
      s.unrecordedTokens = 9000 ∧
      s.recordedTokens settings + s.unrecordedTokens + s.store.allocated "r" ≤ 250000 := by
  intro settings
  have hrun : (({ store := { runs := ["r"] } } : InferenceState 1).run? settings
      [.call 0 .enter, .call 0 (.request 220000), .call 0 .lockQuota, .call 0 .readAllocated,
        .call 0 (.reserve true), .call 0 (.respond { totalTokens := some 221000 } 0),
        .call 0 .record, .call 0 .store, .call 0 .release, .call 0 .leave,
        .createJob { parentRunId := some "r" },
        .call 0 .enter, .call 0 (.request 5000), .call 0 .lockQuota, .call 0 .readAllocated,
        .call 0 (.reserve true)]).map (·.unrecordedTokens) = some 9000 := by
    decide +kernel
  obtain ⟨s, hs, hunrecorded⟩ := Option.map_eq_some_iff.mp hrun
  exact ⟨s, hs, hunrecorded, (run_tokens_within_budget (by decide +kernel) (by decide +kernel)
    (by decide +kernel) hs).1⟩

/-- A job is spawned while a call of the run has its reservation, which the store does not show. -/
theorem job_spawned_during_call_exceeds_budget :
    ¬∀ (n : Nat) (settings : InferenceSettings) (store : CollaborationStore)
      (trace : List (InferenceAction n)) (s : InferenceState n),
      store.used settings.runId + store.allocated settings.runId ≤ settings.maxRunTokens →
      ({ store } : InferenceState n).StepsMeet settings Frugal trace →
      ({ store } : InferenceState n).run? settings trace = some s →
      s.recordedTokens settings + s.unrecordedTokens + s.store.allocated settings.runId ≤
          settings.maxRunTokens ∧
        ((∀ i, s.stage i = .idle) → s.budget.reservedTokens = 0) := by
  intro h
  let settings : InferenceSettings := ⟨"r", 250000, 4096, by decide⟩
  let store : CollaborationStore := { runs := ["r"] }
  let trace : List (InferenceAction 1) :=
    [.call 0 .enter, .call 0 (.request 240000), .call 0 .lockQuota, .call 0 .readAllocated,
      .call 0 (.reserve true), .createJob { parentRunId := some "r" }]
  have hrun : (({ store } : InferenceState 1).run? settings trace).map (fun s =>
      (s.recordedTokens settings, s.unrecordedTokens, s.store.allocated "r")) =
        some (0, 244096, 20000) := by
    decide +kernel
  obtain ⟨s, hs, hfound⟩ := Option.map_eq_some_iff.mp hrun
  simp only [Prod.mk.injEq] at hfound
  obtain ⟨hrecorded, hunrecorded, hallocated⟩ := hfound
  have hbound := (h 1 settings store trace s (by decide +kernel) (by decide +kernel) hs).1
  have hallocated' : s.store.allocated settings.runId = 20000 := hallocated
  rw [hrecorded, hunrecorded, hallocated'] at hbound
  revert hbound
  decide

end MultiClaw
