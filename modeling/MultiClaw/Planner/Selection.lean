import MultiClaw.Planner.Execution
import MultiClaw.Planner.VersionRows

/-! The step that is executed next: a plan that is not finished has one. -/
namespace MultiClaw

open Base Relation Toposort PlanExecution

variable {host : Host} {v : PlanVersionRecord} {latest : String → Option PlanStepRunRow}
  {s t : PlanStepRow}

/-- What a version that passed its checks is known to be. -/
structure PlanVersionRecord.Checked (host : Host) (v : PlanVersionRecord) : Prop where
  ordinals : v.steps.map (·.ordinal) = List.range' 1 v.steps.length
  ids : (v.steps.map (·.stepId)).Nodup
  sources : ∀ d ∈ v.dependencies, (v.stepById? d.1).isSome
  targets : ∀ d ∈ v.dependencies, (v.stepById? d.2).isSome
  valid : ∃ validated, validatePlanDraft host v.draft 20 10 20 = .ok validated

theorem throw_guard_eq_ok {ε α β : Type} {c : Prop} [Decidable c] {e : ε} {f : β → Except ε α}
    {x : Except ε α} {a : α} : (if c then (throw e : Except ε β) >>= f else x) = .ok a ↔
      ¬ c ∧ x = .ok a :=
  PlanDraft.guard_eq_ok

theorem checked_of_integrity (h : validateVersionIntegrity host v = .ok ()) :
    v.Checked host := by
  unfold validateVersionIntegrity at h
  simp only [throw_guard_eq_ok, not_not] at h
  obtain ⟨-, hordinals, hids, hsources, htargets, -, hvalid⟩ := h
  split at hvalid
  · cases hvalid
  · rename_i validated hvalidated
    simp only [List.any_eq_true, not_exists, not_and, Bool.not_eq_true,
      Option.isNone_eq_false_iff] at hsources htargets
    exact ⟨hordinals, hids, hsources, htargets, validated, hvalidated⟩

namespace PlanVersionRecord.Checked

variable (h : v.Checked host)

include h

theorem stepById?_eq (hs : s ∈ v.steps) : v.stepById? s.stepId = some s := by
  refine find?_eq_some_of_unique hs (by simp) fun b hb hid => ?_
  exact List.inj_on_of_nodup_map h.ids hb hs (by simpa using hid)

theorem sorted : v.steps.Pairwise (·.ordinal < ·.ordinal) := by
  have hsorted : (v.steps.map (·.ordinal)).Pairwise (· < ·) := by
    rw [h.ordinals]
    exact List.pairwise_lt_range'
  exact List.pairwise_map.mp hsorted

theorem orderedSteps_eq : orderedSteps v.steps = v.steps :=
  (h.sorted.imp fun hlt => .inl hlt).insertionSort_eq

/-- A step waits for another one in the plan if it does in the draft that was checked. -/
theorem draft_dependsOn {a b : String} (hdep : (a, b) ∈ v.dependencies) :
    ∃ s ∈ v.steps, ∃ t ∈ v.steps, s.stepId = a ∧ t.stepId = b ∧
      v.draft.DependsOn s.logicalStepKey t.logicalStepKey := by
  obtain ⟨s, hs⟩ := Option.isSome_iff_exists.mp (h.sources _ hdep)
  obtain ⟨t, ht⟩ := Option.isSome_iff_exists.mp (h.targets _ hdep)
  have hsid : s.stepId = a := by simpa using List.find?_some hs
  have htid : t.stepId = b := by simpa using List.find?_some ht
  have hsmem := List.mem_of_find?_eq_some hs
  refine ⟨s, hsmem, t, List.mem_of_find?_eq_some ht, hsid, htid, ?_⟩
  refine ⟨_, List.mem_map_of_mem hsmem, rfl, List.mem_filterMap.mpr ⟨b, ?_, by simp [ht]⟩⟩
  exact List.mem_map.mpr ⟨(a, b), List.mem_filter.mpr ⟨hdep, by simp [hsid]⟩, rfl⟩

/-- No step waits for itself, over any number of others. -/
theorem acyclic (id : String) :
    ¬ TransGen (fun a b => (a, b) ∈ v.dependencies) id id := by
  obtain ⟨validated, hvalidated⟩ := h.valid
  have hacyclic := ((PlanDraft.validatePlanDraft_eq_ok (by decide) (by decide) (by decide)
    (by decide)).mp hvalidated).1.acyclic
  intro hcircle
  refine hacyclic (((v.stepById? id).map (·.logicalStepKey)).getD "") ?_
  refine hcircle.lift (fun id => ((v.stepById? id).map (·.logicalStepKey)).getD "") ?_
  intro a b hdep
  obtain ⟨s, hs, t, ht, rfl, rfl, hdraft⟩ := h.draft_dependsOn hdep
  simpa [Function.onFun, h.stepById?_eq hs, h.stepById?_eq ht] using hdraft

end PlanVersionRecord.Checked

/-- The latest attempt at a step succeeded. -/
def Succeeded (latest : String → Option PlanStepRunRow) (stepId : String) : Prop :=
  ∃ a ∈ latest stepId, a.status = .succeeded

theorem any_succeeded_iff {stepId : String} :
    (latest stepId).any (·.status == .succeeded) = true ↔ Succeeded latest stepId := by
  rw [Option.any_eq_true]
  simp [Succeeded]

instance (latest : String → Option PlanStepRunRow) (stepId : String) :
    Decidable (Succeeded latest stepId) :=
  decidable_of_iff _ any_succeeded_iff

/-- The latest attempt at a step neither is under way nor has ended it. -/
def Open (latest : String → Option PlanStepRunRow) (stepId : String) : Prop :=
  ∀ a ∈ latest stepId, a.status ≠ .running ∧ a.status ≠ .failedTerminal ∧ a.status ≠ .cancelled

theorem isPlanStepReady_iff {stepId : String} {dependencyIds : List String}
    (hopen : Open latest stepId) : isPlanStepReady stepId dependencyIds latest = true ↔
      ¬ Succeeded latest stepId ∧ ∀ id ∈ dependencyIds, Succeeded latest id := by
  have hself : (latest stepId).all (!·.status.isNonDispatchable) = true ↔
      ¬ Succeeded latest stepId := by
    unfold Succeeded
    unfold Open at hopen
    cases hcurrent : latest stepId with
    | none => simp
    | some a =>
      obtain ⟨hrunning, hfailed, hcancelled⟩ := hopen a hcurrent
      cases hstatus : a.status <;> simp_all [PlanStepRunStatus.isNonDispatchable]
  have hothers : (dependencyIds.all fun id => (latest id).any (·.status == .succeeded)) = true ↔
      ∀ id ∈ dependencyIds, Succeeded latest id := by
    simp only [List.all_eq_true, any_succeeded_iff]
  rw [isPlanStepReady, Bool.and_eq_true, hself, hothers]

theorem mem_dependenciesOf {a b : String} : b ∈ v.dependenciesOf a ↔ (a, b) ∈ v.dependencies := by
  simp [PlanVersionRecord.dependenciesOf]

/-- As long as a step is left, one of the steps that are left waits for none of them. -/
theorem PlanVersionRecord.Checked.exists_ready (h : v.Checked host) (hs : s ∈ v.steps)
    (hleft : ¬ Succeeded latest s.stepId) :
    ∃ t ∈ v.steps, ¬ Succeeded latest t.stepId ∧
      ∀ id ∈ v.dependenciesOf t.stepId, Succeeded latest id := by
  let ids := v.steps.map (·.stepId)
  have hdepends : ∀ a b, (a, b) ∈ v.dependencies → b ∈ ids := by
    intro a b hdep
    obtain ⟨_, _, t, ht, _, rfl, _⟩ := h.draft_dependsOn hdep
    exact List.mem_map_of_mem ht
  have hrest : ∃ id ∈ ids, id ∉ ids.filter (Succeeded latest ·) :=
    ⟨s.stepId, List.mem_map_of_mem hs, by simp [hleft]⟩
  obtain ⟨id, hid, hnot, hdeps⟩ := Toposort.exists_ready h.acyclic hdepends hrest
  obtain ⟨t, ht, rfl⟩ := List.mem_map.mp hid
  refine ⟨t, ht, fun hsucceeded => hnot ?_, fun id hid => ?_⟩
  · exact List.mem_filter.mpr ⟨List.mem_map_of_mem ht, by simpa using hsucceeded⟩
  · exact by simpa using (List.mem_filter.mp (hdeps id (mem_dependenciesOf.mp hid))).2

/-- For a version that passed its checks, a step is chosen unless all have succeeded; the chosen
step is the first one that is left and waits for no step that is left. -/
theorem chooseReadyStep_complete (hv : validateVersionIntegrity host v = .ok ())
    (hopen : ∀ s ∈ v.steps, Open latest s.stepId) :
    (chooseReadyStep v latest = none ↔ ∀ s ∈ v.steps, Succeeded latest s.stepId) ∧
    ∀ s, chooseReadyStep v latest = some s →
      s ∈ v.steps ∧ ¬ Succeeded latest s.stepId ∧
      (∀ id ∈ v.dependenciesOf s.stepId, Succeeded latest id) ∧
      ∀ t ∈ v.steps, t.ordinal < s.ordinal → Succeeded latest t.stepId ∨
        ∃ id ∈ v.dependenciesOf t.stepId, ¬ Succeeded latest id := by
  have h := checked_of_integrity hv
  rw [chooseReadyStep, h.orderedSteps_eq]
  constructor
  · rw [List.find?_eq_none]
    constructor
    · intro hnone s hs
      by_contra hleft
      obtain ⟨t, ht, hready⟩ := h.exists_ready hs hleft
      exact hnone t ht ((isPlanStepReady_iff (hopen t ht)).mpr hready)
    · intro hall s hs hready
      exact ((isPlanStepReady_iff (hopen s hs)).mp hready).1 (hall s hs)
  · intro s hs
    obtain ⟨hready, before, after, hsplit, hbefore⟩ := List.find?_eq_some_iff_append.mp hs
    have hmem : s ∈ v.steps := List.mem_of_find?_eq_some hs
    obtain ⟨hleft, hdeps⟩ := (isPlanStepReady_iff (hopen s hmem)).mp hready
    refine ⟨hmem, hleft, hdeps, fun t ht hlt => ?_⟩
    -- what stands after the chosen step has a larger ordinal
    have hsorted := h.sorted
    have hfront : t ∈ before := by
      rw [hsplit] at ht hsorted
      obtain ht | rfl | ht := by simpa using ht
      · exact ht
      · omega
      · have := (List.pairwise_append.mp hsorted).2.1
        have := List.rel_of_pairwise_cons this ht
        omega
    have hnot := hbefore t hfront
    rw [Bool.not_eq_eq_eq_not, Bool.not_true, ← Bool.not_eq_true,
      isPlanStepReady_iff (hopen t ht)] at hnot
    by_contra hcontra
    push Not at hcontra
    exact hnot hcontra

/-- Two steps, of which the second waits for the first. -/
def samplePlan : ValidatedPlanDraft :=
  ⟨"o", [], "r", [⟨⟨"a", "A", "d", "e", [], 2⟩, 1⟩, ⟨⟨"b", "B", "d", "e", ["a"], 2⟩, 2⟩]⟩

def sampleVersion : PlanVersionRecord :=
  { row := PlanRepository.versionRow ⟨"t", "w", "s", "p"⟩ 1 samplePlan none none 0
    constraints := []
    steps := PlanRepository.stepRows ⟨"t", "w", "s", "p"⟩ 1 samplePlan (fun _ => none) id
    dependencies := [("b", "a")] }

theorem chooseReadyStep_complete_sample :
    validateVersionIntegrity .ascii sampleVersion = .ok () ∧
      ((chooseReadyStep sampleVersion fun _ => none) = none ↔
        ∀ s ∈ sampleVersion.steps, Succeeded (fun _ => none) s.stepId) := by
  have hreads : ReadsAs 1 samplePlan (fun _ => none) id sampleVersion :=
    ⟨rfl, rfl, by decide, by decide, by decide⟩
  have horder : samplePlan.InOrder := ⟨by decide, by decide, by decide, by decide, by decide⟩
  have hagain : validatePlanDraft .ascii samplePlan.draft 20 10 20 = .ok samplePlan :=
    eq_ok_of_toOption (by decide +kernel)
  have hv : validateVersionIntegrity .ascii sampleVersion = .ok () :=
    hreads.validateVersionIntegrity_eq_ok horder hagain (by decide) rfl rfl rfl rfl
  have hopen : ∀ s ∈ sampleVersion.steps, Open (fun _ => none) s.stepId :=
    fun _ _ _ ha => by cases ha
  exact ⟨hv, (chooseReadyStep_complete hv hopen).1⟩

end MultiClaw
