import MultiClaw.Planner.ValidationSpec

/-! A plan that was validated is valid, and validating it again changes nothing. -/
namespace MultiClaw

open Base Toposort

variable {host : Host} {d : PlanDraft} {ordered : List String}

/-- The draft that a validated plan reads as. -/
def ValidatedPlanDraft.draft (v : ValidatedPlanDraft) : PlanDraft :=
  { objective := v.objective, constraints := v.constraints
    generationReason := v.generationReason, steps := v.steps.map (·.toPlanDraftStep) }

/-- A step whose dependencies follow the order of the plan. -/
def PlanDraftStep.inOrder (s : PlanDraftStep) (ordered : List String) : PlanDraftStep :=
  { s with dependsOn := s.dependsOn.insertionSort fun a b => ordered.idxOf a ≤ ordered.idxOf b }

namespace PlanDraft

theorem arrange_draft_steps : (d.arrange ordered).draft.steps =
    (ordered.filterMap d.byKey?).map (·.inOrder ordered) := by
  rw [ValidatedPlanDraft.draft, arrange_steps, List.map_map]
  conv_rhs => rw [← List.zipIdx_map_fst 0 (ordered.filterMap d.byKey?), List.map_map]
  rfl

section Again

variable (hgraph : d.IsGraph) (hordered : ordered.Perm d.keys)

include hgraph hordered

theorem mem_arrange_draft {s : PlanDraftStep} : s ∈ (d.arrange ordered).draft.steps ↔
    ∃ st ∈ d.steps, s = st.inOrder ordered := by
  rw [arrange_draft_steps, List.mem_map]
  have hperm := filterMap_byKey?_perm hgraph hordered
  exact ⟨fun ⟨st, hst, h⟩ => ⟨st, hperm.mem_iff.mp hst, h.symm⟩,
    fun ⟨st, hst, h⟩ => ⟨st, hperm.mem_iff.mpr hst, h.symm⟩⟩

theorem arrange_draft_keys : (d.arrange ordered).draft.keys = ordered := by
  rw [keys, ValidatedPlanDraft.draft, List.map_map]
  exact arrange_keys hgraph fun k hk => hordered.mem_iff.mp hk

theorem arrange_draft_dependsOn (a b : String) :
    (d.arrange ordered).draft.DependsOn a b ↔ d.DependsOn a b := by
  constructor
  · rintro ⟨s, hs, rfl, hb⟩
    obtain ⟨st, hst, rfl⟩ := (mem_arrange_draft hgraph hordered).mp hs
    exact ⟨st, hst, rfl, by simpa [PlanDraftStep.inOrder] using hb⟩
  · rintro ⟨st, hst, rfl, hb⟩
    exact ⟨st.inOrder ordered, (mem_arrange_draft hgraph hordered).mpr ⟨st, hst, rfl⟩, rfl,
      by simpa [PlanDraftStep.inOrder] using hb⟩

theorem arrange_draft_isGraph : (d.arrange ordered).draft.IsGraph where
  unique := by
    rw [arrange_draft_keys hgraph hordered]
    exact hordered.nodup_iff.mpr hgraph.unique
  listedOnce s hs := by
    obtain ⟨st, hst, rfl⟩ := (mem_arrange_draft hgraph hordered).mp hs
    exact (List.perm_insertionSort _ _).nodup_iff.mpr (hgraph.listedOnce st hst)
  exist s hs k hk := by
    obtain ⟨st, hst, rfl⟩ := (mem_arrange_draft hgraph hordered).mp hs
    obtain ⟨hne, hmem⟩ := hgraph.exist st hst k (by simpa [PlanDraftStep.inOrder] using hk)
    exact ⟨hne, by rw [arrange_draft_keys hgraph hordered]; exact hordered.mem_iff.mpr hmem⟩

/-- A plan that is arranged in its own order stays as it is. -/
theorem arrange_arrange : (d.arrange ordered).draft.arrange ordered = d.arrange ordered := by
  have hgraph' := arrange_draft_isGraph hgraph hordered
  have hkeys := arrange_draft_keys hgraph hordered
  have hsteps : ordered.filterMap (d.arrange ordered).draft.byKey? =
      (d.arrange ordered).draft.steps := by
    have hall := filterMap_byKey?_keys hgraph'
    rwa [hkeys] at hall
  have harranged :
      ((d.arrange ordered).draft.arrange ordered).steps = (d.arrange ordered).steps := by
    rw [arrange_steps, hsteps, arrange_draft_steps, arrange_steps, List.zipIdx_map, List.map_map]
    refine List.map_congr_left fun p _ => ?_
    have hsorted : ((p.1.inOrder ordered).dependsOn.insertionSort
        fun a b => ordered.idxOf a ≤ ordered.idxOf b) = (p.1.inOrder ordered).dependsOn :=
      (List.pairwise_insertionSort _ _).insertionSort_eq
    simp only [Function.comp, Prod.map, PlanDraftStep.placed, hsorted, id]
    rfl
  unfold arrange at harranged ⊢
  simp only [ValidatedPlanDraft.mk.injEq]
  exact ⟨rfl, rfl, rfl, harranged⟩

end Again

variable {maxSteps maxDepth maxAttempts : Nat}

theorem mem_arrange_draft_texts (hgraph : d.IsGraph) (hordered : ordered.Perm d.keys) {t : String} :
    t ∈ (d.arrange ordered).draft.texts ↔ t ∈ d.texts := by
  have hsteps : (∃ s ∈ (d.arrange ordered).draft.steps, t ∈ s.texts) ↔
      ∃ s ∈ d.steps, t ∈ s.texts := by
    simp only [mem_arrange_draft hgraph hordered]
    constructor
    · rintro ⟨_, ⟨st, hst, rfl⟩, ht⟩
      exact ⟨st, hst, by simpa [PlanDraftStep.texts, PlanDraftStep.inOrder] using ht⟩
    · rintro ⟨st, hst, ht⟩
      exact ⟨_, ⟨st, hst, rfl⟩, by simpa [PlanDraftStep.texts, PlanDraftStep.inOrder] using ht⟩
  simp only [texts, List.mem_append, List.mem_flatMap, hsteps]
  rfl

theorem arrange_draft_fieldsValid (hgraph : d.IsGraph) (hordered : ordered.Perm d.keys)
    (h : d.fieldsValid = true) : (d.arrange ordered).draft.fieldsValid = true := by
  have hlength : (d.arrange ordered).draft.steps.length = d.steps.length := by
    rw [arrange_draft_steps, List.length_map, (filterMap_byKey?_perm hgraph hordered).length_eq]
  have hstep : ∀ s ∈ (d.arrange ordered).draft.steps, s.fieldsValid = true := by
    intro s hs
    obtain ⟨st, hst, rfl⟩ := (mem_arrange_draft hgraph hordered).mp hs
    simp only [fieldsValid, Bool.and_eq_true, List.all_eq_true] at h
    have hdependsOn : (st.inOrder ordered).dependsOn.length = st.dependsOn.length := by
      simp [PlanDraftStep.inOrder]
    have hvalid := h.2 st hst
    unfold PlanDraftStep.fieldsValid at hvalid ⊢
    rwa [hdependsOn]
  simp only [fieldsValid, Bool.and_eq_true, List.all_eq_true, hlength] at h ⊢
  exact ⟨h.1, hstep⟩

/-- What was validated is valid, and validating it again changes nothing. -/
theorem validatePlanDraft_again {v : ValidatedPlanDraft} (hsteps : 0 < maxSteps)
    (hdepth : 0 < maxDepth) (hattempts : 0 < maxAttempts) (hlimit : maxAttempts ≤ 20)
    (h : validatePlanDraft host d maxSteps maxDepth maxAttempts = .ok v) :
    validatePlanDraft host v.draft 20 10 20 = .ok v := by
  obtain ⟨hvalid, ordered, hleast, rfl⟩ :=
    (validatePlanDraft_eq_ok hsteps hdepth hattempts (by decide)).mp h
  have hgraph := hvalid.graph
  have hordered : ordered.Perm d.keys := hleast.1.1
  have hkeys := arrange_draft_keys hgraph hordered
  have hdeps : (d.arrange ordered).draft.DependsOn = d.DependsOn := by
    funext a b
    exact propext (arrange_draft_dependsOn hgraph hordered a b)
  have hleast' : (d.arrange ordered).draft.LeastOrder ordered := by
    unfold LeastOrder
    rw [hdeps, hkeys]
    have horiginal : (d.arrange ordered).draft.original = ordered.idxOf := by
      funext k
      rw [original, hkeys]
    rw [horiginal]
    exact isLeastOrder_self hleast.1.2 (hordered.nodup_iff.mpr hgraph.unique)
  refine (validatePlanDraft_eq_ok (by decide) (by decide) (by decide) (by decide)).mpr
    ⟨⟨arrange_draft_isGraph hgraph hordered, ?_, ?_, ?_, ?_, ?_, ?_⟩, ordered, hleast',
      (arrange_arrange hgraph hordered).symm⟩
  · unfold Acyclic
    rw [hdeps]
    exact hvalid.acyclic
  · unfold ChainsWithin
    rw [hdeps, hkeys]
    intro chain hchain hmem
    refine (hvalid.chains chain hchain fun k hk => hordered.mem_iff.mp (hmem k hk)).trans ?_
    omega
  · have hlength : (d.arrange ordered).draft.steps.length = d.steps.length := by
      rw [arrange_draft_steps, List.length_map]
      exact (filterMap_byKey?_perm hgraph hordered).length_eq
    rw [hlength]
    exact hvalid.count.trans (by omega)
  · intro s hs
    obtain ⟨st, hst, rfl⟩ := (mem_arrange_draft hgraph hordered).mp hs
    exact (hvalid.attempts st hst).trans hlimit
  · intro o ho
    rw [leastOrder_unique ho hleast', arrange_arrange hgraph hordered]
    exact hvalid.content ordered hleast
  · intro t ht
    exact hvalid.clean t ((mem_arrange_draft_texts hgraph hordered).mp ht)

end PlanDraft

end MultiClaw
