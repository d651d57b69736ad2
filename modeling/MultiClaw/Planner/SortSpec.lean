import MultiClaw.Base.Toposort
import MultiClaw.Planner.Validation

/-! What the topological sort of a draft computes, and when it fails. -/
namespace MultiClaw

open Base Toposort

variable {d : PlanDraft} {maxDepth : Nat} {key a b : String} {cs : List String} {s s' : PlanSort}

namespace PlanDraft

/-- The first step names the second among its dependencies. -/
def DependsOn (d : PlanDraft) (a b : String) : Prop :=
  ∃ s ∈ d.steps, s.logicalStepKey = a ∧ b ∈ s.dependsOn

/-- The steps form a graph: keys are unique, and dependencies are other steps, each listed once. -/
structure IsGraph (d : PlanDraft) : Prop where
  unique : d.keys.Nodup
  listedOnce : ∀ s ∈ d.steps, s.dependsOn.Nodup
  exist : ∀ s ∈ d.steps, ∀ k ∈ s.dependsOn, k ≠ s.logicalStepKey ∧ k ∈ d.keys

theorem mem_keys_of_step {st : PlanDraftStep} (h : st ∈ d.steps) : st.logicalStepKey ∈ d.keys :=
  List.mem_map_of_mem h

theorem original_inj (ha : a ∈ d.keys) (h : d.original a = d.original b) : a = b :=
  (List.idxOf_inj ha).mp h

theorem DependsOn.mem_keys (h : d.DependsOn a b) : a ∈ d.keys := by
  obtain ⟨st, hst, rfl, -⟩ := h
  exact mem_keys_of_step hst

theorem mem_outgoing : a ∈ d.outgoing b ↔ d.DependsOn a b := by
  simp only [outgoing, List.mem_map, List.mem_filter, decide_eq_true_eq, DependsOn]
  exact ⟨fun ⟨st, ⟨hst, hb⟩, ha⟩ => ⟨st, hst, ha, hb⟩,
    fun ⟨st, hst, ha, hb⟩ => ⟨st, ⟨hst, hb⟩, ha⟩⟩

section Graph

variable (hgraph : d.IsGraph)

include hgraph

theorem step_eq {st st' : PlanDraftStep} (hst : st ∈ d.steps) (hst' : st' ∈ d.steps)
    (h : st.logicalStepKey = st'.logicalStepKey) : st = st' :=
  List.inj_on_of_nodup_map hgraph.unique hst hst' h

theorem byKey?_eq {st : PlanDraftStep} (hst : st ∈ d.steps) :
    d.byKey? st.logicalStepKey = some st := by
  cases hfind : d.byKey? st.logicalStepKey with
  | none => simpa using List.find?_eq_none.mp hfind st hst
  | some st' =>
    have hkey : st'.logicalStepKey = st.logicalStepKey := by
      simpa using List.find?_some hfind
    rw [step_eq hgraph (List.mem_of_find?_eq_some hfind) hst hkey]

theorem dependsOn_step {st : PlanDraftStep} (hst : st ∈ d.steps) :
    d.DependsOn st.logicalStepKey b ↔ b ∈ st.dependsOn := by
  constructor
  · rintro ⟨st', hst', hkey, hb⟩
    rwa [step_eq hgraph hst' hst hkey] at hb
  · exact fun hb => ⟨st, hst, rfl, hb⟩

theorem DependsOn.dependency_mem (h : d.DependsOn a b) : b ∈ d.keys := by
  obtain ⟨st, hst, -, hb⟩ := h
  exact (hgraph.exist st hst b hb).2

theorem outgoing_nodup : (d.outgoing key).Nodup :=
  (List.Sublist.map _ List.filter_sublist).nodup hgraph.unique

theorem notMem_outgoing : key ∉ d.outgoing key := by
  intro h
  obtain ⟨st, hst, hkey, hdep⟩ := mem_outgoing.mp h
  exact (hgraph.exist st hst key hdep).1 hkey.symm

end Graph

end PlanDraft

namespace PlanSort

/-- What counting down the children of a step does. -/
structure Visited (d : PlanDraft) (maxDepth : Nat) (key : String) (cs : List String)
    (s s' : PlanSort) : Prop where
  ordered : s'.ordered = s.ordered
  indegree : ∀ k, s'.indegree k = if k ∈ cs then s.indegree k - 1 else s.indegree k
  depth : ∀ k, s'.depth k = if k ∈ cs then max (s.depth k) (s.depth key + 1) else s.depth k
  bound : ∀ k ∈ cs, s'.depth k ≤ min maxDepth 10
  ready : ∀ k, k ∈ s'.ready ↔ k ∈ s.ready ∨ k ∈ cs ∧ s.indegree k - 1 = 0
  sorted : s.ready.Pairwise (fun a b => d.original a ≤ d.original b) →
    s'.ready.Pairwise fun a b => d.original a ≤ d.original b
  nodup : s.ready.Nodup → (∀ k ∈ cs, k ∉ s.ready) → s'.ready.Nodup

theorem visit_ok {child : String}
    (h : max (s.depth child) (s.depth key + 1) ≤ min maxDepth 10) :
    ∃ s', visit d maxDepth key s child = .ok s' ∧ Visited d maxDepth key [child] s s' := by
  refine ⟨_, if_neg (Nat.not_lt.mpr h), ?_⟩
  constructor
  · rfl
  · intro k
    by_cases hk : k = child <;> simp [hk, Function.update]
  · intro k
    by_cases hk : k = child <;> simp [hk, Function.update]
  · simpa using h
  · intro k
    dsimp only
    split_ifs with hzero
    · simp only [List.mem_insertionSort, List.mem_append, List.mem_singleton]
      exact ⟨fun h => h.imp_right fun hk => ⟨hk, hk ▸ hzero⟩, fun h => h.imp_right And.left⟩
    · simp only [List.mem_singleton]
      exact ⟨.inl, fun h => h.resolve_right fun hkz => hzero (hkz.1 ▸ hkz.2)⟩
  · intro hsorted
    dsimp only
    split_ifs
    · exact List.pairwise_insertionSort _ _
    · exact hsorted
  · intro hnodup hfresh
    dsimp only
    split_ifs
    · refine (List.perm_insertionSort _ _).nodup_iff.mpr ?_
      exact List.nodup_append.mpr ⟨hnodup, List.nodup_singleton _, by
        simpa using fun k hk => (by rintro rfl; exact hfresh k (by simp) hk)⟩
    · exact hnodup

theorem Visited.cons {child : String} {s₁ : PlanSort} (hchild : child ∉ cs)
    (hkey : key ≠ child) (h : Visited d maxDepth key [child] s s₁)
    (h' : Visited d maxDepth key cs s₁ s') : Visited d maxDepth key (child :: cs) s s' := by
  have hother : ∀ k, k ∈ cs → k ≠ child := fun k hk heq => hchild (heq ▸ hk)
  have hdegree : ∀ k ∈ cs, s₁.indegree k = s.indegree k := by
    intro k hk
    simp [h.indegree, hother k hk]
  constructor
  · exact h'.ordered.trans h.ordered
  · intro k
    by_cases hk : k = child
    · subst hk
      simp [h'.indegree, h.indegree, hchild]
    · simp [h'.indegree, h.indegree, hk]
  · intro k
    have hsame : s₁.depth key = s.depth key := by simp [h.depth, hkey]
    by_cases hk : k = child
    · subst hk
      simp [h'.depth, h.depth, hchild]
    · simp [h'.depth, h.depth, hk, hkey]
  · intro k hk
    rcases List.mem_cons.mp hk with rfl | hk
    · have := h.bound k (by simp)
      simpa [h'.depth, hchild] using this
    · exact h'.bound k hk
  · intro k
    rw [h'.ready, h.ready]
    constructor
    · rintro ((hk | ⟨hk, hz⟩) | ⟨hk, hz⟩)
      · exact .inl hk
      · exact .inr ⟨by simpa using .inl (by simpa using hk), hz⟩
      · exact .inr ⟨List.mem_cons_of_mem _ hk, hdegree k hk ▸ hz⟩
    · rintro (hk | ⟨hk, hz⟩)
      · exact .inl (.inl hk)
      · rcases List.mem_cons.mp hk with rfl | hk
        · exact .inl (.inr ⟨by simp, hz⟩)
        · exact .inr ⟨hk, (hdegree k hk).symm ▸ hz⟩
  · exact fun hsorted => h'.sorted (h.sorted hsorted)
  · intro hnodup hfresh
    refine h'.nodup (h.nodup hnodup fun k hk => hfresh k (by simp_all)) fun k hk hmem => ?_
    rcases (h.ready k).mp hmem with hmem | ⟨hk', -⟩
    · exact hfresh k (List.mem_cons_of_mem _ hk) hmem
    · exact hother k hk (by simpa using hk')

/-- The children of a step are counted down unless one of them lies too deep. -/
theorem foldlM_visit (hnodup : cs.Nodup) (hkey : key ∉ cs) (s : PlanSort) :
    (∃ s', cs.foldlM (visit d maxDepth key) s = .ok s' ∧ Visited d maxDepth key cs s s') ∨
      (∃ e, cs.foldlM (visit d maxDepth key) s = .error e) ∧
        ∃ c ∈ cs, min maxDepth 10 < max (s.depth c) (s.depth key + 1) := by
  induction cs generalizing s with
  | nil =>
    refine .inl ⟨s, rfl, rfl, by simp, by simp, by simp, by simp, id, fun h _ => h⟩
  | cons child cs ih =>
    obtain ⟨hchild, hcs⟩ := List.nodup_cons.mp hnodup
    obtain ⟨hne, hkey⟩ := not_or.mp (mt List.mem_cons.mpr hkey)
    by_cases hdeep : min maxDepth 10 < max (s.depth child) (s.depth key + 1)
    · refine .inr ⟨⟨"dependency depth exceeds configured limit", ?_⟩, child, by simp, hdeep⟩
      have hvisit : visit d maxDepth key s child = .error _ := if_pos hdeep
      rw [List.foldlM_cons, hvisit]
      rfl
    · obtain ⟨s₁, hvisit, hvisited⟩ := visit_ok (d := d) (Nat.not_lt.mp hdeep)
      rw [List.foldlM_cons, hvisit]
      rcases ih hcs hkey s₁ with ⟨s', hfold, hrest⟩ | ⟨⟨e, hfold⟩, c, hc, hdeep'⟩
      · exact .inl ⟨s', hfold, hvisited.cons hchild hne hrest⟩
      · refine .inr ⟨⟨e, hfold⟩, c, List.mem_cons_of_mem _ hc, ?_⟩
        have hcne : c ≠ child := fun heq => hchild (heq ▸ hc)
        simpa [hvisited.depth, hcne, hne] using hdeep'

/-- A chain of dependencies from a step downwards. -/
def ChainFrom (d : PlanDraft) (k : String) (n : Nat) : Prop :=
  ∃ chain, (k :: chain).IsChain d.DependsOn ∧ (∀ x ∈ k :: chain, x ∈ d.keys) ∧
    (k :: chain).length = n

/-- The invariant of the sort: what is ready, how many dependencies of a step are still to come,
and that the depth of a step is the length of a chain and grows along the dependencies. -/
structure Sorting (d : PlanDraft) (maxDepth : Nat) (s : PlanSort) : Prop where
  ready : ∀ k, k ∈ s.ready ↔ Ready d.DependsOn d.keys s.ordered k
  sorted : s.ready.Pairwise fun a b => d.original a ≤ d.original b
  nodup : s.ready.Nodup
  indegree : ∀ st ∈ d.steps,
    s.indegree st.logicalStepKey = st.dependsOn.countP (· ∉ s.ordered)
  closed : ∀ k ∈ s.ordered, ∀ b, d.DependsOn k b → b ∈ s.ordered
  positive : ∀ k, 1 ≤ s.depth k
  bound : ∀ k, s.depth k ≤ min maxDepth 10
  grows : ∀ a b, d.DependsOn a b → b ∈ s.ordered → s.depth b + 1 ≤ s.depth a
  chain : ∀ k ∈ d.keys, ChainFrom d k (s.depth k)

theorem ChainFrom.cons {n : Nat} (h : ChainFrom d b n) (hdep : d.DependsOn a b) :
    ChainFrom d a (n + 1) := by
  obtain ⟨chain, hchain, hkeys, rfl⟩ := h
  refine ⟨b :: chain, List.isChain_cons_cons.mpr ⟨hdep, hchain⟩, ?_, rfl⟩
  intro x hx
  rcases List.mem_cons.mp hx with rfl | hx
  · exact hdep.mem_keys
  · exact hkeys x hx

/-- One dependency less is to come once it was ordered. -/
theorem countP_append_ordered {deps ordered : List String} (hnodup : deps.Nodup)
    (hkey : key ∉ ordered) : deps.countP (· ∉ ordered ++ [key]) =
      if key ∈ deps then deps.countP (· ∉ ordered) - 1 else deps.countP (· ∉ ordered) := by
  induction deps with
  | nil => simp
  | cons x deps ih =>
    obtain ⟨hx, hnodup⟩ := List.nodup_cons.mp hnodup
    have ih := ih hnodup
    by_cases hxk : x = key
    · subst hxk
      simp only [List.countP_cons, List.mem_cons, true_or, if_true, ih, if_neg hx]
      simp [hkey]
    · have hpos : key ∈ deps → 0 < deps.countP (· ∉ ordered) := fun hmem =>
        List.countP_pos_iff.mpr ⟨key, hmem, by simpa using hkey⟩
      have hsame : decide (x ∉ ordered ++ [key]) = decide (x ∉ ordered) := by simp [hxk]
      rw [List.countP_cons, List.countP_cons, ih, hsame]
      simp only [List.mem_cons, Ne.symm hxk, false_or]
      by_cases hmem : key ∈ deps
      · have := hpos hmem
        rw [if_pos hmem, if_pos hmem]
        omega
      · rw [if_neg hmem, if_neg hmem]

theorem Sorting.head (h : Sorting d maxDepth s) {ready : List String}
    (hready : s.ready = key :: ready) : Ready d.DependsOn d.keys s.ordered key ∧
      ∀ k, Ready d.DependsOn d.keys s.ordered k → d.original key ≤ d.original k := by
  have hkey : Ready d.DependsOn d.keys s.ordered key := (h.ready key).mp (hready ▸ by simp)
  refine ⟨hkey, fun k hk => ?_⟩
  have hmem : k ∈ key :: ready := hready ▸ (h.ready k).mpr hk
  have hsorted := hready ▸ h.sorted
  rcases List.mem_cons.mp hmem with rfl | hmem
  · exact le_rfl
  · exact (List.pairwise_cons.mp hsorted).1 k hmem

/-- Ordering the first ready step and counting down its children keeps the invariant. -/
theorem Sorting.next (hgraph : d.IsGraph) (h : Sorting d maxDepth s) {ready : List String}
    (hready : s.ready = key :: ready)
    (hvisited : Visited d maxDepth key (d.outgoing key)
      { s with ready, ordered := s.ordered ++ [key] } s') : Sorting d maxDepth s' := by
  obtain ⟨⟨hkeys, hfresh, hdone⟩, -⟩ := h.head hready
  have hordered : s'.ordered = s.ordered ++ [key] := hvisited.ordered
  have hnotReady : key ∉ ready := (List.nodup_cons.mp (hready ▸ h.nodup)).1
  have hchildren : ∀ k, d.DependsOn k key → k ∉ s.ordered := fun k hk hmem =>
    hfresh (h.closed k hmem key hk)
  -- a child becomes ready when the step was the last of its dependencies
  have hlast : ∀ k, d.DependsOn k key →
      (s.indegree k - 1 = 0 ↔ ∀ b, d.DependsOn k b → b ∈ s.ordered ++ [key]) := by
    rintro k ⟨st, hst, rfl, hdep⟩
    have hcount := countP_append_ordered (hgraph.listedOnce st hst) hfresh
    rw [if_pos hdep, ← h.indegree st hst] at hcount
    rw [← hcount, List.countP_eq_zero]
    simp only [decide_eq_true_eq, not_not]
    exact forall_congr' fun b => by rw [PlanDraft.dependsOn_step hgraph hst]
  constructor
  · intro k
    rw [hvisited.ready, hordered]
    simp only [PlanDraft.mem_outgoing]
    constructor
    · rintro (hk | ⟨hdep, hzero⟩)
      · obtain ⟨hk₁, hk₂, hk₃⟩ := (h.ready k).mp (hready ▸ List.mem_cons_of_mem _ hk)
        refine ⟨hk₁, ?_, fun b hb => List.mem_append_left _ (hk₃ b hb)⟩
        have hne : k ≠ key := fun heq => hnotReady (heq ▸ hk)
        simpa [hne] using hk₂
      · have hne : k ≠ key := by
          rintro rfl
          exact PlanDraft.notMem_outgoing hgraph (PlanDraft.mem_outgoing.mpr hdep)
        exact ⟨hdep.mem_keys, by simpa [hne] using hchildren k hdep, (hlast k hdep).mp hzero⟩
    · rintro ⟨hk₁, hk₂, hk₃⟩
      have hne : k ≠ key := by
        rintro rfl
        simp at hk₂
      by_cases hdep : d.DependsOn k key
      · exact .inr ⟨hdep, (hlast k hdep).mpr hk₃⟩
      · have hk : Ready d.DependsOn d.keys s.ordered k := by
          refine ⟨hk₁, fun hmem => hk₂ (List.mem_append_left _ hmem), fun b hb => ?_⟩
          rcases List.mem_append.mp (hk₃ b hb) with hb' | hb'
          · exact hb'
          · exact absurd ((List.mem_singleton.mp hb') ▸ hb) hdep
        have hmem : k ∈ key :: ready := hready ▸ (h.ready k).mpr hk
        exact .inl ((List.mem_cons.mp hmem).resolve_left hne)
  · exact hvisited.sorted (List.pairwise_cons.mp (hready ▸ h.sorted)).2
  · refine hvisited.nodup (List.nodup_cons.mp (hready ▸ h.nodup)).2 fun k hk hmem => ?_
    have hk' := (h.ready k).mp (hready ▸ List.mem_cons_of_mem _ hmem)
    exact hfresh (hk'.2.2 key (PlanDraft.mem_outgoing.mp hk))
  · intro st hst
    rw [hvisited.indegree, hordered, countP_append_ordered (hgraph.listedOnce st hst) hfresh]
    simp only [PlanDraft.mem_outgoing, PlanDraft.dependsOn_step hgraph hst, h.indegree st hst]
  · intro k hk b hb
    rw [hordered] at hk ⊢
    rcases List.mem_append.mp hk with hk | hk
    · exact List.mem_append_left _ (h.closed k hk b hb)
    · rw [List.mem_singleton.mp hk] at hb
      exact List.mem_append_left _ (hdone b hb)
  · intro k
    have := h.positive k
    rw [hvisited.depth]
    split_ifs
    · exact this.trans (le_max_left _ _)
    · exact this
  · intro k
    by_cases hk : k ∈ d.outgoing key
    · exact hvisited.bound k hk
    · rw [hvisited.depth, if_neg hk]
      exact h.bound k
  · intro a b hdep hb
    rw [hordered] at hb
    -- the depth of a step that was ordered stays as it is
    have hfinal : s'.depth b = s.depth b := by
      rw [hvisited.depth, if_neg]
      intro hmem
      have hbkey := PlanDraft.mem_outgoing.mp hmem
      rcases List.mem_append.mp hb with hb | hb
      · exact hchildren b hbkey hb
      · exact PlanDraft.notMem_outgoing hgraph ((List.mem_singleton.mp hb) ▸ hmem)
    rw [hfinal, hvisited.depth]
    rcases List.mem_append.mp hb with hb | hb
    · have := h.grows a b hdep hb
      split_ifs
      · exact this.trans (le_max_left _ _)
      · exact this
    · obtain rfl := List.mem_singleton.mp hb
      rw [if_pos (PlanDraft.mem_outgoing.mpr hdep)]
      exact le_max_right _ _
  · intro k hk
    rw [hvisited.depth]
    split_ifs with hchild
    · rcases max_choice (s.depth k) (s.depth key + 1) with hmax | hmax <;> rw [hmax]
      · exact h.chain k hk
      · exact (h.chain key hkeys).cons (PlanDraft.mem_outgoing.mp hchild)
    · exact h.chain k hk

/-- The state before the first round. -/
def initial (d : PlanDraft) : PlanSort where
  ready := (d.steps.filter (·.dependsOn.isEmpty)).map (·.logicalStepKey)
  indegree := fun key => ((d.byKey? key).map (·.dependsOn.length)).getD 0

theorem initial_sorting (hgraph : d.IsGraph) (hpos : 0 < maxDepth) :
    Sorting d maxDepth (initial d) := by
  have hsublist : (initial d).ready.Sublist d.keys := List.Sublist.map _ List.filter_sublist
  have hone : 1 ≤ min maxDepth 10 := by omega
  constructor
  · intro k
    simp only [initial, List.mem_map, List.mem_filter, List.isEmpty_iff]
    constructor
    · rintro ⟨st, ⟨hst, hnone⟩, rfl⟩
      refine ⟨PlanDraft.mem_keys_of_step hst, List.not_mem_nil, fun b hb => ?_⟩
      rw [PlanDraft.dependsOn_step hgraph hst, hnone] at hb
      exact hb
    · rintro ⟨hk, -, hdone⟩
      obtain ⟨st, hst, rfl⟩ := List.mem_map.mp hk
      refine ⟨st, ⟨hst, List.eq_nil_iff_forall_not_mem.mpr fun b hb => ?_⟩, rfl⟩
      exact absurd (hdone b ⟨st, hst, rfl, hb⟩) List.not_mem_nil
  · -- positions grow along the list of keys
    refine List.Pairwise.sublist hsublist
      (List.pairwise_iff_getElem.mpr fun i j hi hj hij => ?_)
    rw [PlanDraft.original, PlanDraft.original, hgraph.unique.idxOf_getElem,
      hgraph.unique.idxOf_getElem]
    exact hij.le
  · exact hsublist.nodup hgraph.unique
  · intro st hst
    simp [initial, PlanDraft.byKey?_eq hgraph hst]
  · exact fun k hk => absurd hk List.not_mem_nil
  · exact fun k => le_rfl
  · exact fun k => hone
  · exact fun a b _ hb => absurd hb List.not_mem_nil
  · exact fun k hk => ⟨[], List.isChain_singleton _, by simpa using hk, rfl⟩

/-- The loop takes the least ready step until none is ready, or meets a chain that is too long. -/
theorem run_spec (hgraph : d.IsGraph) (n : Nat) (h : Sorting d maxDepth s)
    (hnodup : s.ordered.Nodup) (hsub : s.ordered ⊆ d.keys)
    (hn : s.ordered.length + n = d.keys.length) :
    (∃ s' rest, run d maxDepth n s = .ok s' ∧ Sorting d maxDepth s' ∧
        s'.ordered = s.ordered ++ rest ∧
        Greedy d.DependsOn d.keys d.original s.ordered rest) ∨
      (∃ e, run d maxDepth n s = .error e) ∧ ∃ k m, ChainFrom d k m ∧ min maxDepth 10 < m := by
  induction n generalizing s with
  | zero =>
    refine .inl ⟨s, [], rfl, h, by simp, .stop fun k hk => hk.2.1 ?_⟩
    have hperm := (hnodup.subperm hsub).perm_of_length_le (by omega)
    exact hperm.mem_iff.mpr hk.1
  | succ n ih =>
    cases hready : s.ready with
    | nil =>
      refine .inl ⟨s, [], by simp [run, hready], h, by simp, .stop fun k hk => ?_⟩
      have := (h.ready k).mpr hk
      rw [hready] at this
      exact absurd this List.not_mem_nil
    | cons key ready =>
      obtain ⟨hkey, hleast⟩ := h.head hready
      obtain ⟨hkeys, hfresh, -⟩ := id hkey
      rcases foldlM_visit (PlanDraft.outgoing_nodup hgraph) (PlanDraft.notMem_outgoing hgraph)
        { s with ready, ordered := s.ordered ++ [key] } with
        ⟨s₁, hfold, hvisited⟩ | ⟨⟨e, hfold⟩, c, hc, hdeep⟩
      · have hs₁ := h.next hgraph hready hvisited
        have hordered : s₁.ordered = s.ordered ++ [key] := hvisited.ordered
        have hrun : run d maxDepth (n + 1) s = run d maxDepth n s₁ := by
          simp only [run, hready]
          rw [hfold]
          rfl
        have hnodup₁ : s₁.ordered.Nodup := by
          rw [hordered]
          exact List.nodup_append.mpr ⟨hnodup, List.nodup_singleton _, by
            simpa using fun k hk => (by rintro rfl; exact hfresh hk)⟩
        have hsub₁ : s₁.ordered ⊆ d.keys := by
          rw [hordered]
          exact List.append_subset.mpr ⟨hsub, by simpa using hkeys⟩
        rw [hrun]
        rcases ih hs₁ hnodup₁ hsub₁ (by rw [hordered]; simp; omega) with
          ⟨s', rest, hok, hs', heq, hgreedy⟩ | herror
        · refine .inl ⟨s', key :: rest, hok, hs', by simp [heq, hordered], ?_⟩
          exact .take hkey hleast (hordered ▸ hgreedy)
        · exact .inr herror
      · refine .inr ⟨⟨e, ?_⟩, ?_⟩
        · simp only [run, hready]
          rw [hfold]
          rfl
        · have hdep := PlanDraft.mem_outgoing.mp hc
          rcases lt_max_iff.mp hdeep with hdeep | hdeep
          · exact ⟨c, _, h.chain c hdep.mem_keys, hdeep⟩
          · exact ⟨c, _, (h.chain key hkeys).cons hdep, hdeep⟩

end PlanSort

namespace PlanDraft

/-- No step depends on itself through others. -/
def Acyclic (d : PlanDraft) : Prop := ∀ k, ¬ Relation.TransGen d.DependsOn k k

/-- No chain of dependent steps is longer than this. -/
def ChainsWithin (d : PlanDraft) (limit : Nat) : Prop :=
  ∀ chain : List String, chain.IsChain d.DependsOn → (∀ k ∈ chain, k ∈ d.keys) →
    chain.length ≤ limit

/-- The first order of the steps, by their places in the draft, with dependencies first. -/
def LeastOrder (d : PlanDraft) (ordered : List String) : Prop :=
  IsLeastOrder d.DependsOn d.keys d.original ordered

theorem sorted_spec (hgraph : d.IsGraph) (hpos : 0 < maxDepth) :
    (∃ ordered, d.sorted maxDepth = .ok ordered ∧ d.Acyclic ∧ d.ChainsWithin (min maxDepth 10) ∧
        d.LeastOrder ordered) ∨
      (∃ e, d.sorted maxDepth = .error e) ∧ ¬(d.Acyclic ∧ d.ChainsWithin (min maxDepth 10)) := by
  have hlength : d.steps.length = d.keys.length := by simp [keys]
  have hdeps : ∀ a b, d.DependsOn a b → b ∈ d.keys := fun a b h => h.dependency_mem hgraph
  have hsorted : d.sorted maxDepth = (PlanSort.run d maxDepth d.steps.length
      (PlanSort.initial d)).bind fun s =>
        if s.ordered.length ≠ d.steps.length then .error "Plan dependency cycle"
        else .ok s.ordered := rfl
  rcases PlanSort.run_spec hgraph d.steps.length (PlanSort.initial_sorting hgraph hpos)
    List.nodup_nil (List.nil_subset _) (by simp [PlanSort.initial, hlength]) with
    ⟨s, rest, hrun, hs, hordered, hgreedy⟩ | ⟨⟨e, hrun⟩, k, m, ⟨chain, hchain, hkeys, rfl⟩, hlong⟩
  · have hrest : s.ordered = rest := hordered
    subst hrest
    have hgreedy : Greedy d.DependsOn d.keys d.original [] s.ordered := hgreedy
    by_cases hall : s.ordered.length = d.steps.length
    · have hperm : s.ordered.Perm d.keys :=
        (hgreedy.nodup.subperm fun k hk => (hgreedy.fresh k hk).1).perm_of_length_le (by omega)
      have hacyclic : d.Acyclic :=
        acyclic_of_isOrder ⟨hperm, hgreedy.depsFirst⟩ fun a b h => h.mem_keys
      refine .inl ⟨s.ordered, by rw [hsorted, hrun]; simp [Except.bind, hall], hacyclic, ?_,
        hgreedy.isLeastOrder hgraph.unique hacyclic hdeps fun a ha b _ => original_inj ha⟩
      intro chain hchain _
      cases chain with
      | nil => exact Nat.zero_le _
      | cons k chain =>
        refine (length_le_of_chain hs.positive (fun a b hab => ?_) hchain).trans (hs.bound k)
        exact hs.grows a b hab (hperm.mem_iff.mpr (hdeps a b hab))
    · refine .inr ⟨⟨"Plan dependency cycle", by rw [hsorted, hrun]; simp [Except.bind, hall]⟩,
        fun ⟨hacyclic, _⟩ => ?_⟩
      have horder := hgreedy.isOrder hgraph.unique hacyclic hdeps
      exact hall (horder.1.length_eq.trans hlength.symm)
  · refine .inr ⟨⟨e, by rw [hsorted, hrun]; rfl⟩, fun ⟨_, hchains⟩ => ?_⟩
    exact absurd (hchains _ hchain hkeys) (Nat.not_le.mpr hlong)

end PlanDraft

end MultiClaw
