import MultiClaw.Base.Transaction
import MultiClaw.Planner.SortSpec

/-! Which drafts the validation accepts, and the plan that it makes of them. -/
namespace MultiClaw

open Base Toposort

variable {host : Host} {d : PlanDraft} {ordered : List String} {st : PlanDraftStep}

/-! The steps one by one -/

theorem forM_eq_ok {α ε : Type} {f : α → Except ε Unit} {l : List α} :
    forM l f = .ok () ↔ ∀ a ∈ l, f a = .ok () := by
  induction l with
  | nil => simp [pure, Except.pure]
  | cons a l ih =>
    rw [List.forM_cons, List.forall_mem_cons]
    cases h : f a with
    | error e => simp [bind, Except.bind]
    | ok u => simpa [bind, Except.bind] using ih

theorem checkDependency_eq_ok {k : String} : checkDependency d st k = .ok () ↔
    k ≠ st.logicalStepKey ∧ k ∈ d.keys := by
  unfold checkDependency
  split_ifs with hself hmissing
  · simp [hself]
  · simp [hself, hmissing]
  · simpa [hself] using hmissing

theorem checkStep_eq_ok {maxAttempts : Nat} : checkStep d maxAttempts st = .ok () ↔
    st.maxAttempts ≤ maxAttempts ∧ st.dependsOn.Nodup ∧
      ∀ k ∈ st.dependsOn, k ≠ st.logicalStepKey ∧ k ∈ d.keys := by
  unfold checkStep
  rw [List.forM_eq_forM]
  by_cases hattempts : maxAttempts < st.maxAttempts
  · simp [hattempts]
  · by_cases honce : st.dependsOn.Nodup
    · simp only [hattempts, honce, not_true, if_false, forM_eq_ok, checkDependency_eq_ok]
      simp [Nat.not_lt.mp hattempts]
    · simp [hattempts, honce]

/-! Credentials -/

def PlanDraftStep.texts (s : PlanDraftStep) : List String :=
  [s.logicalStepKey, s.title, s.description, s.expectedOutcome] ++ s.dependsOn

/-- All text of a draft. -/
def PlanDraft.texts (d : PlanDraft) : List String :=
  [d.objective, d.generationReason] ++ d.constraints ++ d.steps.flatMap (·.texts)

theorem rejectCredentials_jsonString {t : String} :
    rejectCredentials host (jsonString t) = .ok () ↔
      (SecretPattern.secretValue host).search t = false := by
  simp only [jsonString, rejectCredentials]
  split_ifs with h <;> simp [h]

theorem rejectItemCredentials_eq_ok {items : List Json} :
    rejectItemCredentials host items = .ok () ↔
      ∀ item ∈ items, rejectCredentials host item = .ok () := by
  induction items with
  | nil => simp [rejectItemCredentials]
  | cons item items ih =>
    rw [rejectItemCredentials, List.forall_mem_cons]
    cases h : rejectCredentials host item with
    | error e => simp [bind, Except.bind]
    | ok u => simpa [bind, Except.bind] using ih

theorem rejectMemberCredentials_eq_ok {members : List (PyStr × Json)} :
    rejectMemberCredentials host members = .ok () ↔
      ∀ m ∈ members, (∀ k, m.1 = .text k → SecretPattern.secretName.search k = false) ∧
        rejectCredentials host m.2 = .ok () := by
  induction members with
  | nil => simp [rejectMemberCredentials]
  | cons m members ih =>
    obtain ⟨key, item⟩ := m
    rw [List.forall_mem_cons, ← ih]
    simp only [rejectMemberCredentials]
    cases key with
    | lone c => cases h : rejectCredentials host item <;> simp [bind, Except.bind]
    | text k =>
      cases hk : SecretPattern.secretName.search k <;>
        cases h : rejectCredentials host item <;> simp [bind, Except.bind, hk]

/-- The names of the fields of a plan do not look like those of credentials. -/
theorem secretName_search_fields : ∀ name ∈ ["constraints", "generation_reason", "objective",
    "steps", "depends_on", "description", "expected_outcome", "logical_step_key", "max_attempts",
    "ordinal", "title"], SecretPattern.secretName.search name = false := by
  decide +kernel

theorem rejectCredentials_step {s : ValidatedPlanStep} :
    rejectCredentials host s.toJson = .ok () ↔
      ∀ t ∈ s.texts, (SecretPattern.secretValue host).search t = false := by
  have hnames := secretName_search_fields
  simp only [List.forall_mem_cons] at hnames
  simp only [ValidatedPlanStep.toJson, rejectCredentials, rejectMemberCredentials_eq_ok,
    List.forall_mem_cons, PlanDraftStep.texts, List.forall_mem_append, rejectItemCredentials_eq_ok,
    List.forall_mem_map, rejectCredentials_jsonString]
  simp [hnames]
  tauto

/-! The plan that is made of a draft -/

/-- A step as it stands in the plan: its dependencies follow the order of the plan. -/
def PlanDraftStep.placed (s : PlanDraftStep) (ordered : List String) (i : Nat) :
    ValidatedPlanStep :=
  { s with
    dependsOn := s.dependsOn.insertionSort fun a b => ordered.idxOf a ≤ ordered.idxOf b
    ordinal := i + 1 }

theorem mem_placed_texts {i : Nat} {t : String} :
    t ∈ (st.placed ordered i).texts ↔ t ∈ st.texts := by
  simp [PlanDraftStep.placed, PlanDraftStep.texts]

namespace PlanDraft

theorem arrange_steps : (d.arrange ordered).steps =
    (ordered.filterMap d.byKey?).zipIdx.map fun p => p.1.placed ordered p.2 := rfl

section Arrange

variable (hgraph : d.IsGraph)

include hgraph

theorem map_filterMap_byKey? (hmem : ∀ k ∈ ordered, k ∈ d.keys) :
    (ordered.filterMap d.byKey?).map (·.logicalStepKey) = ordered := by
  induction ordered with
  | nil => rfl
  | cons k ordered ih =>
    obtain ⟨hk, hrest⟩ := List.forall_mem_cons.mp hmem
    obtain ⟨st, hst, rfl⟩ := List.mem_map.mp hk
    rw [List.filterMap_cons_some (byKey?_eq hgraph hst), List.map_cons, ih hrest]

theorem filterMap_byKey?_keys : d.keys.filterMap d.byKey? = d.steps := by
  rw [keys, List.filterMap_map]
  conv_rhs => rw [← List.filterMap_some (l := d.steps)]
  exact List.filterMap_congr fun st hst => byKey?_eq hgraph hst

theorem filterMap_byKey?_perm (hordered : ordered.Perm d.keys) :
    (ordered.filterMap d.byKey?).Perm d.steps :=
  (hordered.filterMap _).trans (.of_eq (filterMap_byKey?_keys hgraph))

theorem arrange_keys (hmem : ∀ k ∈ ordered, k ∈ d.keys) :
    (d.arrange ordered).steps.map (·.logicalStepKey) = ordered := by
  calc (d.arrange ordered).steps.map (·.logicalStepKey)
      = ((ordered.filterMap d.byKey?).zipIdx.map Prod.fst).map (·.logicalStepKey) := by
        rw [arrange_steps, List.map_map, List.map_map]
        rfl
    _ = ordered := by rw [List.zipIdx_map_fst, map_filterMap_byKey? hgraph hmem]

/-- The plan has the text of the draft. -/
theorem arrange_texts (hordered : ordered.Perm d.keys) :
    rejectCredentials host (d.arrange ordered).toJson = .ok () ↔
      ∀ t ∈ d.texts, (SecretPattern.secretValue host).search t = false := by
  have hnames := secretName_search_fields
  simp only [List.forall_mem_cons] at hnames
  have hsteps : (∀ s ∈ (d.arrange ordered).steps, rejectCredentials host s.toJson = .ok ()) ↔
      ∀ st ∈ d.steps, ∀ t ∈ st.texts, (SecretPattern.secretValue host).search t = false := by
    have hperm := filterMap_byKey?_perm hgraph hordered
    simp only [rejectCredentials_step]
    constructor
    · intro h st hst t ht
      obtain ⟨i, hi⟩ := List.mem_iff_getElem?.mp (hperm.mem_iff.mpr hst)
      have hmem : st.placed ordered i ∈ (d.arrange ordered).steps := by
        rw [arrange_steps, List.mem_map]
        exact ⟨(st, i), List.mk_mem_zipIdx_iff_getElem?.mpr hi, rfl⟩
      exact h _ hmem t (mem_placed_texts.mpr ht)
    · intro h s hs t ht
      rw [arrange_steps, List.mem_map] at hs
      obtain ⟨⟨st, i⟩, hmem, rfl⟩ := hs
      have hst : st ∈ ordered.filterMap d.byKey? := List.fst_mem_of_mem_zipIdx hmem
      exact h st (hperm.mem_iff.mp hst) t (mem_placed_texts.mp ht)
  simp only [ValidatedPlanDraft.toJson, rejectCredentials, rejectMemberCredentials_eq_ok,
    List.forall_mem_cons, rejectItemCredentials_eq_ok, List.forall_mem_map,
    rejectCredentials_jsonString, hsteps, texts, List.forall_mem_append, List.mem_flatMap]
  simp [hnames, arrange]
  grind

/-- In the plan the dependencies of a step stand before it. -/
theorem arrange_dependencies (hordered : ordered.Perm d.keys)
    (hfirst : DepsFirst d.DependsOn [] ordered) {i : Nat} {s : ValidatedPlanStep}
    (hs : (d.arrange ordered).steps[i]? = some s) {k : String} (hk : k ∈ s.dependsOn) :
    k ∈ ((d.arrange ordered).steps.take i).map (·.logicalStepKey) := by
  have hmem : ∀ k ∈ ordered, k ∈ d.keys := fun k hk => hordered.mem_iff.mp hk
  rw [List.map_take, arrange_keys hgraph hmem]
  have hkeys : ordered[i]? = some s.logicalStepKey := by
    have := congrArg (·[i]?) (arrange_keys hgraph hmem)
    simpa [hs] using this.symm
  rw [arrange_steps, List.getElem?_map, Option.map_eq_some_iff] at hs
  obtain ⟨⟨st, j⟩, hget, rfl⟩ := hs
  have hst : st ∈ d.steps := (filterMap_byKey?_perm hgraph hordered).mem_iff.mp
    (List.fst_mem_of_mem_zipIdx (List.mem_of_getElem? hget))
  have hdep : d.DependsOn st.logicalStepKey k :=
    ⟨st, hst, rfl, by simpa [PlanDraftStep.placed] using hk⟩
  obtain ⟨hi, hget⟩ := List.getElem?_eq_some_iff.mp hkeys
  have hsplit : ordered = ordered.take i ++ st.logicalStepKey :: ordered.drop (i + 1) := by
    conv_lhs => rw [← List.take_append_drop i ordered, List.drop_eq_getElem_cons hi, hget]
    rfl
  rw [hsplit] at hfirst
  exact hfirst.mem_of_split hdep

end Arrange

theorem leastOrder_unique {ordered' : List String} (h : d.LeastOrder ordered)
    (h' : d.LeastOrder ordered') : ordered = ordered' :=
  IsLeastOrder.unique h h' fun _ ha _ _ => original_inj ha

/-- What a draft has to satisfy under these limits. -/
structure Valid (host : Host) (d : PlanDraft)
    (maxSteps maxDepth maxAttempts maxContentBytes : Nat) : Prop where
  graph : d.IsGraph
  acyclic : d.Acyclic
  chains : d.ChainsWithin (min maxDepth 10)
  count : d.steps.length ≤ min maxSteps 20
  attempts : ∀ s ∈ d.steps, s.maxAttempts ≤ maxAttempts
  content : ∀ ordered, d.LeastOrder ordered →
    utf8Length (canonicalPlanText (d.arrange ordered)) ≤ min maxContentBytes maxPlanContentBytes
  clean : ∀ t ∈ d.texts, (SecretPattern.secretValue host).search t = false

variable {maxSteps maxDepth maxAttempts maxContentBytes : Nat}

/-- The checks in front of the sort. -/
theorem checks_eq_ok : (d.keys.Nodup ∧ forM d.steps (checkStep d maxAttempts) = .ok ()) ↔
    d.IsGraph ∧ ∀ s ∈ d.steps, s.maxAttempts ≤ maxAttempts := by
  rw [forM_eq_ok]
  simp only [checkStep_eq_ok]
  constructor
  · rintro ⟨hunique, hsteps⟩
    exact ⟨⟨hunique, fun s hs => (hsteps s hs).2.1, fun s hs => (hsteps s hs).2.2⟩,
      fun s hs => (hsteps s hs).1⟩
  · rintro ⟨hgraph, hattempts⟩
    exact ⟨hgraph.unique, fun s hs => ⟨hattempts s hs, hgraph.listedOnce s hs, hgraph.exist s hs⟩⟩

/-- A guard that raises is passed when its condition fails. -/
theorem guard_eq_ok {ε α β : Type} {c : Prop} [Decidable c] {e : ε} {f : β → Except ε α}
    {x : Except ε α} {a : α} : (if c then Except.error e >>= f else x) = .ok a ↔
      ¬ c ∧ x = .ok a := by
  split_ifs with h <;> simp [h, bind, Except.bind]

theorem validatePlanDraft_eq_ok (hsteps : 0 < maxSteps) (hdepth : 0 < maxDepth)
    (hattempts : 0 < maxAttempts) (hcontent : 0 < maxContentBytes) {v : ValidatedPlanDraft} :
    validatePlanDraft host d maxSteps maxDepth maxAttempts maxContentBytes = .ok v ↔
      d.Valid host maxSteps maxDepth maxAttempts maxContentBytes ∧
        ∃ ordered, d.LeastOrder ordered ∧ v = d.arrange ordered := by
  have hpos : ∀ (n : Nat) (name : String), 0 < n → requirePositiveInt n name = .ok () :=
    fun n name h => if_neg h.ne'
  unfold validatePlanDraft
  rw [hpos _ _ hsteps, hpos _ _ hdepth, hpos _ _ hattempts, hpos _ _ hcontent]
  simp only [bind_eq_ok, guard_eq_ok, List.forM_eq_forM, not_not, Nat.not_lt, exists_const,
    true_and, pure, Except.pure, Except.ok.injEq]
  constructor
  · rintro ⟨hcount, hunique, _, hchecks, ordered, hsorted, _, hclean, hsize, rfl⟩
    obtain ⟨hgraph, hlimit⟩ := checks_eq_ok.mp ⟨hunique, hchecks⟩
    rcases sorted_spec hgraph hdepth with ⟨o, ho, hacyclic, hchains, hleast⟩ | ⟨⟨e, he⟩, -⟩
    · obtain rfl := Except.ok.inj (ho.symm.trans hsorted)
      refine ⟨⟨hgraph, hacyclic, hchains, hcount, hlimit, ?_,
        (arrange_texts hgraph hleast.1.1).mp hclean⟩, o, hleast, rfl⟩
      intro ordered hordered
      rwa [leastOrder_unique hordered hleast]
    · cases he.symm.trans hsorted
  · rintro ⟨hvalid, ordered, hleast, rfl⟩
    obtain ⟨hunique, hchecks⟩ := checks_eq_ok.mpr ⟨hvalid.graph, hvalid.attempts⟩
    rcases sorted_spec hvalid.graph hdepth with ⟨o, ho, -, -, hleast'⟩ | ⟨-, hno⟩
    · obtain rfl := leastOrder_unique hleast hleast'
      exact ⟨hvalid.count, hunique, (), hchecks, ordered, ho, (),
        (arrange_texts hvalid.graph hleast.1.1).mpr hvalid.clean, hvalid.content _ hleast, rfl⟩
    · exact absurd ⟨hvalid.acyclic, hvalid.chains⟩ hno
end PlanDraft

variable {maxSteps maxDepth maxAttempts maxContentBytes : Nat}

/-- The validation accepts the valid drafts and no others; the steps of an accepted draft stand
in the first order that has their dependencies first. -/
theorem validatePlanDraft_exact (host : Host) (d : PlanDraft) (hsteps : 0 < maxSteps)
    (hdepth : 0 < maxDepth) (hattempts : 0 < maxAttempts) (hcontent : 0 < maxContentBytes) :
    ((∃ v, validatePlanDraft host d maxSteps maxDepth maxAttempts maxContentBytes = .ok v) ↔
        d.Valid host maxSteps maxDepth maxAttempts maxContentBytes) ∧
      ∀ v, validatePlanDraft host d maxSteps maxDepth maxAttempts maxContentBytes = .ok v →
        d.LeastOrder (v.steps.map (·.logicalStepKey)) ∧
          v = d.arrange (v.steps.map (·.logicalStepKey)) ∧
          ∀ i s, v.steps[i]? = some s → ∀ k ∈ s.dependsOn,
            k ∈ (v.steps.take i).map (·.logicalStepKey) := by
  have hiff : ∀ v, validatePlanDraft host d maxSteps maxDepth maxAttempts maxContentBytes = .ok v ↔
      d.Valid host maxSteps maxDepth maxAttempts maxContentBytes ∧
        ∃ ordered, d.LeastOrder ordered ∧ v = d.arrange ordered := fun v =>
    PlanDraft.validatePlanDraft_eq_ok hsteps hdepth hattempts hcontent
  constructor
  · constructor
    · rintro ⟨v, hv⟩
      exact ((hiff v).mp hv).1
    · intro hvalid
      rcases PlanDraft.sorted_spec hvalid.graph hdepth with ⟨o, -, -, -, hleast⟩ | ⟨-, hno⟩
      · exact ⟨d.arrange o, (hiff _).mpr ⟨hvalid, o, hleast, rfl⟩⟩
      · exact absurd ⟨hvalid.acyclic, hvalid.chains⟩ hno
  · intro v hv
    obtain ⟨hvalid, ordered, hleast, rfl⟩ := (hiff v).mp hv
    rw [PlanDraft.arrange_keys hvalid.graph fun k hk => hleast.1.1.mem_iff.mp hk]
    exact ⟨hleast, rfl, fun i s hs k hk =>
      PlanDraft.arrange_dependencies hvalid.graph hleast.1.1 hleast.1.2 hs hk⟩

/-- Three steps whose order in the draft is not that of their dependencies. -/
def sampleDraft : PlanDraft where
  objective := "ship"
  generationReason := "asked"
  steps :=
    [⟨"test", "Test", "run the tests", "they pass", ["build"], 2⟩,
      ⟨"plan", "Plan", "write it down", "a page", [], 2⟩,
      ⟨"build", "Build", "compile", "a binary", ["plan"], 2⟩]

theorem validatePlanDraft_exact_sample :
    (∃ v, validatePlanDraft .ascii sampleDraft 20 10 20 4096 = .ok v) ∧
      sampleDraft.Valid .ascii 20 10 20 4096 := by
  have hok : ∃ v, validatePlanDraft .ascii sampleDraft 20 10 20 4096 = .ok v := by
    have h : (validatePlanDraft .ascii sampleDraft 20 10 20 4096).toOption.isSome = true := by
      decide +kernel
    obtain ⟨v, hv⟩ := Option.isSome_iff_exists.mp h
    exact ⟨v, eq_ok_of_toOption hv⟩
  exact ⟨hok, (validatePlanDraft_exact .ascii sampleDraft (by decide) (by decide) (by decide)
    (by decide)).1.mp hok⟩

end MultiClaw
