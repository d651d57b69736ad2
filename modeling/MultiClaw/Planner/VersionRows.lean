import MultiClaw.Base.JsonDump
import MultiClaw.Base.Lists
import MultiClaw.Planner.Revalidation
import MultiClaw.Storage.Plans

/-! The rows of a version are read back as the plan that was written. -/
namespace MultiClaw

open Base PlanRepository

variable {host : Host} {v : ValidatedPlanDraft} {scope : PlanScope} {planVersion : Nat}
  {supersedes : String → Option String} {stepId : String → String}

/-! Plans in order -/

namespace ValidatedPlanDraft

def keys (v : ValidatedPlanDraft) : List String := v.steps.map (·.logicalStepKey)

/-- The steps stand in the order of their ordinals, and so do the dependencies of each step. -/
structure InOrder (v : ValidatedPlanDraft) : Prop where
  unique : v.keys.Nodup
  ordinals : v.steps.map (·.ordinal) = List.range' 1 v.steps.length
  exist : ∀ s ∈ v.steps, ∀ k ∈ s.dependsOn, k ∈ v.keys
  listedOnce : ∀ s ∈ v.steps, s.dependsOn.Nodup
  sorted : ∀ s ∈ v.steps, s.dependsOn.Pairwise fun a b => v.keys.idxOf a ≤ v.keys.idxOf b

theorem InOrder.ordinal_eq (h : v.InOrder) {s : ValidatedPlanStep} (hs : s ∈ v.steps) :
    s.ordinal = v.keys.idxOf s.logicalStepKey + 1 := by
  obtain ⟨i, hi, rfl⟩ := List.getElem_of_mem hs
  have hi' : i < v.keys.length := by simpa [keys] using hi
  have hkey : v.keys.idxOf v.steps[i].logicalStepKey = i := by
    have hget : v.steps[i].logicalStepKey = v.keys[i] := by simp [keys]
    rw [hget]
    exact h.unique.idxOf_getElem i hi'
  have hordinal := congrArg (·[i]?) h.ordinals
  simp only [List.getElem?_map, List.getElem?_eq_getElem hi, Option.map_some] at hordinal
  rw [List.getElem?_range' hi] at hordinal
  rw [hkey, Option.some.inj hordinal]
  omega

theorem InOrder.step_eq (h : v.InOrder) {s t : ValidatedPlanStep} (hs : s ∈ v.steps)
    (ht : t ∈ v.steps) (hkey : s.logicalStepKey = t.logicalStepKey) : s = t :=
  List.inj_on_of_nodup_map h.unique hs ht hkey

end ValidatedPlanDraft

theorem PlanDraft.arrange_inOrder {d : PlanDraft} {ordered : List String} (hgraph : d.IsGraph)
    (hordered : ordered.Perm d.keys) : (d.arrange ordered).InOrder := by
  have hkeys : (d.arrange ordered).keys = ordered :=
    PlanDraft.arrange_keys hgraph fun k hk => hordered.mem_iff.mp hk
  have hgraph' := PlanDraft.arrange_draft_isGraph hgraph hordered
  have hmem : ∀ s ∈ (d.arrange ordered).steps,
      s.toPlanDraftStep ∈ (d.arrange ordered).draft.steps := fun s hs => List.mem_map_of_mem hs
  refine ⟨?_, ?_, ?_, ?_, ?_⟩
  · rw [hkeys]
    exact hordered.nodup_iff.mpr hgraph.unique
  · rw [PlanDraft.arrange_steps, List.map_map, List.length_map, List.length_zipIdx]
    refine List.ext_getElem (by simp) fun i _ _ => ?_
    simp [PlanDraftStep.placed, Nat.add_comm]
  · intro s hs k hk
    have := (hgraph'.exist _ (hmem s hs) k hk).2
    rwa [PlanDraft.arrange_draft_keys hgraph hordered, ← hkeys] at this
  · exact fun s hs => hgraph'.listedOnce _ (hmem s hs)
  · intro s hs
    rw [PlanDraft.arrange_steps] at hs
    obtain ⟨p, -, rfl⟩ := List.mem_map.mp hs
    rw [hkeys]
    exact List.pairwise_insertionSort _ _

/-! Reading -/

/-- The order in which the steps of a plan are read. -/
def StepBefore (a b : PlanStepRow) : Prop :=
  a.planVersion < b.planVersion ∨ (a.planVersion = b.planVersion ∧ a.ordinal ≤ b.ordinal)

instance : DecidableRel StepBefore := fun _ _ =>
  inferInstanceAs (Decidable (_ < _ ∨ (_ = _ ∧ _ ≤ _)))

theorem stepRows_pairwise (h : v.InOrder) :
    (stepRows scope planVersion v supersedes stepId).Pairwise StepBefore := by
  rw [stepRows, List.pairwise_map]
  have hsorted : (v.steps.map (·.ordinal)).Pairwise (· < ·) := by
    rw [h.ordinals]
    exact List.pairwise_lt_range'
  exact (List.pairwise_map.mp hsorted).imp fun hlt => .inr ⟨rfl, hlt.le⟩

/-- The rows of a scope hold the plan as one version. -/
structure Holds (scope : PlanScope) (planVersion : Nat) (v : ValidatedPlanDraft)
    (supersedes : String → Option String) (stepId : String → String) (steps : List PlanStepRow)
    (dependencies : List PlanStepDependencyRow) : Prop where
  ids : (steps.map (·.stepId)).Nodup
  steps_eq : steps.filter (·.planVersion == planVersion) =
    stepRows scope planVersion v supersedes stepId
  dependencies_eq : dependencies.filter (·.planVersion == planVersion) =
    dependencyRows scope planVersion v stepId

variable {steps : List PlanStepRow} {dependencies : List PlanStepDependencyRow}

namespace Holds

section

variable (h : Holds scope planVersion v supersedes stepId steps dependencies)

include h

theorem sorted_steps (hv : v.InOrder) :
    (steps.insertionSort StepBefore).filter (·.planVersion == planVersion) =
      stepRows scope planVersion v supersedes stepId := by
  refine filter_insertionSort_eq (fun a b => ?_) (fun a b c => ?_) h.steps_eq
    (stepRows_pairwise hv) fun a ha b hb hab hba => ?_
  · unfold StepBefore
    omega
  · unfold StepBefore
    omega
  · obtain ⟨s, hs, rfl⟩ := List.mem_map.mp ha
    obtain ⟨t, ht, rfl⟩ := List.mem_map.mp hb
    simp only [StepBefore, lt_self_iff_false, true_and, false_or] at hab hba
    have hordinal : v.keys.idxOf s.logicalStepKey = v.keys.idxOf t.logicalStepKey := by
      have := hv.ordinal_eq hs
      have := hv.ordinal_eq ht
      omega
    have hmem : s.logicalStepKey ∈ v.keys := List.mem_map_of_mem hs
    rw [hv.step_eq hs ht ((List.idxOf_inj hmem).mp hordinal)]

theorem mem_steps {row : PlanStepRow}
    (hrow : row ∈ stepRows scope planVersion v supersedes stepId) : row ∈ steps :=
  List.mem_of_mem_filter (h.steps_eq ▸ hrow)

/-- Steps have ids of their own. -/
theorem stepId_inj {s t : ValidatedPlanStep} (hs : s ∈ v.steps) (ht : t ∈ v.steps)
    (hid : stepId s.logicalStepKey = stepId t.logicalStepKey) :
    s.logicalStepKey = t.logicalStepKey := by
  have hs' := h.mem_steps (List.mem_map_of_mem hs)
  have ht' := h.mem_steps (List.mem_map_of_mem ht)
  exact congrArg PlanStepRow.logicalStepKey (List.inj_on_of_nodup_map h.ids hs' ht' hid)

/-- The step that a dependency names has its ordinal. -/
theorem ordinalOf_eq {t : ValidatedPlanStep} (ht : t ∈ v.steps) {d : PlanStepDependencyRow}
    (hversion : d.planVersion = planVersion) (hid : d.dependsOnStepId = stepId t.logicalStepKey) :
    ordinalOf (steps.insertionSort StepBefore) d = some t.ordinal := by
  have hperm := List.perm_insertionSort StepBefore steps
  have hmem := hperm.mem_iff.mpr (h.mem_steps (List.mem_map_of_mem ht))
  rw [ordinalOf, Option.map_eq_some_iff]
  refine ⟨_, find?_eq_some_of_unique hmem (by simp [hversion, hid]) fun b hb hkey => ?_, rfl⟩
  simp only [Bool.and_eq_true, beq_iff_eq] at hkey
  exact List.inj_on_of_nodup_map h.ids (hperm.mem_iff.mp hb) (hperm.mem_iff.mp hmem)
    (hkey.2.trans hid)

/-- The rows of the dependencies of one step. -/
theorem dependencyRows_of_step (hv : v.InOrder) {s : ValidatedPlanStep} (hs : s ∈ v.steps) :
    (dependencyRows scope planVersion v stepId).filter (·.stepId == stepId s.logicalStepKey) =
      s.dependsOn.map fun k => ⟨scope, planVersion, stepId s.logicalStepKey, stepId k⟩ := by
  have hother : ∀ t ∈ v.steps, t ≠ s →
      ((t.dependsOn.map fun k => (⟨scope, planVersion, stepId t.logicalStepKey, stepId k⟩ :
        PlanStepDependencyRow)).filter (·.stepId == stepId s.logicalStepKey)) = [] := by
    intro t ht hne
    refine List.filter_eq_nil_iff.mpr fun d hd => ?_
    obtain ⟨k, -, rfl⟩ := List.mem_map.mp hd
    simp only [beq_iff_eq]
    exact fun hid => hne (hv.step_eq ht hs (h.stepId_inj ht hs hid))
  have hnodup : v.steps.Nodup := List.Nodup.of_map _ hv.unique
  obtain ⟨before, after, hsplit⟩ := List.append_of_mem hs
  rw [hsplit] at hnodup hother
  obtain ⟨-, hafter, hbefore⟩ := List.nodup_append.mp hnodup
  rw [dependencyRows, hsplit, List.filter_flatMap, List.flatMap_append, List.flatMap_cons]
  rw [List.flatMap_eq_nil_iff.mpr fun t ht => hother t (by simp [ht])
      (hbefore t ht s List.mem_cons_self),
    List.flatMap_eq_nil_iff.mpr fun t ht => hother t (by simp [ht]) ?_]
  · simp
  · rintro rfl
    exact (List.nodup_cons.mp hafter).1 ht

/-- The dependencies of a step are read in the order of the plan. -/
theorem sorted_dependencies (hv : v.InOrder) {s : ValidatedPlanStep} (hs : s ∈ v.steps) :
    ((dependencies.insertionSort fun a b =>
        (ordinalOf (steps.insertionSort StepBefore) a).getD 0 ≤
          (ordinalOf (steps.insertionSort StepBefore) b).getD 0).filter
      fun d => d.planVersion == planVersion && d.stepId == stepId s.logicalStepKey) =
      s.dependsOn.map fun k => ⟨scope, planVersion, stepId s.logicalStepKey, stepId k⟩ := by
  have hordinal : ∀ k ∈ s.dependsOn, ∀ source,
      (ordinalOf (steps.insertionSort StepBefore) ⟨scope, planVersion, source, stepId k⟩).getD 0 =
        v.keys.idxOf k + 1 := by
    intro k hk source
    obtain ⟨t, ht, rfl⟩ := List.mem_map.mp (hv.exist s hs k hk)
    rw [h.ordinalOf_eq ht rfl rfl, Option.getD_some, hv.ordinal_eq ht]
  refine filter_insertionSort_eq ?_ ?_ ?_ ?_ ?_
  · exact fun a b => Nat.le_total _ _
  · exact fun a b c => Nat.le_trans
  · rw [← h.dependencyRows_of_step hv hs, ← h.dependencies_eq, List.filter_filter]
    exact List.filter_congr fun d _ => Bool.and_comm _ _
  · rw [List.pairwise_map]
    refine (hv.sorted s hs).imp_of_mem fun {a b} ha hb hle => ?_
    rw [hordinal a ha, hordinal b hb]
    exact Nat.succ_le_succ hle
  · intro a ha b hb hab hba
    obtain ⟨j, hj, rfl⟩ := List.mem_map.mp ha
    obtain ⟨k, hk, rfl⟩ := List.mem_map.mp hb
    rw [hordinal j hj, hordinal k hk] at hab hba
    have hsame : j = k := (List.idxOf_inj (hv.exist s hs j hj)).mp (by omega)
    rw [hsame]

end

end Holds

/-! The record -/

/-- The dependencies of a plan in the order in which they are read. -/
def sortDependencies (steps : List PlanStepRow) (dependencies : List PlanStepDependencyRow) :
    List PlanStepDependencyRow :=
  dependencies.insertionSort fun a b => (ordinalOf (steps.insertionSort StepBefore) a).getD 0 ≤
    (ordinalOf (steps.insertionSort StepBefore) b).getD 0

/-- The plan as it is read from the rows of one version. -/
structure ReadsAs (planVersion : Nat) (v : ValidatedPlanDraft)
    (supersedes : String → Option String) (stepId : String → String)
    (record : PlanVersionRecord) : Prop where
  constraints : record.constraints = v.constraints
  steps : record.steps = stepRows record.row.scope planVersion v supersedes stepId
  sources : ∀ d ∈ record.dependencies, ∃ s ∈ v.steps, ∃ k ∈ s.dependsOn,
    d = (stepId s.logicalStepKey, stepId k)
  dependencies : ∀ s ∈ v.steps,
    record.dependenciesOf (stepId s.logicalStepKey) = s.dependsOn.map stepId
  ids : (record.steps.map (·.stepId)).Nodup

namespace ReadsAs

variable {record : PlanVersionRecord} (h : ReadsAs planVersion v supersedes stepId record)

include h

theorem stepById?_eq {s : ValidatedPlanStep} (hs : s ∈ v.steps) :
    ∃ row, record.stepById? (stepId s.logicalStepKey) = some row ∧
      row.logicalStepKey = s.logicalStepKey := by
  obtain ⟨row, hmem, hid, hkey⟩ : ∃ row ∈ record.steps, row.stepId = stepId s.logicalStepKey ∧
      row.logicalStepKey = s.logicalStepKey := by
    rw [h.steps]
    exact ⟨_, List.mem_map_of_mem hs, rfl, rfl⟩
  refine ⟨row, find?_eq_some_of_unique hmem (by simp [hid]) fun b hb hfound => ?_, hkey⟩
  exact List.inj_on_of_nodup_map h.ids hb hmem (hid ▸ by simpa using hfound)

theorem dependency_keys (hv : v.InOrder) {s : ValidatedPlanStep} (hs : s ∈ v.steps) :
    ((record.dependenciesOf (stepId s.logicalStepKey)).filterMap fun id =>
      (record.stepById? id).map (·.logicalStepKey)) = s.dependsOn := by
  rw [h.dependencies s hs, List.filterMap_map]
  conv_rhs => rw [← List.filterMap_some (l := s.dependsOn)]
  refine List.filterMap_congr fun k hk => ?_
  obtain ⟨t, ht, rfl⟩ := List.mem_map.mp (hv.exist s hs k hk)
  obtain ⟨row, hrow, hkey⟩ := h.stepById?_eq ht
  simp [hrow, hkey]

theorem draft_eq (hv : v.InOrder) (hobjective : record.row.objective = v.objective)
    (hreason : record.row.generationReason = v.generationReason) : record.draft = v.draft := by
  have hsteps : record.draft.steps = v.draft.steps := by
    simp only [PlanVersionRecord.draft, ValidatedPlanDraft.draft]
    rw [h.steps, stepRows, List.map_map]
    refine List.map_congr_left fun s hs => ?_
    simp only [Function.comp, h.dependency_keys hv hs]
  simp only [PlanVersionRecord.draft, ValidatedPlanDraft.draft] at hsteps ⊢
  rw [hsteps, h.constraints, hobjective, hreason]

/-- What was read passes the checks that are made on reading. -/
theorem validateVersionIntegrity_eq_ok (hv : v.InOrder)
    (hagain : validatePlanDraft host v.draft 20 10 20 = .ok v)
    (hfields : v.draft.fieldsValid = true) (hobjective : record.row.objective = v.objective)
    (hreason : record.row.generationReason = v.generationReason)
    (hschema : record.row.schemaVersion = 1)
    (hdigest : record.row.contentDigest = planContentDigest v) :
    validateVersionIntegrity host record = .ok () := by
  have hdraft := h.draft_eq hv hobjective hreason
  have hordinals : record.steps.map (·.ordinal) = List.range' 1 record.steps.length := by
    rw [h.steps, stepRows, List.map_map, List.length_map]
    exact hv.ordinals
  have hsource : (record.dependencies.any fun d => (record.stepById? d.1).isNone) = false := by
    refine List.any_eq_false.mpr fun d hd => ?_
    obtain ⟨s, hs, k, -, rfl⟩ := h.sources d hd
    obtain ⟨row, hrow, -⟩ := h.stepById?_eq hs
    simp [hrow]
  have htarget : (record.dependencies.any fun d => (record.stepById? d.2).isNone) = false := by
    refine List.any_eq_false.mpr fun d hd => ?_
    obtain ⟨s, hs, k, hk, rfl⟩ := h.sources d hd
    obtain ⟨t, ht, rfl⟩ := List.mem_map.mp (hv.exist s hs k hk)
    obtain ⟨row, hrow, -⟩ := h.stepById?_eq ht
    simp [hrow]
  have hkeys : (v.steps.map fun s => (s.logicalStepKey, s.ordinal)) =
      record.steps.map fun s => (s.logicalStepKey, s.ordinal) := by
    rw [h.steps, stepRows, List.map_map]
    rfl
  have hdefinitions : (v.steps.map fun s => stepDefinitionDigest s.toPlanDraftStep) =
      record.steps.map (·.definitionDigest) := by
    rw [h.steps, stepRows, List.map_map]
    rfl
  simp [validateVersionIntegrity, hschema, hordinals, h.ids, hsource, htarget, hdraft, hfields,
    hagain, hkeys, hdefinitions, hdigest, pure, Except.pure]

end ReadsAs

/-- The rows of a version are read as the plan that they hold. -/
theorem Holds.readsAs (hv : v.InOrder)
    (h : Holds scope planVersion v supersedes stepId steps dependencies) {row : PlanVersionRow}
    (hscope : row.scope = scope) :
    ReadsAs planVersion v supersedes stepId
      { row, constraints := v.constraints
        steps := (steps.insertionSort StepBefore).filter (·.planVersion == planVersion)
        dependencies := ((sortDependencies steps dependencies).filter
          (·.planVersion == planVersion)).map fun d => (d.stepId, d.dependsOnStepId) } where
  constraints := rfl
  steps := by
    subst hscope
    exact h.sorted_steps hv
  sources d hd := by
    obtain ⟨dependency, hdependency, rfl⟩ := List.mem_map.mp hd
    have hperm := ((List.perm_insertionSort _ dependencies).filter
      (·.planVersion == planVersion)).mem_iff.mp hdependency
    rw [h.dependencies_eq] at hperm
    obtain ⟨s, hs, hmem⟩ := List.mem_flatMap.mp hperm
    obtain ⟨k, hk, rfl⟩ := List.mem_map.mp hmem
    exact ⟨s, hs, k, hk, rfl⟩
  dependencies s hs := by
    rw [PlanVersionRecord.dependenciesOf, List.filter_map, List.map_map, List.filter_filter]
    have hsorted := h.sorted_dependencies hv hs
    have hselect : ((sortDependencies steps dependencies).filter fun d =>
        ((fun m : String × String => m.1 == stepId s.logicalStepKey) ∘
          fun d : PlanStepDependencyRow => (d.stepId, d.dependsOnStepId)) d &&
          (d.planVersion == planVersion)) = s.dependsOn.map
        fun k => ⟨scope, planVersion, stepId s.logicalStepKey, stepId k⟩ := by
      rw [← hsorted]
      exact List.filter_congr fun d _ => Bool.and_comm _ _
    rw [hselect, List.map_map]
    rfl
  ids := by
    have hperm := (List.perm_insertionSort StepBefore steps).map (·.stepId)
    exact (hperm.nodup_iff.mpr h.ids).sublist (List.filter_sublist.map _)

theorem printItems_texts (texts : List String) :
    Json.printItems (texts.map jsonString) = some (texts.map Json.printString) := by
  induction texts with
  | nil => rfl
  | cons t texts ih => simp [Json.printItems, ih, jsonString, Json.print]

theorem plainItems_texts (texts : List String) :
    Json.plainItems (texts.map jsonString) = true := by
  induction texts with
  | nil => rfl
  | cons t texts ih => simp [Json.plainItems, ih, jsonString, Json.plain]

theorem stringItems?_texts (texts : List String) :
    stringItems? (texts.map jsonString) = some texts := by
  induction texts with
  | nil => rfl
  | cons t texts ih => simp [stringItems?, jsonString, ← ih]

/-- Texts have a JSON text from which they are read back. -/
theorem hydrateConstraints_eq_ok (constraints : List String) :
    hydrateConstraints host ((Json.arr (constraints.map jsonString)).dumps.getD "") =
      .ok constraints := by
  obtain ⟨text, htext⟩ : ∃ text, (Json.arr (constraints.map jsonString)).dumps = some text := by
    simp [Json.dumps, Json.print, printItems_texts]
  have hdepth : (Json.arr (constraints.map jsonString)).depth ≤ host.recursionLimit := by
    have hitems : Json.depthItems (constraints.map jsonString) ≤ 0 :=
      Json.depthItems_le.mpr (by simp [jsonString, Json.depth])
    have := host.recursionLimit_ge
    rw [Json.depth]
    omega
  have hcanonical : Json.canonical (.arr (constraints.map jsonString)) =
      .arr (constraints.map jsonString) := by
    rw [Json.canonical, Json.canonicalItems_eq, List.map_map]
    rfl
  have hplain : Json.plain (.arr (constraints.map jsonString)) = true := by
    rw [Json.plain]
    exact plainItems_texts constraints
  have hloads := Json.loads_dumps hplain hdepth htext
  rw [htext, Option.getD_some, hydrateConstraints, hloads, hcanonical]
  simp only [stringItems?_texts]

/-- Reading the rows of a version gives the plan that they hold, if its fields are valid. -/
theorem Holds.hydrateVersion_eq (host : Host) {row : PlanVersionRow} (hscope : row.scope = scope)
    (hversion : row.planVersion = planVersion)
    (hconstraints : row.constraintsJson = (Json.arr (v.constraints.map jsonString)).dumps.getD "")
    (hv : v.InOrder) (h : Holds scope planVersion v supersedes stepId steps dependencies) :
    ∃ record : PlanVersionRecord, record.row = row ∧
      ReadsAs planVersion v supersedes stepId record ∧
      hydrateVersion host (steps.insertionSort StepBefore) (sortDependencies steps dependencies)
        row = (validateVersionIntegrity host record).map fun _ => record := by
  refine ⟨_, rfl, h.readsAs hv hscope, ?_⟩
  rw [hydrateVersion, hconstraints, hydrateConstraints_eq_ok, hversion]
  simp only [bind, Except.bind, pure, Except.pure]
  cases validateVersionIntegrity host _ <;> rfl

/-- A version whose checks passed has valid fields. -/
theorem fieldsValid_of_integrity {record : PlanVersionRecord}
    (h : validateVersionIntegrity host record = .ok ()) : record.draft.fieldsValid = true := by
  rw [← Bool.not_eq_false]
  intro hfields
  unfold validateVersionIntegrity at h
  rw [if_pos hfields] at h
  repeat' split at h
  all_goals cases h

end MultiClaw
