import MultiClaw.Base.Dicts
import MultiClaw.Planner.VersionChain
import MultiClaw.Planner.VersionRows

/-! Every version that was written can be read in every later state. -/
namespace MultiClaw

open Base Transaction Relation PlanRepository

variable {host : Host} {env : Env} {db db' : Db} {row : PlanVersionRow} {v : ValidatedPlanDraft}
  {supersedes : String → Option String} {stepId : String → String} {scope : PlanScope}
  {planVersion : Nat} {parent : Option Nat}

/-- The rows of a version are those of the plan. -/
structure Db.Stores (db : Db) (row : PlanVersionRow) (v : ValidatedPlanDraft)
    (supersedes : String → Option String) (stepId : String → String) : Prop where
  row_eq : ∃ parent feedback now, row = versionRow row.scope row.planVersion v parent feedback now
  steps : db.versionSteps row.scope row.planVersion =
    stepRows row.scope row.planVersion v supersedes stepId
  dependencies : db.versionDependencies row.scope row.planVersion =
    dependencyRows row.scope row.planVersion v stepId

/-- The plan passes the checks that are made on reading. -/
structure ValidatedPlanDraft.Sound (host : Host) (v : ValidatedPlanDraft) : Prop where
  inOrder : v.InOrder
  again : validatePlanDraft host v.draft 20 10 20 = .ok v

/-- Each version has the rows of a plan that can be read, and no rows are without a version. -/
structure Db.StoredVersions (host : Host) (db : Db) : Prop where
  stored : ∀ row ∈ db.planVersions.rows, ∃ v supersedes stepId,
    v.Sound host ∧ v.draft.fieldsValid = true ∧ db.Stores row v supersedes stepId
  steps : ∀ s ∈ db.planSteps.rows,
    ∃ row ∈ db.planVersions.rows, row.scope = s.scope ∧ row.planVersion = s.planVersion
  dependencies : ∀ d ∈ db.planStepDependencies.rows,
    ∃ row ∈ db.planVersions.rows, row.scope = d.scope ∧ row.planVersion = d.planVersion

/-! What is accepted is sound -/

theorem arranged_of_validateDraft {draft : PlanDraft} (h : validateDraft env draft = .ok v) :
    v.Sound env.host ∧ (draft.fieldsValid = true → v.draft.fieldsValid = true) := by
  have hsteps := env.settings.maxSteps_range
  have hdepth := env.settings.maxDependencyDepth_range
  have hattempts := env.settings.maxStepAttempts_range
  have hvalid : validatePlanDraft env.host draft env.settings.maxSteps
      env.settings.maxDependencyDepth env.settings.maxStepAttempts = .ok v := by
    unfold validateDraft at h
    cases hresult : validatePlanDraft env.host draft env.settings.maxSteps
        env.settings.maxDependencyDepth env.settings.maxStepAttempts with
    | error e => simp [hresult, Except.mapError] at h
    | ok w => simpa [hresult, Except.mapError] using h
  have hagain := PlanDraft.validatePlanDraft_again (by omega) (by omega) (by omega) hattempts.2
    hvalid
  obtain ⟨hdraft, ordered, hleast, rfl⟩ := (PlanDraft.validatePlanDraft_eq_ok (by omega) (by omega)
    (by omega) (by decide)).mp hvalid
  exact ⟨⟨PlanDraft.arrange_inOrder hdraft.graph hleast.1.1, hagain⟩,
    PlanDraft.arrange_draft_fieldsValid hdraft.graph hleast.1.1⟩

/-! Reading -/

theorem stepIds_nodup (steps : Table PlanStepRow PlanStepKey PlanStepRow.keys)
    (p : PlanStepRow → Bool) : ((steps.filter p).map (·.stepId)).Nodup := by
  rw [List.Nodup, List.pairwise_map]
  refine (steps.unique.filter p).imp fun {a b} hdisjoint hid => ?_
  exact hdisjoint (a := .id a.stepId) (by simp [PlanStepRow.keys]) (by simp [PlanStepRow.keys, hid])

namespace Db.Stores

variable (h : db.Stores row v supersedes stepId)

include h

theorem holds : Holds row.scope row.planVersion v supersedes stepId
    (db.planSteps.filter (·.scope == row.scope))
    (db.planStepDependencies.filter (·.scope == row.scope)) where
  ids := stepIds_nodup _ _
  steps_eq := by
    rw [← h.steps, Table.filter, List.filter_filter]
    exact List.filter_congr fun s _ => Bool.and_comm _ _
  dependencies_eq := by
    rw [← h.dependencies, Table.filter, List.filter_filter]
    exact List.filter_congr fun s _ => Bool.and_comm _ _

/-- Reading the version gives the plan, unless a check fails. -/
theorem hydrateVersion_eq (host : Host) (hv : v.InOrder) :
    ∃ record : PlanVersionRecord, record.row = row ∧
      ReadsAs row.planVersion v supersedes stepId record ∧ record.draft = v.draft ∧
      hydrateVersion host
        ((db.planSteps.filter (·.scope == row.scope)).insertionSort StepBefore)
        (sortDependencies (db.planSteps.filter (·.scope == row.scope))
          (db.planStepDependencies.filter (·.scope == row.scope))) row =
        (validateVersionIntegrity host record).map fun _ => record := by
  obtain ⟨parent, feedback, now, hrow⟩ := h.row_eq
  obtain ⟨record, rfl, hreads, hhydrate⟩ :=
    h.holds.hydrateVersion_eq host rfl rfl (by rw [hrow]; rfl) hv
  exact ⟨record, rfl, hreads, hreads.draft_eq hv (by rw [hrow]; rfl) (by rw [hrow]; rfl), hhydrate⟩

/-- All checks pass for a sound plan with valid fields. -/
theorem hydrateVersion_eq_ok (hv : v.Sound host) (hfields : v.draft.fieldsValid = true) :
    ∃ record : PlanVersionRecord, record.row = row ∧
      ReadsAs row.planVersion v supersedes stepId record ∧ record.draft = v.draft ∧
      hydrateVersion host
        ((db.planSteps.filter (·.scope == row.scope)).insertionSort StepBefore)
        (sortDependencies (db.planSteps.filter (·.scope == row.scope))
          (db.planStepDependencies.filter (·.scope == row.scope))) row = .ok record := by
  obtain ⟨parent, feedback, now, hrow⟩ := h.row_eq
  obtain ⟨record, rfl, hreads, hdraft, hhydrate⟩ := h.hydrateVersion_eq host hv.inOrder
  have hok := hreads.validateVersionIntegrity_eq_ok hv.inOrder hv.again hfields
    (by rw [hrow]; rfl) (by rw [hrow]; rfl) (by rw [hrow]; rfl) (by rw [hrow]; rfl)
  exact ⟨record, rfl, hreads, hdraft, by rw [hhydrate, hok]; rfl⟩

end Db.Stores

/-- The versions of a plan as they are read one by one. -/
theorem planVersionsOf_eq (host : Host) (db : Db) (scope : PlanScope) :
    db.planVersionsOf host scope =
      if (db.planStepDependencies.filter (·.scope == scope)).any fun d =>
        (ordinalOf ((db.planSteps.filter (·.scope == scope)).insertionSort StepBefore) d).isNone
      then .error .key
      else ((db.planVersions.filter (·.scope == scope)).insertionSort
        fun a b => a.planVersion ≤ b.planVersion).mapM (hydrateVersion host
          ((db.planSteps.filter (·.scope == scope)).insertionSort StepBefore)
          (sortDependencies (db.planSteps.filter (·.scope == scope))
            (db.planStepDependencies.filter (·.scope == scope)))) := rfl

/-- If the plan can be read, then each of its versions can. -/
theorem exists_hydrateVersion {records : List PlanVersionRecord}
    (hrow : row ∈ db.planVersions.rows) (hread : db.planVersionsOf host row.scope = .ok records) :
    ∃ record ∈ records, hydrateVersion host
      ((db.planSteps.filter (·.scope == row.scope)).insertionSort StepBefore)
      (sortDependencies (db.planSteps.filter (·.scope == row.scope))
        (db.planStepDependencies.filter (·.scope == row.scope))) row = .ok record := by
  rw [planVersionsOf_eq] at hread
  split at hread
  · cases hread
  · refine Forall₂.exists_right (mapM_eq_ok_iff.mp hread) ?_
    rw [List.mem_insertionSort]
    exact List.mem_filter.mpr ⟨hrow, by simp⟩

/-- A plan that was read back had valid fields. -/
theorem Db.Stores.fieldsValid (h : db.Stores row v supersedes stepId) (hv : v.InOrder)
    (hrow : row ∈ db.planVersions.rows) {records : List PlanVersionRecord}
    (hread : db.planVersionsOf host row.scope = .ok records) : v.draft.fieldsValid = true := by
  obtain ⟨record, -, hok⟩ := exists_hydrateVersion hrow hread
  obtain ⟨record', -, -, hdraft, hhydrate⟩ := h.hydrateVersion_eq host hv
  rw [hok] at hhydrate
  cases hintegrity : validateVersionIntegrity host record' with
  | error e => simp [hintegrity, Except.map] at hhydrate
  | ok _ => exact hdraft ▸ fieldsValid_of_integrity hintegrity

namespace Db.StoredVersions

/-- Every dependency names a step of its version. -/
theorem ordinalOf_ne_none (h : db.StoredVersions host) {d : PlanStepDependencyRow}
    (hd : d ∈ db.planStepDependencies.rows) :
    (ordinalOf ((db.planSteps.filter (·.scope == d.scope)).insertionSort StepBefore) d).isNone =
      false := by
  obtain ⟨row, hrow, hscope, hversion⟩ := h.dependencies d hd
  obtain ⟨v, supersedes, stepId, hv, -, hstores⟩ := h.stored row hrow
  have hmem : d ∈ db.versionDependencies row.scope row.planVersion :=
    List.mem_filter.mpr ⟨hd, by simp [hscope, hversion]⟩
  rw [hstores.dependencies] at hmem
  obtain ⟨s, hs, hmem⟩ := List.mem_flatMap.mp hmem
  obtain ⟨k, hk, rfl⟩ := List.mem_map.mp hmem
  obtain ⟨t, ht, rfl⟩ := List.mem_map.mp (hv.inOrder.exist s hs k hk)
  rw [hstores.holds.ordinalOf_eq ht rfl rfl]
  rfl

theorem planVersionsOf_eq_ok (h : db.StoredVersions host) (scope : PlanScope) :
    ∃ records, db.planVersionsOf host scope = .ok records := by
  rw [planVersionsOf_eq, if_neg]
  · refine exists_mapM_eq_ok fun row hrow => ?_
    rw [List.mem_insertionSort] at hrow
    obtain ⟨hmem, hscope⟩ := List.mem_filter.mp hrow
    obtain rfl : row.scope = scope := by simpa using hscope
    obtain ⟨v, supersedes, stepId, hv, hfields, hstores⟩ := h.stored row hmem
    obtain ⟨record, -, -, -, hok⟩ := hstores.hydrateVersion_eq_ok hv hfields
    exact ⟨record, hok⟩
  · rw [Bool.not_eq_true, List.any_eq_false]
    intro d hd
    obtain ⟨hmem, hscope⟩ := List.mem_filter.mp hd
    obtain rfl : d.scope = scope := by simpa using hscope
    rw [h.ordinalOf_ne_none hmem]
    simp

/-- The versions that are read are those that were written. -/
theorem exists_record (h : db.StoredVersions host) (hrow : row ∈ db.planVersions.rows)
    (hv : v.InOrder) (hstores : db.Stores row v supersedes stepId) :
    ∃ records, db.planVersionsOf host row.scope = .ok records ∧
      ∃ record ∈ records, record.row = row ∧
        ReadsAs row.planVersion v supersedes stepId record ∧ record.draft = v.draft ∧
        validateVersionIntegrity host record = .ok () := by
  obtain ⟨records, hread⟩ := h.planVersionsOf_eq_ok row.scope
  obtain ⟨record, hmem, hok⟩ := exists_hydrateVersion hrow hread
  obtain ⟨record', hrow', hreads, hdraft, hhydrate⟩ := hstores.hydrateVersion_eq host hv
  rw [hok] at hhydrate
  cases hintegrity : validateVersionIntegrity host record' with
  | error e => simp [hintegrity, Except.map] at hhydrate
  | ok _ =>
    obtain rfl : record = record' := by simpa [hintegrity, Except.map] using hhydrate
    exact ⟨records, hread, record, hmem, hrow', hreads, hdraft, hintegrity⟩

theorem empty : Db.empty.StoredVersions host where
  stored _ h := by cases h
  steps _ h := by cases h
  dependencies _ h := by cases h

end Db.StoredVersions

/-! Writing -/

/-- A version that is written has its rows to itself. -/
theorem Db.StoredVersions.stores_new {feedback : Option String} {now : Nat}
    (h : db.StoredVersions host)
    (hversion : db.planVersions.insert? (versionRow scope planVersion v parent feedback now) =
      some db'.planVersions)
    (hsteps : db.planSteps.insertAll? (stepRows scope planVersion v supersedes stepId) =
      some db'.planSteps)
    (hdependencies : db.planStepDependencies.insertAll?
      (dependencyRows scope planVersion v stepId) = some db'.planStepDependencies) :
    db'.Stores (versionRow scope planVersion v parent feedback now) v supersedes stepId := by
  have hfresh : ∀ row ∈ db.planVersions.rows,
      ¬(row.scope = scope ∧ row.planVersion = planVersion) := by
    rintro row hrow ⟨hscope, hnumber⟩
    refine Table.insert?_fresh hversion hrow
      (k := ⟨row.tenantId, row.workspaceId, row.sessionId, row.planId, row.planVersion⟩)
      (by simp [PlanVersionRow.keys]) ?_
    simp [PlanVersionRow.keys, versionRow, ← hscope, hnumber, PlanVersionRow.scope]
  have hnoSteps : db.versionSteps scope planVersion = [] := by
    refine List.filter_eq_nil_iff.mpr fun s hs hkey => ?_
    obtain ⟨row, hrow, hscope, hnumber⟩ := h.steps s hs
    simp only [Bool.and_eq_true, beq_iff_eq] at hkey
    exact hfresh row hrow ⟨hscope.trans hkey.1, hnumber.trans hkey.2⟩
  have hnoDependencies : db.versionDependencies scope planVersion = [] := by
    refine List.filter_eq_nil_iff.mpr fun d hd hkey => ?_
    obtain ⟨row, hrow, hscope, hnumber⟩ := h.dependencies d hd
    simp only [Bool.and_eq_true, beq_iff_eq] at hkey
    exact hfresh row hrow ⟨hscope.trans hkey.1, hnumber.trans hkey.2⟩
  refine ⟨⟨parent, feedback, now, rfl⟩, ?_, ?_⟩
  · change db'.versionSteps scope planVersion = stepRows scope planVersion v supersedes stepId
    unfold Db.versionSteps Table.filter at hnoSteps ⊢
    rw [Table.insertAll?_rows hsteps, List.filter_append, hnoSteps, List.nil_append,
      List.filter_eq_self]
    intro s hs
    obtain ⟨step, -, rfl⟩ := List.mem_map.mp hs
    simp
  · change db'.versionDependencies scope planVersion = dependencyRows scope planVersion v stepId
    unfold Db.versionDependencies Table.filter at hnoDependencies ⊢
    rw [Table.insertAll?_rows hdependencies, List.filter_append, hnoDependencies,
      List.nil_append, List.filter_eq_self]
    intro d hd
    obtain ⟨step, -, hd⟩ := List.mem_flatMap.mp hd
    obtain ⟨key, -, rfl⟩ := List.mem_map.mp hd
    simp

theorem Db.Stores.kept (h : db.Stores row v supersedes stepId) (hrow : row ∈ db.planVersions.rows)
    (hkeeps : KeepsVersions db db') : db'.Stores row v supersedes stepId :=
  ⟨h.row_eq, (hkeeps.steps row hrow).trans h.steps,
    (hkeeps.dependencies row hrow).trans h.dependencies⟩

namespace Db.StoredVersions

theorem of_wrote (h : db.StoredVersions host) (hv : v.Sound host)
    (hfields : v.draft.fieldsValid = true)
    (hwrote : WroteVersion env scope planVersion parent v stepId db db') :
    db'.StoredVersions host := by
  have hkeeps := KeepsVersions.of_new ⟨v, stepId, hwrote⟩
  obtain ⟨feedback, hversion⟩ := hwrote.version
  obtain ⟨supersedes, hsteps⟩ := hwrote.steps
  have hnew := (Table.mem_insert? hversion).mpr (.inr rfl)
  refine ⟨fun row hrow => ?_, fun s hs => ?_, fun d hd => ?_⟩
  · obtain hold | rfl := (Table.mem_insert? hversion).mp hrow
    · obtain ⟨w, supersedes, stepId, hw, hvalid, hstores⟩ := h.stored row hold
      exact ⟨w, supersedes, stepId, hw, hvalid, hstores.kept hold hkeeps⟩
    · exact ⟨v, supersedes, stepId, hv, hfields, h.stores_new hversion hsteps hwrote.dependencies⟩
  · rw [Table.insertAll?_rows hsteps, List.mem_append] at hs
    obtain hold | hs := hs
    · obtain ⟨row, hrow, hkey⟩ := h.steps s hold
      exact ⟨row, hkeeps.versions row hrow, hkey⟩
    · obtain ⟨step, -, rfl⟩ := List.mem_map.mp hs
      exact ⟨_, hnew, rfl, rfl⟩
  · rw [Table.insertAll?_rows hwrote.dependencies, List.mem_append] at hd
    obtain hold | hd := hd
    · obtain ⟨row, hrow, hkey⟩ := h.dependencies d hold
      exact ⟨row, hkeeps.versions row hrow, hkey⟩
    · obtain ⟨step, -, hd⟩ := List.mem_flatMap.mp hd
      obtain ⟨key, -, rfl⟩ := List.mem_map.mp hd
      exact ⟨_, hnew, rfl, rfl⟩

theorem of_same (h : db.StoredVersions host) (hversions : db'.planVersions = db.planVersions)
    (hsteps : db'.planSteps = db.planSteps)
    (hdependencies : db'.planStepDependencies = db.planStepDependencies) :
    db'.StoredVersions host where
  stored row hrow := by
    rw [hversions] at hrow
    obtain ⟨v, supersedes, stepId, hv, hfields, hstores⟩ := h.stored row hrow
    exact ⟨v, supersedes, stepId, hv, hfields,
      hstores.kept hrow (.of_same hversions hsteps hdependencies)⟩
  steps s hs := hversions ▸ h.steps s (hsteps ▸ hs)
  dependencies d hd := hversions ▸ h.dependencies d (hdependencies ▸ hd)

/-- A version that was read back after it was written is stored with the others. -/
theorem of_new (h : db.StoredVersions env.host)
    (hnew : NewVersion env scope planVersion parent db db') {records : List PlanVersionRecord}
    (hread : db'.planVersionsOf env.host scope = .ok records) : db'.StoredVersions env.host := by
  obtain ⟨v, stepId, hwrote⟩ := hnew
  obtain ⟨draft, hvalid⟩ := hwrote.draft
  obtain ⟨hv, -⟩ := arranged_of_validateDraft hvalid
  obtain ⟨feedback, hversion⟩ := hwrote.version
  obtain ⟨supersedes, hsteps⟩ := hwrote.steps
  have hstores := h.stores_new hversion hsteps hwrote.dependencies
  have hmem := (Table.mem_insert? hversion).mpr (.inr rfl)
  exact h.of_wrote hv (hstores.fieldsValid hv.inOrder hmem hread) hwrote

end Db.StoredVersions

/-- What can happen to the versions: they stay, or one is written and read back. -/
inductive VersionStep (host : Host) (db db' : Db) : Prop where
  | same (hversions : db'.planVersions = db.planVersions) (hsteps : db'.planSteps = db.planSteps)
      (hdependencies : db'.planStepDependencies = db.planStepDependencies)
  | new (env : Env) (scope : PlanScope) (planVersion : Nat) (parent : Option Nat)
      (records : List PlanVersionRecord) (hhost : env.host = host)
      (hnew : NewVersion env scope planVersion parent db db')
      (hread : db'.planVersionsOf host scope = .ok records)

theorem VersionStep.stored (hstep : VersionStep host db db') (h : db.StoredVersions host) :
    db'.StoredVersions host := by
  cases hstep with
  | same hversions hsteps hdependencies => exact h.of_same hversions hsteps hdependencies
  | new env scope planVersion parent records hhost hnew hread =>
    subst hhost
    exact h.of_new hnew hread

theorem VersionStep.keeps (hstep : VersionStep host db db') : KeepsVersions db db' := by
  cases hstep with
  | same hversions hsteps hdependencies => exact .of_same hversions hsteps hdependencies
  | new env scope planVersion parent records hhost hnew hread => exact .of_new hnew

theorem stored_of_steps (hsteps : ReflTransGen (VersionStep host) db db')
    (h : db.StoredVersions host) : db'.StoredVersions host ∧ KeepsVersions db db' := by
  induction hsteps with
  | refl => exact ⟨h, .refl⟩
  | tail _ hstep ih => exact ⟨hstep.stored ih.1, ih.2.trans hstep.keeps⟩

theorem insertVersion_tables {feedback : Option String} :
    Ensures (insertVersion scope planVersion v parent feedback supersedes stepId) env db
      fun _ db' =>
        db.planVersions.insert? (versionRow scope planVersion v parent feedback env.now) =
          some db'.planVersions ∧
        db.planSteps.insertAll? (stepRows scope planVersion v supersedes stepId) =
          some db'.planSteps ∧
        db.planStepDependencies.insertAll? (dependencyRows scope planVersion v stepId) =
          some db'.planStepDependencies := by
  refine ensures_ask (ensures_get ?_)
  split
  · rename_i hversion hsteps hdependencies
    exact ensures_of_ok rfl ⟨hversion, hsteps, hdependencies⟩
  · exact ensures_of_error rfl

/-- A version that is inserted for an accepted draft, whatever was stored before, is read in every
later state as the steps, dependencies, order and digests that were written, and the checks on
reading pass. -/
theorem inserted_version_is_read_back {draft : PlanDraft} {feedback : Option String} {db₁ : Db}
    (hbefore : ReflTransGen (VersionStep env.host) Db.empty db)
    (hfields : draft.fieldsValid = true) (hvalid : validateDraft env draft = .ok v)
    (hinsert : (insertVersion scope planVersion v parent feedback supersedes stepId).run env db =
      .ok ((), db₁))
    (hafter : ReflTransGen (VersionStep env.host) db₁ db') :
    ∃ records record, db'.planVersionsOf env.host scope = .ok records ∧ record ∈ records ∧
      record.row = versionRow scope planVersion v parent feedback env.now ∧
      ReadsAs planVersion v supersedes stepId record ∧ record.draft = v.draft ∧
      validateVersionIntegrity env.host record = .ok () := by
  obtain ⟨hv, hvalidFields⟩ := arranged_of_validateDraft hvalid
  obtain ⟨hversion, hsteps, hdependencies⟩ := insertVersion_tables _ _ hinsert
  obtain ⟨hstored, -⟩ := stored_of_steps hbefore .empty
  have hwrote : WroteVersion env scope planVersion parent v stepId db db₁ :=
    ⟨⟨draft, hvalid⟩, ⟨feedback, hversion⟩, ⟨supersedes, hsteps⟩, hdependencies⟩
  obtain ⟨hstored', hkeeps⟩ :=
    stored_of_steps hafter (hstored.of_wrote hv (hvalidFields hfields) hwrote)
  have hrow := (Table.mem_insert? hversion).mpr (.inr rfl)
  have hstores := (hstored.stores_new hversion hsteps hdependencies).kept hrow hkeeps
  obtain ⟨records, hread, record, hmem, hrest⟩ :=
    hstored'.exists_record (hkeeps.versions _ hrow) hv.inOrder hstores
  exact ⟨records, record, hread, hmem, hrest⟩

theorem inserted_version_is_read_back_sample :
    let env : Env := { settings := {}, host := .ascii, now := 0 }
    let draft : PlanDraft :=
      ⟨"o", [], "r", [⟨"b", "B", "d", "e", ["a"], 2⟩, ⟨"a", "A", "d", "e", [], 2⟩]⟩
    let v := draft.arrange ["a", "b"]
    ∃ db records record,
      (insertVersion ⟨"t", "w", "s", "p"⟩ 1 v none none (fun _ => none) id).run env Db.empty =
        .ok ((), db) ∧
      db.planVersionsOf .ascii ⟨"t", "w", "s", "p"⟩ = .ok records ∧ record ∈ records ∧
      record.steps.map (·.stepId) = ["a", "b"] := by
  intro env draft v
  have hvalid : validateDraft env draft = .ok v :=
    eq_ok_of_toOption (by decide +kernel)
  have hinsert : ((insertVersion ⟨"t", "w", "s", "p"⟩ 1 v none none (fun _ => none) id).run env
      Db.empty).toOption.isSome = true := by
    decide +kernel
  obtain ⟨⟨⟨⟩, db⟩, hdb⟩ := Option.isSome_iff_exists.mp hinsert
  obtain ⟨records, record, hread, hmem, -, hreads, -⟩ :=
    inserted_version_is_read_back .refl (by decide) hvalid (eq_ok_of_toOption hdb) .refl
  refine ⟨db, records, record, eq_ok_of_toOption hdb, hread, hmem, ?_⟩
  rw [hreads.steps, stepRows, List.map_map]
  change v.steps.map (·.logicalStepKey) = _
  decide

end MultiClaw
