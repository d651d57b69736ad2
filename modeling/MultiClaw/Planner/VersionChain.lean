import MultiClaw.Planner.Changes
import MultiClaw.Base.Lists
import MultiClaw.Planner.Execution
import MultiClaw.Tools.System

/-! The versions of a plan form a chain from which nothing is taken away. -/
namespace MultiClaw

open Base Transaction Relation PlanRepository

variable {env : Env} {db db' : Db} {scope : PlanScope}

namespace Db

/-- The rows of the steps of one version. -/
def versionSteps (db : Db) (scope : PlanScope) (planVersion : Nat) : List PlanStepRow :=
  db.planSteps.filter fun s => s.scope == scope && s.planVersion == planVersion

def versionDependencies (db : Db) (scope : PlanScope) (planVersion : Nat) :
    List PlanStepDependencyRow :=
  db.planStepDependencies.filter fun s => s.scope == scope && s.planVersion == planVersion

end Db

/-! Stored versions stay as they are -/

/-- The versions that are stored stay, with their steps and dependencies. -/
structure KeepsVersions (db db' : Db) : Prop where
  versions : ∀ v ∈ db.planVersions.rows, v ∈ db'.planVersions.rows
  steps : ∀ v ∈ db.planVersions.rows,
    db'.versionSteps v.scope v.planVersion = db.versionSteps v.scope v.planVersion
  dependencies : ∀ v ∈ db.planVersions.rows,
    db'.versionDependencies v.scope v.planVersion = db.versionDependencies v.scope v.planVersion

namespace KeepsVersions

theorem of_same (hversions : db'.planVersions = db.planVersions)
    (hsteps : db'.planSteps = db.planSteps)
    (hdependencies : db'.planStepDependencies = db.planStepDependencies) :
    KeepsVersions db db' :=
  ⟨fun v hv => hversions ▸ hv, fun _ _ => by rw [Db.versionSteps, Db.versionSteps, hsteps],
    fun _ _ => by rw [Db.versionDependencies, Db.versionDependencies, hdependencies]⟩

theorem refl : KeepsVersions db db := of_same rfl rfl rfl

theorem trans {db'' : Db} (h : KeepsVersions db db') (h' : KeepsVersions db' db'') :
    KeepsVersions db db'' where
  versions v hv := h'.versions v (h.versions v hv)
  steps v hv := (h'.steps v (h.versions v hv)).trans (h.steps v hv)
  dependencies v hv := (h'.dependencies v (h.versions v hv)).trans (h.dependencies v hv)

/-- A version that is written has a number of its own, so its rows are apart from all others. -/
theorem of_new {planVersion : Nat} {parent : Option Nat}
    (hnew : NewVersion env scope planVersion parent db db') : KeepsVersions db db' := by
  obtain ⟨validated, stepId, hwrote⟩ := hnew
  obtain ⟨feedback, hinsert⟩ := hwrote.version
  obtain ⟨supersedes, hsteps⟩ := hwrote.steps
  have hapart : ∀ v ∈ db.planVersions.rows, ¬(scope = v.scope ∧ planVersion = v.planVersion) := by
    rintro v hv ⟨hscope, hversion⟩
    refine Table.insert?_fresh hinsert hv
      (k := ⟨v.tenantId, v.workspaceId, v.sessionId, v.planId, v.planVersion⟩)
      (by simp [PlanVersionRow.keys]) ?_
    simp [PlanVersionRow.keys, versionRow, hscope, hversion, PlanVersionRow.scope]
  refine ⟨fun v hv => (Table.mem_insert? hinsert).mpr (.inl hv), fun v hv => ?_, fun v hv => ?_⟩
  · rw [Db.versionSteps, Table.filter, Table.insertAll?_rows hsteps, List.filter_append]
    refine (List.append_right_eq_self.mpr (List.filter_eq_nil_iff.mpr fun s hs => ?_))
    obtain ⟨step, -, rfl⟩ := List.mem_map.mp hs
    simpa using hapart v hv
  · rw [Db.versionDependencies, Table.filter, Table.insertAll?_rows hwrote.dependencies,
      List.filter_append]
    refine (List.append_right_eq_self.mpr (List.filter_eq_nil_iff.mpr fun s hs => ?_))
    obtain ⟨step, -, hs⟩ := List.mem_flatMap.mp hs
    obtain ⟨key, -, rfl⟩ := List.mem_map.mp hs
    simpa using hapart v hv

end KeepsVersions

end MultiClaw
