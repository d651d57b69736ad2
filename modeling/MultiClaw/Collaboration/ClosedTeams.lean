import MultiClaw.Collaboration.Moves

/-! Whether a team that was closed stays closed. -/
namespace MultiClaw

open Base Transaction Relation CollaborationService

variable {dumps : Json → String} {settings : CollaborationSettings} {env : Env} {loud : Prop}
  {db db' db'' : Db} {teamId : String} {s : CollaborationState}

/-- The team keeps its status, and gets no new task, claim or job. -/
structure Undisturbed (teamId : String) (db db' : Db) : Prop where
  status : ∀ t ∈ db.teams.rows, t.teamId = teamId →
    ∃ t' ∈ db'.teams.rows, t'.teamId = teamId ∧ t'.status = t.status
  tasks : ∀ t' ∈ db'.teamTasks.rows, t'.teamId = teamId →
    ∃ t ∈ db.teamTasks.rows, t.taskId = t'.taskId ∧ t.teamId = teamId ∧
      (t'.status = .running → t.status = .running ∧ t'.ownerMemberId = t.ownerMemberId)
  jobs : ∀ j' ∈ db'.jobs.rows, j'.teamId = some teamId →
    ∃ j ∈ db.jobs.rows, j.jobId = j'.jobId ∧ j.teamId = some teamId

def Db.IsClosed (db : Db) (teamId : String) : Prop :=
  ∃ t ∈ db.teams.rows, t.teamId = teamId ∧ t.status ≠ .active

instance (db : Db) (teamId : String) : Decidable (db.IsClosed teamId) := by
  unfold Db.IsClosed
  infer_instance

namespace Undisturbed

theorem refl : Undisturbed teamId db db :=
  ⟨fun t ht hid => ⟨t, ht, hid, rfl⟩, fun t ht hid => ⟨t, ht, rfl, hid, fun h => ⟨h, rfl⟩⟩,
    fun j hj hteam => ⟨j, hj, rfl, hteam⟩⟩

theorem trans (h : Undisturbed teamId db db') (h' : Undisturbed teamId db' db'') :
    Undisturbed teamId db db'' := by
  refine ⟨fun t ht hid => ?_, fun t'' ht'' hid => ?_, fun j'' hj'' hteam => ?_⟩
  · obtain ⟨t', ht', hid', hstatus⟩ := h.status t ht hid
    obtain ⟨t'', ht'', hid'', hstatus'⟩ := h'.status t' ht' hid'
    exact ⟨t'', ht'', hid'', hstatus'.trans hstatus⟩
  · obtain ⟨t', ht', htask', hid', hrunning'⟩ := h'.tasks t'' ht'' hid
    obtain ⟨t, ht, htask, hid, hrunning⟩ := h.tasks t' ht' hid'
    refine ⟨t, ht, htask.trans htask', hid, fun hr => ?_⟩
    obtain ⟨hr', howner'⟩ := hrunning' hr
    obtain ⟨hr, howner⟩ := hrunning hr'
    exact ⟨hr, howner'.trans howner⟩
  · obtain ⟨j', hj', hid', hteam'⟩ := h'.jobs j'' hj'' hteam
    obtain ⟨j, hj, hid, hteam⟩ := h.jobs j' hj' hteam'
    exact ⟨j, hj, hid.trans hid', hteam⟩

theorem isClosed (h : Undisturbed teamId db db') (hclosed : db.IsClosed teamId) :
    db'.IsClosed teamId := by
  obtain ⟨t, ht, hid, hstatus⟩ := hclosed
  obtain ⟨t', ht', hid', hsame⟩ := h.status t ht hid
  exact ⟨t', ht', hid', hsame ▸ hstatus⟩

/-! What each write does to a team that it does not concern -/

variable {t t' : TeamTaskRow} {row row' : TeamRow} {j j' : JobRow}

theorem putJob {h : j'.keys = j.keys} (hj : j ∈ db.jobs.rows) (hteam : j'.teamId = j.teamId) :
    Undisturbed teamId db (db.putJob j j' h) := by
  refine ⟨refl.status, refl.tasks, fun a ha hid => ?_⟩
  rcases (Table.mem_replace_iff h hj (by simp [JobRow.keys])).mp ha with rfl | ⟨ha, -⟩
  · exact ⟨j, hj, by simpa [JobRow.keys] using h.symm, hteam ▸ hid⟩
  · exact ⟨a, ha, rfl, hid⟩

theorem putTask {h : t'.keys = t.keys} (ht : t ∈ db.teamTasks.rows)
    (hkeeps : t.teamId ≠ teamId ∧ t'.teamId = t.teamId ∨ t'.teamId = t.teamId ∧
      t'.status ≠ .running) : Undisturbed teamId db (db.putTask t t' h) := by
  refine ⟨refl.status, fun a ha hid => ?_, refl.jobs⟩
  rcases (Table.mem_replace_iff h ht (by simp [TeamTaskRow.keys])).mp ha with rfl | ⟨ha, -⟩
  · rcases hkeeps with ⟨hne, hsame⟩ | ⟨hsame, hstatus⟩
    · exact absurd (hsame ▸ hid) hne
    · exact ⟨t, ht, by simpa [TeamTaskRow.keys] using h.symm, hsame ▸ hid,
        fun hr => absurd hr hstatus⟩
  · exact ⟨a, ha, rfl, hid, fun hr => ⟨hr, rfl⟩⟩

theorem putTeam {h : row'.keys = row.keys} (hrow : row ∈ db.teams.rows)
    (hkeeps : row.teamId ≠ teamId ∨ row'.status = row.status) :
    Undisturbed teamId db (db.putTeam row row' h) := by
  refine ⟨fun a ha hid => ?_, refl.tasks, refl.jobs⟩
  have hid' : row'.teamId = row.teamId := by simpa [TeamRow.keys] using h
  have hmem := Table.mem_replace_iff (a := a) h hrow (by simp [TeamRow.keys])
  by_cases hsame : a = row
  · subst hsame
    rcases hkeeps with hne | hstatus
    · exact absurd hid hne
    · exact ⟨row', Table.mem_replace_self h hrow, hid'.trans hid, hstatus⟩
  · exact ⟨a, hmem.mpr (.inr ⟨ha, hsame⟩), hid, rfl⟩

theorem setJobs {jobs : Table JobRow String JobRow.keys} (hinsert : db.jobs.insert? j = some jobs)
    (hteam : j.teamId ≠ some teamId) : Undisturbed teamId db (db.setJobs jobs) := by
  refine ⟨refl.status, refl.tasks, fun a ha hid => ?_⟩
  rcases (Table.mem_insert? hinsert).mp ha with ha | rfl
  · exact ⟨a, ha, rfl, hid⟩
  · exact absurd hid hteam

end Undisturbed

theorem BoardMove.undisturbed (h : BoardMove (fun _ => False) loud env db db')
    (hclosed : db.IsClosed teamId) : Undisturbed teamId db db' := by
  -- an active team is another one
  obtain ⟨t, ht, hid, hstatus⟩ := hclosed
  have hother : ∀ row ∈ db.teams.rows, row.status = .active → row.teamId ≠ teamId := by
    intro row hrow hactive hsame
    rw [team_eq_of_teamId hrow ht (hsame.trans hid.symm)] at hactive
    exact hstatus hactive
  cases h with
  | work h =>
    refine ⟨fun a ha => ?_, fun a ha => ?_, fun a ha => ?_⟩
    · exact Undisturbed.refl.status a (h.teams ▸ ha)
    · exact Undisturbed.refl.tasks a (h.tasks ▸ ha)
    · exact Undisturbed.refl.jobs a (h.jobs ▸ ha)
  | newTeam row teams members hactive hinsert =>
    exact ⟨fun a ha hida => ⟨a, (Table.mem_insert? hinsert).mpr (.inl ha), hida, rfl⟩,
      Undisturbed.refl.tasks, Undisturbed.refl.jobs⟩
  | newTask row task teamTasks hrow _ hteam hactive _ _ _ hinsert =>
    refine ⟨Undisturbed.refl.status, fun a ha hida => ?_, Undisturbed.refl.jobs⟩
    rcases (Table.mem_insert? hinsert).mp ha with ha | rfl
    · exact Undisturbed.refl.tasks a ha hida
    · exact absurd (hteam ▸ hida) (hother row hrow hactive)
  | newJob job jobs _ _ _ hteam hinsert =>
    refine .setJobs hinsert fun hjob => ?_
    obtain ⟨row, hrow, hsame, hactive | hfalse⟩ := hteam teamId hjob
    · exact hother row hrow hactive hsame
    · exact hfalse
  | editJob job hjob changes => exact .putJob hjob rfl
  | editTeam row hrow status config hspared =>
    refine .putTeam hrow ?_
    rcases hspared with rfl | hactive | hfalse
    · exact .inr rfl
    · exact .inl (hother row hrow hactive)
    · exact hfalse.elim
  | start row task memberId job jobs hrow hactive htask hteam _ _ _ _ hjobTeam _ _ hinsert =>
    have hne := hother row hrow hactive
    let placed := db.putTask task (task.start memberId job.jobId env.now) rfl
    have hplaced : Undisturbed teamId db placed := .putTask htask (.inl ⟨hteam ▸ hne, rfl⟩)
    have hjobs : Undisturbed teamId placed (placed.setJobs jobs) :=
      .setJobs hinsert fun hjob => hne (Option.some.inj (hjobTeam.symm.trans hjob))
    exact hplaced.trans hjobs
  | refuse row task memberId hrow hactive htask hteam =>
    have hne := hother row hrow hactive
    let failed := db.putTask task (task.refuse memberId env.now) rfl
    have hfailed : Undisturbed teamId db failed := .putTask htask (.inl ⟨hteam ▸ hne, rfl⟩)
    have hclosed : Undisturbed teamId failed
        (failed.putTeam row (row.change (some .failed) none env.now) rfl) :=
      .putTeam hrow (.inl hne)
    exact hfailed.trans hclosed
  | endTask task status summary htask _ hterminal =>
    refine .putTask htask (.inr ⟨rfl, fun hrunning => ?_⟩)
    simp only [TeamTaskRow.finish] at hrunning
    simp [hrunning, TaskStatus.isTerminal] at hterminal
  | cancelTeam row scope hrow _ hspared =>
    have hne := hother row hrow (hspared.resolve_right id)
    refine ⟨fun a ha hida => ⟨a, ?_, hida, rfl⟩, fun a ha hida => ?_, Undisturbed.refl.jobs⟩
    · rw [Table.mem_update]
      exact ⟨a, ha, by simp [hida, Ne.symm hne]⟩
    · rw [Table.mem_update] at ha
      obtain ⟨r, hr, hra⟩ := ha
      split_ifs at hra with hsel
      · simp only [Bool.and_eq_true, beq_iff_eq] at hsel
        rw [← hra] at hida
        exact absurd (hsel.1.2.symm.trans hida) hne
      · exact Undisturbed.refl.tasks a (hra ▸ hr) hida

theorem moves_undisturbed (h : ReflTransGen (BoardMove (fun _ => False) loud env) db db')
    (hclosed : db.IsClosed teamId) : Undisturbed teamId db db' := by
  induction h with
  | refl => exact .refl
  | tail _ hmove ih => exact ih.trans (hmove.undisturbed (ih.isClosed hclosed))

/-! Runs -/

namespace CollaborationState

/-- `cancel_team` is called for active teams only, and a team that is closed between its selection
and its pass still has work when the pass comes. -/
def SparesClosed (s : CollaborationState) (event : CollaborationEvent) : Prop :=
  event.Spares (fun _ => False) s

end CollaborationState

open CollaborationState in
/-- In a run that spares closed teams, a team keeps its status from the time it is closed, and gets
no new task, claim or job. -/
theorem closed_team_undisturbed {events : List TimedEvent}
    (hspares : Along dumps settings SparesClosed s events) (hclosed : s.db.IsClosed teamId) :
    ∀ before, before <+: events →
      Undisturbed teamId s.db (runAll dumps settings s before).db := by
  induction events generalizing s with
  | nil =>
    intro before hbefore
    rw [List.prefix_nil.mp hbefore]
    exact .refl
  | cons e events ih =>
    intro before hbefore
    cases before with
    | nil => exact .refl
    | cons e' before =>
      obtain ⟨rfl, hrest⟩ := List.cons_prefix_cons.mp hbefore
      have hstep : Undisturbed teamId s.db (s.step dumps settings e'.env e'.event).db :=
        moves_undisturbed (step_moves hspares.1 fun _ => trivial) hclosed
      exact hstep.trans (ih hspares.2 (hstep.isClosed hclosed) before hrest)

open CollaborationState in
/-- A team without tasks is closed; afterwards a task is refused and the team is not selected. -/
theorem closed_team_undisturbed_by_task :
    let scope : SessionScope := ⟨"t", "w", "s"⟩
    let env : Env := { settings := {}, host := .ascii, now := 0 }
    let members : List MemberRequest := [{ name := "lead", role := .leader }, { name := "peer" }]
    let s := CollaborationState.runAll (fun _ => "") {} { db := .empty }
      [⟨env, .createTeam scope ⟨"objective", members, "."⟩ "team" ["lead", "peer"] "job"⟩,
        ⟨env, .dispatch scope "job"⟩, ⟨env, .exit "job" (.returned .completed {})⟩,
        ⟨env, .finish "job"⟩, ⟨env, .select [(scope, "team")]⟩, ⟨env, .pass fun _ => "report"⟩]
    let events : List TimedEvent :=
      [⟨env, .createTask scope "team" { taskId := "task", title := "task", objective := "task" }⟩,
        ⟨env, .select [(scope, "team")]⟩]
    s.db.IsClosed "team" ∧
      Undisturbed "team" s.db (CollaborationState.runAll (fun _ => "") {} s events).db := by
  intro scope env members s events
  have hclosed : s.db.IsClosed "team" := by decide +kernel
  -- none of the two events asks anything of the state
  have hspares : ∀ s, Along (fun _ => "") {} SparesClosed s events :=
    fun _ => ⟨trivial, trivial, trivial⟩
  exact ⟨hclosed, closed_team_undisturbed (hspares s) hclosed events (List.prefix_refl _)⟩

/-- A tick selects a team, the team is cancelled, and then the tick completes it. -/
theorem cancelled_team_completed :
    ¬∀ (before after : List TimedEvent) (teamId : String),
      let s := CollaborationState.runAll (fun _ => "") {} { db := .empty } before
      s.db.IsClosed teamId → Undisturbed teamId s.db
        (CollaborationState.runAll (fun _ => "") {} s after).db := by
  intro hall
  let scope : SessionScope := ⟨"t", "w", "s"⟩
  let env : Env := { settings := {}, host := .ascii, now := 0 }
  let members : List MemberRequest := [{ name := "lead", role := .leader }, { name := "peer" }]
  let before : List TimedEvent :=
    [⟨env, .createTeam scope ⟨"objective", members, "."⟩ "team" ["lead", "peer"] "job"⟩,
      ⟨env, .dispatch scope "job"⟩, ⟨env, .exit "job" (.returned .completed {})⟩,
      ⟨env, .finish "job"⟩, ⟨env, .select [(scope, "team")]⟩, ⟨env, .cancelTeam scope "team"⟩]
  let after : List TimedEvent := [⟨env, .pass fun _ => "report"⟩]
  let s := CollaborationState.runAll (fun _ => "") {} { db := .empty } before
  let s' := CollaborationState.runAll (fun _ => "") {} s after
  obtain ⟨hclosed, hchanged⟩ : s.db.IsClosed "team" ∧ ¬∀ t ∈ s.db.teams.rows, t.teamId = "team" →
      ∃ t' ∈ s'.db.teams.rows, t'.teamId = "team" ∧ t'.status = t.status := by
    decide +kernel
  exact hchanged (hall before after "team" hclosed).status

end MultiClaw
