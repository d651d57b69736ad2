import MultiClaw.Collaboration.PassSpec
import MultiClaw.Collaboration.System

/-! When a scheduling pass over an idle team gets the team any further. -/
namespace MultiClaw

open Base Transaction CollaborationRepository CollaborationService

variable {dumps : Json → String} {settings : CollaborationSettings} {env : Env} {db db' : Db}
  {scope : SessionScope} {team : TeamView} {newId : Option String → String} {teamId : String}
  {task : TeamTaskRow} {tasks : List TeamTaskRow} {member leader : TeamMemberRow}
  {busy : List (Option String)} {job : JobRow}

/-- The team has a new job, or it is closed. -/
def Advances (scope : SessionScope) (teamId : String) (db db' : Db) : Prop :=
  (∃ j ∈ db'.jobs.rows, j ∉ db.jobs.rows ∧ j.scope = scope ∧ j.teamId = some teamId) ∨
    ∃ t ∈ db'.teams.rows, t.scope = scope ∧ t.teamId = teamId ∧
      (t.status = .completed ∨ t.status = .failed)

instance (scope : SessionScope) (teamId : String) (db db' : Db) :
    Decidable (Advances scope teamId db db') := by
  unfold Advances
  infer_instance

/-- The tasks that a pass gives out, with the members who get them. -/
def placements (team : TeamView) :
    List TeamTaskRow → List (Option String) → List (TeamTaskRow × TeamMemberRow)
  | [], _ => []
  | task :: tasks, busy =>
    match assignee team busy task with
    | none => placements team tasks busy
    | some member => (task, member) :: placements team tasks (some member.memberId :: busy)

/-- The number of task jobs that the limits leave to a team. -/
def Db.capacity (db : Db) (settings : CollaborationSettings) (scope : SessionScope)
    (teamId : String) : Nat :=
  min (settings.maxJobs - db.jobs.count (·.scope == scope))
    ((settings.maxTeamTokens - db.teamReserved scope teamId) / settings.maxJobTokens - 1)

/-- The ids that a pass draws are new. -/
def FreshJobIds (newId : Option String → String) (keys : List (Option String)) (db : Db) : Prop :=
  (keys.map newId).Nodup ∧ ∀ k ∈ keys, ∀ j ∈ db.jobs.rows, j.jobId ≠ newId k

instance (newId : Option String → String) (keys : List (Option String)) (db : Db) :
    Decidable (FreshJobIds newId keys db) := inferInstanceAs (Decidable (_ ∧ _))

/-! Capacity -/

theorem hasRoom_iff_capacity :
    db.hasRoom settings scope teamId (2 * settings.maxJobTokens) = true ↔
      0 < db.capacity settings scope teamId := by
  have hpos : 0 < settings.maxJobTokens := by
    have := settings.maxJobTokens_range
    omega
  have htokens : 0 < (settings.maxTeamTokens - db.teamReserved scope teamId) /
      settings.maxJobTokens - 1 ↔
        db.teamReserved scope teamId + 2 * settings.maxJobTokens ≤ settings.maxTeamTokens := by
    rw [Nat.sub_pos_iff_lt, Nat.lt_iff_add_one_le, Nat.le_div_iff_mul_le hpos]
    omega
  simp only [Db.hasRoom, Db.capacity, Bool.and_eq_true, decide_eq_true_eq, Nat.lt_min, htokens]
  omega

theorem capacity_eq_zero
    (hfull : db.hasRoom settings scope teamId (2 * settings.maxJobTokens) = false) :
    db.capacity settings scope teamId = 0 := by
  refine Nat.eq_zero_of_not_pos fun hpos => ?_
  simp [hasRoom_iff_capacity.mpr hpos] at hfull

theorem capacity_insert {table : Table JobRow String JobRow.keys}
    (hinsert : db.jobs.insert? job = some table) (hscope : job.scope = scope)
    (hteam : job.teamId = some teamId) (hbudget : job.budgetTokens = settings.maxJobTokens)
    (hjobs : db'.jobs = table) :
    db'.capacity settings scope teamId = db.capacity settings scope teamId - 1 := by
  have hcount : db'.jobs.count (·.scope == scope) = db.jobs.count (·.scope == scope) + 1 := by
    simp [hjobs, Table.count, Table.insert?_rows hinsert, hscope]
  have hreserved : db'.teamReserved scope teamId =
      db.teamReserved scope teamId + settings.maxJobTokens := by
    simp [Db.teamReserved, Table.filter, hjobs, Table.insert?_rows hinsert, hscope, hteam, hbudget]
  have hdiv : (settings.maxTeamTokens - db'.teamReserved scope teamId) / settings.maxJobTokens =
      (settings.maxTeamTokens - db.teamReserved scope teamId) / settings.maxJobTokens - 1 := by
    have := Nat.sub_mul_div (settings.maxTeamTokens - db.teamReserved scope teamId)
      settings.maxJobTokens 1
    rwa [Nat.mul_one, Nat.sub_sub, ← hreserved] at this
  unfold Db.capacity
  rw [hcount, hdiv]
  omega

theorem capacity_started {mid jobId : String} {table : Table JobRow String JobRow.keys}
    (hinsert : db.jobs.insert?
      ((taskJob dumps team newId task member).row scope settings.limits env.now) = some table) :
    (db.started task mid jobId env.now table).capacity settings scope team.row.teamId =
      db.capacity settings scope team.row.teamId - 1 :=
  capacity_insert hinsert rfl rfl rfl rfl

/-! The loop over the tasks -/

theorem FreshJobIds.insert? {k : Option String} {keys : List (Option String)}
    (h : FreshJobIds newId (k :: keys) db) (hid : job.jobId = newId k) :
    ∃ table, db.jobs.insert? job = some table := by
  refine Table.insert?_isSome fun a ha key hkey => ?_
  simp only [JobRow.keys, List.mem_singleton] at hkey ⊢
  rw [hkey, hid]
  exact h.2 k List.mem_cons_self a ha

theorem FreshJobIds.tail {k : Option String} {keys : List (Option String)}
    {table : Table JobRow String JobRow.keys} (h : FreshJobIds newId (k :: keys) db)
    (hid : job.jobId = newId k) (hinsert : db.jobs.insert? job = some table)
    (hjobs : db'.jobs = table) : FreshJobIds newId keys db' := by
  obtain ⟨hne, hnodup⟩ := List.nodup_cons.mp h.1
  refine ⟨hnodup, fun k' hk' j hj => ?_⟩
  rw [hjobs] at hj
  rcases (Table.mem_insert? hinsert).mp hj with hj | rfl
  · exact h.2 k' (List.mem_cons_of_mem _ hk') j hj
  · rw [hid]
    exact fun he => hne (he ▸ List.mem_map_of_mem hk')

theorem FreshJobIds.drop {k : Option String} {keys : List (Option String)}
    (h : FreshJobIds newId (k :: keys) db) : FreshJobIds newId keys db :=
  ⟨(List.nodup_cons.mp h.1).2, fun k' hk' => h.2 k' (List.mem_cons_of_mem _ hk')⟩

/-- The ids of the jobs of tasks. -/
def taskKeys (tasks : List TeamTaskRow) : List (Option String) := tasks.map (some ·.taskId)

namespace Placed

variable {r : Except CollaborationFailure (List (Option String) × Db)}

/-- The loop raises exactly if one of the requests that it comes to is invalid. -/
theorem ok_iff (h : Placed dumps settings env scope team newId tasks busy db r)
    (hfresh : FreshJobIds newId (taskKeys tasks) db) :
    (∃ x, r = .ok x) ↔ ∀ p ∈ (placements team tasks busy).take
      (db.capacity settings scope team.row.teamId + 1),
        (taskRequest dumps team p.1 p.2).isValid = true := by
  induction h with
  | nil => simp [placements]
  | skip hnone _ ih =>
    rw [placements, hnone]
    exact ih hfresh.drop
  | invalid hassign hinvalid =>
    rw [placements, hassign]
    simp [hinvalid]
  | refuse hassign hvalid hfull =>
    rw [placements, hassign, capacity_eq_zero hfull]
    simp [hvalid]
  | @clash task _ _ _ member _ _ _ hclash =>
    have hid : ((taskJob dumps team newId task member).row scope settings.limits env.now).jobId =
      newId (some task.taskId) := rfl
    obtain ⟨table, hinsert⟩ := hfresh.insert? hid
    rw [hclash] at hinsert
    cases hinsert
  | start hassign hvalid hroom hinsert _ ih =>
    have hpos := hasRoom_iff_capacity.mp hroom
    rw [ih (hfresh.tail rfl hinsert rfl), capacity_started hinsert, placements, hassign,
      Nat.sub_add_cancel hpos]
    simp [hvalid]

theorem jobs_subset (h : Placed dumps settings env scope team newId tasks busy db r) {x}
    (hr : r = .ok x) : db.jobs.rows ⊆ x.2.jobs.rows := by
  induction h with
  | nil =>
    cases hr
    exact List.Subset.refl _
  | skip _ _ ih => exact ih hr
  | invalid => cases hr
  | refuse =>
    cases hr
    exact List.Subset.refl _
  | clash => cases hr
  | start _ _ _ hinsert _ ih =>
    intro j hj
    exact ih hr ((Table.mem_insert? hinsert).mpr (.inl hj))

theorem idle (h : Placed dumps settings env scope team newId tasks busy db r)
    (hnone : placements team tasks busy = []) : r = .ok (busy, db) := by
  induction h with
  | nil => rfl
  | skip hskip _ ih =>
    rw [placements, hskip] at hnone
    exact ih hnone
  | invalid hassign => simp [placements, hassign] at hnone
  | refuse hassign => simp [placements, hassign] at hnone
  | clash hassign => simp [placements, hassign] at hnone
  | start hassign => simp [placements, hassign] at hnone

theorem advances (h : Placed dumps settings env scope team newId tasks busy db r)
    (hs : Snapshot scope team db) {x} (hr : r = .ok x) (hne : placements team tasks busy ≠ []) :
    Advances scope team.row.teamId db x.2 := by
  induction h with
  | nil => exact absurd rfl hne
  | skip hskip _ ih =>
    rw [placements, hskip] at hne
    exact ih hs hr hne
  | invalid => cases hr
  | refuse =>
    cases hr
    obtain ⟨hrow, hscope, -⟩ := getTeamRow_eq_some_iff.mp hs.row
    refine .inr ⟨team.row.change (some .failed) none env.now, ?_, hscope, rfl, .inr rfl⟩
    exact Table.mem_replace_self (TeamRow.change_keys _ _ _ _) hrow
  | clash => cases hr
  | start _ _ _ hinsert hrest =>
    refine .inl ⟨_, jobs_subset hrest hr ((Table.mem_insert? hinsert).mpr (.inr rfl)), ?_, rfl, rfl⟩
    intro hmem
    exact Table.insert?_fresh hinsert hmem (k := _) (List.mem_singleton.mpr rfl)
      (List.mem_singleton.mpr rfl)

end Placed

/-! The whole pass -/

/-- No job of the team is under way. -/
def Db.TeamIdle (db : Db) (scope : SessionScope) (teamId : String) : Prop :=
  ∀ j ∈ db.jobs.rows, j.scope = scope → j.teamId = some teamId → j.status.isTerminal = true

instance (db : Db) (scope : SessionScope) (teamId : String) :
    Decidable (db.TeamIdle scope teamId) := by
  unfold Db.TeamIdle
  infer_instance

/-- The team has a leader whose final report the limits still admit. -/
def ReportAdmitted (dumps : Json → String) (settings : CollaborationSettings) (db : Db)
    (scope : SessionScope) (team : TeamView) : Prop :=
  ∃ leader, team.members.find? (·.role = .leader) = some leader ∧
    (reportRequest dumps team (db.listJobs scope (some team.row.teamId)) leader).isValid = true ∧
    db.hasRoom settings scope team.row.teamId settings.maxJobTokens = true

/-- Some task can be given to a member, by requests that are valid up to the first one refused; or
every task has ended, and the final report is done, not needed or admitted. -/
def CanAdvance (dumps : Json → String) (settings : CollaborationSettings) (db : Db)
    (scope : SessionScope) (team : TeamView) : Prop :=
  (placements team team.tasks [] ≠ [] ∧
      ∀ p ∈ (placements team team.tasks []).take (db.capacity settings scope team.row.teamId + 1),
        (taskRequest dumps team p.1 p.2).isValid = true) ∨
    (team.tasks.all (·.status.isTerminal) = true ∧
      db.listJobs scope (some team.row.teamId) ≠ [] ∧
      (team.tasks = [] ∨ team.row.config.finalJobId.isSome = true ∨
        ReportAdmitted dumps settings db scope team))

theorem not_advances_self (hs : Snapshot scope team db) (hactive : team.row.status = .active) :
    ¬Advances scope team.row.teamId db db := by
  rintro (⟨j, hj, hnew, -⟩ | ⟨t, ht, -, hid, hclosed⟩)
  · exact hnew hj
  · obtain ⟨hrow, -, -⟩ := getTeamRow_eq_some_iff.mp hs.row
    rw [team_eq_of_teamId ht hrow hid, hactive] at hclosed
    simp at hclosed

theorem placements_done (hdone : ∀ t ∈ tasks, t.status.isTerminal = true) :
    placements team tasks busy = [] := by
  induction tasks with
  | nil => rfl
  | cons task tasks ih =>
    have hnone : assignee team busy task = none := by
      have hterminal := hdone task List.mem_cons_self
      unfold assignee
      rw [if_pos (.inl fun hpending => by simp [hpending, TaskStatus.isTerminal] at hterminal)]
    rw [placements, hnone]
    exact ih fun t ht => hdone t (List.mem_cons_of_mem _ ht)

theorem busyMembers_idle (hidle : db.TeamIdle scope teamId) :
    busyMembers (db.listJobs scope (some teamId)) = [] := by
  unfold busyMembers
  rw [List.map_eq_nil_iff, List.filter_eq_nil_iff]
  intro j hj
  obtain ⟨hmem, hscope, hteam⟩ := mem_listJobs hj
  simp [hidle j hmem hscope hteam]

/-- A pass over a team whose tasks have all ended. -/
theorem closeTeam_advances_iff {jobs : List JobRow} (hs : Snapshot scope team db)
    (hactive : team.row.status = .active)
    (hjobs : jobs = db.listJobs scope (some team.row.teamId))
    (hfresh : FreshJobIds newId [none] db) :
    Advances scope team.row.teamId db
        ((closeTeam dumps settings scope team jobs newId).commit env db).2 ↔
      team.tasks = [] ∨ team.row.config.finalJobId.isSome = true ∨
        ReportAdmitted dumps settings db scope team := by
  obtain ⟨hrow, hscope, -⟩ := getTeamRow_eq_some_iff.mp hs.row
  have hstuck := not_advances_self hs hactive
  by_cases hreported : team.tasks = [] ∨ team.row.config.finalJobId.isSome = true
  · rw [commit_of_ok (run_closeTeam_of_reported hs hreported)]
    refine iff_of_true (.inr ⟨closedRow team jobs env.now, mem_putTeam hrow, hscope, rfl, ?_⟩)
      (or_assoc.mp (.inl hreported))
    rw [closedRow, TeamRow.change, Option.getD_some]
    split <;> simp
  · rw [← or_assoc, or_iff_right hreported]
    push Not at hreported
    obtain ⟨htasks, hfinal⟩ := hreported
    have hfinal : team.row.config.finalJobId = none := by simpa using hfinal
    unfold ReportAdmitted
    rw [← hjobs]
    cases hleader : team.members.find? (·.role = .leader) with
    | none =>
      rw [commit_of_error (run_closeTeam_of_leaderless htasks hfinal hleader)]
      simpa using hstuck
    | some leader =>
      simp only [Option.some.injEq, exists_eq_left']
      cases hvalid : (reportRequest dumps team jobs leader).isValid with
      | false =>
        rw [commit_of_error (run_closeTeam_of_invalid htasks hfinal hleader hvalid)]
        simpa using hstuck
      | true =>
        cases hroom : db.hasRoom settings scope team.row.teamId settings.maxJobTokens with
        | false =>
          obtain ⟨message, hrun⟩ := run_closeTeam_of_full hs htasks hfinal hleader hvalid hroom
          rw [commit_of_error hrun]
          simpa using hstuck
        | true =>
          have hid : ((reportJob dumps team jobs newId leader).row scope settings.limits
            env.now).jobId = newId none := rfl
          obtain ⟨table, hinsert⟩ := hfresh.insert? hid
          rw [commit_of_ok (run_closeTeam_of_room hs htasks hfinal hleader hvalid hroom hinsert)]
          refine iff_of_true (.inl ⟨_, (Table.mem_insert? hinsert).mpr (.inr rfl), ?_, rfl, rfl⟩)
            ⟨rfl, rfl⟩
          intro hmem
          exact hfresh.2 none List.mem_cons_self _ hmem rfl

/-- A pass over an active team without running jobs gets the team further exactly if it can place
a task, or can close the team or have it report. -/
theorem pass_advances_iff (hteam : db.getTeam scope teamId = some team)
    (hactive : team.row.status = .active) (hidle : db.TeamIdle scope teamId)
    (hfresh : FreshJobIds newId (none :: taskKeys team.tasks) db) :
    Advances scope teamId db
        ((schedulePass dumps settings scope teamId newId).commit env db).2 ↔
      CanAdvance dumps settings db scope team := by
  obtain ⟨rfl, hs, htasks⟩ := snapshot_of_getTeam hteam
  have hbusy := busyMembers_idle hidle
  have hstuck := not_advances_self hs hactive
  unfold CanAdvance
  cases hdone : team.tasks.all (·.status.isTerminal) with
  | true =>
    have hrun : (schedulePass dumps settings scope team.row.teamId newId).run env db = _ :=
      run_schedulePass_of_done hteam hdone
    have hnone : placements team team.tasks [] = [] :=
      placements_done (List.all_eq_true.mp hdone)
    simp only [hnone, ne_eq, not_true_eq_false, false_and, false_or, true_and]
    by_cases hjobs : db.listJobs scope (some team.row.teamId) = []
    · rw [if_neg (by simp [hjobs])] at hrun
      rw [commit_of_ok hrun]
      exact iff_of_false hstuck fun h => h.1 hjobs
    · rw [if_pos ⟨hbusy, hjobs⟩] at hrun
      have hreport : FreshJobIds newId [none] db :=
        ⟨by simp, fun k hk => hfresh.2 k (List.mem_cons.mpr (.inl (List.mem_singleton.mp hk)))⟩
      have hcommit : (schedulePass dumps settings scope team.row.teamId newId).commit env db =
          (closeTeam dumps settings scope team (db.listJobs scope (some team.row.teamId))
            newId).commit env db := by
        rw [Transaction.commit, hrun]
        rfl
      rw [hcommit, closeTeam_advances_iff hs hactive rfl hreport, and_iff_right hjobs]
  | false =>
    have hplaced : Placed dumps settings env scope team newId team.tasks [] db _ :=
      placed hs hactive (fun t ht => htasks ▸ ht) (htasks ▸ nodup_listTasks)
    have hok := hplaced.ok_iff hfresh.drop
    have hrun : (schedulePass dumps settings scope team.row.teamId newId).run env db = _ :=
      run_schedulePass_of_open hteam hdone
    rw [hbusy, run_map] at hrun
    simp only [Bool.false_eq_true, false_and, or_false]
    by_cases hne : placements team team.tasks [] = []
    · rw [hplaced.idle hne] at hrun
      rw [commit_of_ok hrun]
      exact iff_of_false hstuck fun h => h.1 hne
    · rw [and_iff_right hne, ← hok]
      cases hloop : (placeTasks dumps settings scope team newId team.tasks []).run env db with
      | error e =>
        rw [hloop] at hrun
        rw [commit_of_error hrun]
        simpa using hstuck
      | ok x =>
        rw [hloop] at hrun hplaced
        rw [commit_of_ok hrun]
        exact iff_of_true (hplaced.advances hs rfl hne) ⟨x, rfl⟩

/-- The leader of a team has finished without creating a task. -/
theorem pass_closes_team_without_tasks :
    let scope : SessionScope := ⟨"t", "w", "s"⟩
    let env : Env := { settings := {}, host := .ascii, now := 0 }
    let members : List MemberRequest := [{ name := "lead", role := .leader }, { name := "peer" }]
    let s := CollaborationState.runAll (fun _ => "") {} { db := .empty }
      [⟨env, .createTeam scope ⟨"objective", members, "."⟩ "team" ["lead", "peer"] "job"⟩,
        ⟨env, .dispatch scope "job"⟩, ⟨env, .exit "job" (.returned .completed {})⟩,
        ⟨env, .finish "job"⟩]
    let newId := fun key : Option String => "job-" ++ key.getD "report"
    Advances scope "team" s.db
      ((schedulePass (fun _ => "") {} scope "team" newId).commit env s.db).2 := by
  intro scope env members s newId
  let row : TeamRow := ⟨"team", scope, "objective", .active, ⟨".", none, none⟩, 1, 0, 0⟩
  obtain ⟨hteam, hidle, hfresh, hjobs⟩ : s.db.getTeam scope "team" = some ⟨row,
      [⟨"lead", scope, "team", "lead", .leader, { name := "lead", role := .leader }⟩,
        ⟨"peer", scope, "team", "peer", .member, { name := "peer" }⟩], []⟩ ∧
      s.db.TeamIdle scope "team" ∧ FreshJobIds newId [none] s.db ∧
      s.db.listJobs scope (some "team") ≠ [] := by
    decide +kernel
  exact (pass_advances_iff hteam rfl hidle hfresh).mpr (.inr ⟨rfl, hjobs, .inl rfl⟩)

/-- A task whose dependency has failed stays pending, and no pass moves its team again. -/
theorem failed_dependency_stalls_team :
    ¬∀ (events : List TimedEvent) (scope : SessionScope) (teamId : String) (env : Env)
      (newId : Option String → String),
      let db := (CollaborationState.runAll (fun _ => "") {} { db := .empty } events).db
      ((db.getTeamRow scope teamId).any (·.status = .active)) = true →
        db.TeamIdle scope teamId →
        Advances scope teamId db
          ((schedulePass (fun _ => "") {} scope teamId newId).commit env db).2 := by
  intro hall
  let scope : SessionScope := ⟨"t", "w", "s"⟩
  let env : Env := { settings := {}, host := .ascii, now := 0 }
  let members : List MemberRequest := [{ name := "lead", role := .leader }, { name := "peer" }]
  let newId := fun key : Option String => "job-" ++ key.getD "report"
  let events : List TimedEvent :=
    [⟨env, .createTeam scope ⟨"objective", members, "."⟩ "team" ["lead", "peer"] "job"⟩,
      ⟨env, .createTask scope "team" { taskId := "first", title := "first", objective := "first" }⟩,
      ⟨env, .createTask scope "team"
        { taskId := "second", title := "second", objective := "second", dependsOn := ["first"] }⟩,
      ⟨env, .dispatch scope "job"⟩, ⟨env, .exit "job" (.returned .completed {})⟩,
      ⟨env, .finish "job"⟩, ⟨env, .select [(scope, "team")]⟩, ⟨env, .pass newId⟩,
      ⟨env, .dispatch scope "job-first"⟩, ⟨env, .exit "job-first" (.returned .failed {})⟩,
      ⟨env, .finish "job-first"⟩]
  let db := (CollaborationState.runAll (fun _ => "") {} { db := .empty } events).db
  obtain ⟨hactive, hidle, hstuck⟩ : ((db.getTeamRow scope "team").any (·.status = .active)) = true ∧
      db.TeamIdle scope "team" ∧ ¬Advances scope "team" db
        ((schedulePass (fun _ => "") {} scope "team" newId).commit env db).2 := by
    decide +kernel
  exact hstuck (hall events scope "team" env newId hactive hidle)

end MultiClaw
