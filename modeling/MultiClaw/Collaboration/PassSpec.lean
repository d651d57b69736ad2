import MultiClaw.Base.Lists
import MultiClaw.Collaboration.RepositorySpec

/-! What a scheduling pass over a team does: the tasks it places, and how it closes the team. -/
namespace MultiClaw

open Base Transaction CollaborationRepository CollaborationService

variable {dumps : Json → String} {settings : CollaborationSettings} {env : Env} {db : Db}
  {scope : SessionScope} {team : TeamView} {newId : Option String → String}
  {task task' : TeamTaskRow} {tasks : List TeamTaskRow} {member leader : TeamMemberRow}
  {busy : List (Option String)} {new : NewJob} {jobs : List JobRow}

/-! Room for a further job -/

/-- The session and the team can take a job for which `tokens` must be left. -/
def Db.hasRoom (db : Db) (settings : CollaborationSettings) (scope : SessionScope)
    (teamId : String) (tokens : Nat) : Bool :=
  db.jobs.count (·.scope == scope) < settings.maxJobs &&
    db.teamReserved scope teamId + tokens ≤ settings.maxTeamTokens

theorem maxJobs_le_listJobs :
    settings.maxJobs ≤ (db.listJobs scope).length ↔
      settings.maxJobs ≤ db.jobs.count (·.scope == scope) := by
  have hle := settings.maxJobs_range.2
  have hlen : (db.listJobs scope).length = min 500 (db.jobs.count (·.scope == scope)) := by
    simp [Db.listJobs, Table.filter, Table.count, List.length_insertionSort,
      List.countP_eq_length_filter]
  omega

/-- The tokens that `create_job` wants to find left: a task needs as much again for its report. -/
def NewJob.tokens (new : NewJob) (settings : CollaborationSettings) : Nat :=
  settings.maxJobTokens + if new.taskId.isSome then settings.maxJobTokens else 0

section Admission

variable {host : Host}

theorem admitJob_of_invalid {limits : JobLimits} (h : new.request.isValid = false) :
    db.admitJob scope host new limits = .error .validation := by
  simp [Db.admitJob, h]

/-- `create_job` for a member of a team, with a valid request. -/
theorem admitJob_eq (hvalid : new.request.isValid = true)
    (hteam : db.getTeamRow scope team.row.teamId = some team.row)
    (hmember : member ∈ db.listMembers scope team.row.teamId)
    (hid : new.teamId = some team.row.teamId) (hmid : new.memberId = some member.memberId)
    (hparent : new.parentRunId = none) :
    if db.hasRoom settings scope team.row.teamId (new.tokens settings) then
      db.admitJob scope host new settings.limits = .ok ()
    else ∃ message, db.admitJob scope host new settings.limits = .error (.conflict message) := by
  have hview : db.getTeam scope team.row.teamId =
      some ⟨team.row, db.listMembers scope team.row.teamId, db.listTasks scope team.row.teamId⟩ :=
    getTeam_eq_some_iff.mpr ⟨hteam, rfl, rfl⟩
  have hall :
      (db.listMembers scope team.row.teamId).all (·.memberId ≠ member.memberId) = false := by
    simp only [List.all_eq_false]
    exact ⟨member, hmember, by simp⟩
  unfold Db.admitJob
  simp only [hvalid, Bool.not_true, Bool.false_eq_true, if_false, hid, hparent, Option.elim]
  by_cases hjobs : settings.maxJobs ≤ db.jobs.count (·.scope == scope)
  · have hlimit : settings.limits.maxJobs ≤ (db.listJobs scope).length :=
      maxJobs_le_listJobs.mpr hjobs
    have hroom : db.hasRoom settings scope team.row.teamId (new.tokens settings) = false := by
      simp [Db.hasRoom, hjobs]
    rw [hroom, if_pos hlimit]
    exact ⟨_, rfl⟩
  · have hlimit : ¬settings.limits.maxJobs ≤ (db.listJobs scope).length :=
      fun h => hjobs (maxJobs_le_listJobs.mp h)
    rw [if_neg hlimit]
    unfold Db.admitTeamJob
    simp only [hview, hmid, Option.any_some, hall, Bool.false_eq_true, if_false]
    by_cases htokens : db.teamReserved scope team.row.teamId + new.tokens settings ≤
        settings.maxTeamTokens
    · have hroom : db.hasRoom settings scope team.row.teamId (new.tokens settings) = true := by
        simp [Db.hasRoom, htokens]
        omega
      have hnot : ¬settings.limits.teamLimit < db.teamReserved scope team.row.teamId +
          settings.limits.budgetTokens +
          (if new.taskId.isSome then settings.limits.budgetTokens else 0) := by
        simpa [NewJob.tokens, CollaborationSettings.limits, Nat.add_assoc] using htokens
      rw [if_pos hroom, if_neg hnot]
      rfl
    · have hroom : db.hasRoom settings scope team.row.teamId (new.tokens settings) = false := by
        simp [Db.hasRoom, htokens]
      have hpos : settings.limits.teamLimit < db.teamReserved scope team.row.teamId +
          settings.limits.budgetTokens +
          (if new.taskId.isSome then settings.limits.budgetTokens else 0) := by
        simpa [NewJob.tokens, CollaborationSettings.limits, Nat.add_assoc] using htokens
      rw [hroom, if_pos hpos]
      exact ⟨_, rfl⟩

/-- The tasks of the board do not enter the admission of a job. -/
theorem admitJob_putTask {limits : JobLimits} {h : task'.keys = task.keys} :
    (db.putTask task task' h).admitJob scope host new limits =
      db.admitJob scope host new limits := by
  have hteam : ∀ teamId, (db.putTask task task' h).admitTeamJob scope new limits teamId =
      db.admitTeamJob scope new limits teamId := by
    intro teamId
    unfold Db.admitTeamJob Db.getTeam Db.getTeamRow Db.putTask
    dsimp only
    cases db.teams.find? fun t => t.scope == scope && t.teamId == teamId <;> rfl
  unfold Db.admitJob
  simp only [funext hteam]
  rfl

end Admission

/-! The board during a pass -/

/-- What `claim_task` reads of a task besides its own row. -/
def TeamTaskRow.progress (t : TeamTaskRow) : String × Bool := (t.taskId, t.status == .completed)

theorem isUnblocked_congr {team' : TeamView}
    (h : team.tasks.map (·.progress) = team'.tasks.map (·.progress)) :
    team.isUnblocked task = team'.isUnblocked task := by
  have hany : ∀ (view : TeamView) id, (view.tasks.any fun t => t.taskId == id &&
      t.status == .completed) = (view.tasks.map (·.progress)).any fun x => x.1 == id && x.2 := by
    intro view id
    rw [List.any_map]
    rfl
  unfold TeamView.isUnblocked
  simp only [hany, h]

/-- The board is as a pass has read it, but for the tasks that the pass has placed. -/
structure Snapshot (scope : SessionScope) (team : TeamView) (db : Db) : Prop where
  row : db.getTeamRow scope team.row.teamId = some team.row
  members : db.listMembers scope team.row.teamId = team.members
  progress : (db.listTasks scope team.row.teamId).map (·.progress) = team.tasks.map (·.progress)

theorem snapshot_of_getTeam {teamId : String} (h : db.getTeam scope teamId = some team) :
    team.row.teamId = teamId ∧ Snapshot scope team db ∧
      team.tasks = db.listTasks scope team.row.teamId := by
  obtain ⟨hrow, hmembers, htasks⟩ := getTeam_eq_some_iff.mp h
  have hid := (getTeamRow_eq_some_iff.mp hrow).2.2
  subst hid
  exact ⟨rfl, ⟨hrow, hmembers.symm, by rw [htasks]⟩, htasks⟩

/-- A rewritten task is listed where it was. -/
def TeamTaskRow.SamePlace (t t' : TeamTaskRow) : Prop :=
  t'.scope = t.scope ∧ t'.teamId = t.teamId ∧ t'.createdAt = t.createdAt

theorem listTasks_replace {teamId : String} {h : task'.keys = task.keys}
    (ht : task ∈ db.teamTasks.rows) (hplace : task.SamePlace task') :
    (db.putTask task task' h).listTasks scope teamId =
      (db.listTasks scope teamId).map fun a => if a.keys = task.keys then task' else a := by
  obtain ⟨hscope, hteam, hcreated⟩ := hplace
  have hid : task'.taskId = task.taskId := by simpa [TeamTaskRow.keys] using h
  have hself : ∀ a ∈ db.teamTasks.rows, a.keys = task.keys → a = task := fun a ha hk =>
    task_eq_of_taskId ha ht (by simpa [TeamTaskRow.keys] using hk)
  have hrows : (db.teamTasks.replace task task' h).rows =
      db.teamTasks.rows.map fun a => if a.keys = task.keys then task' else a := by
    simp only [Table.replace, Table.update]
    refine List.map_congr_left fun a _ => ?_
    by_cases ha : a.keys = task.keys <;> simp [ha]
  unfold Db.listTasks Db.putTask Table.filter
  rw [List.map_take, hrows, insertionSort_filter_map]
  · intro a ha
    by_cases hk : a.keys = task.keys
    · simp [hself a ha hk, hscope, hteam]
    · simp [hk]
  · -- the rewritten row keeps its place in the order
    have hplace : ∀ a ∈ db.teamTasks.rows,
        (if a.keys = task.keys then task' else a).createdAt = a.createdAt ∧
          (if a.keys = task.keys then task' else a).taskId = a.taskId := by
      intro a ha
      by_cases hk : a.keys = task.keys
      · simp [hself a ha hk, hcreated, hid]
      · simp [hk]
    intro a ha b hb
    unfold TeamTaskRow.Before
    rw [(hplace a ha).1, (hplace a ha).2, (hplace b hb).1, (hplace b hb).2]

theorem mem_listTasks_replace {teamId : String} (ht : task ∈ db.teamTasks.rows)
    (hplace : task.SamePlace task') (h : task'.keys = task.keys) {other : TeamTaskRow}
    (hother : other ∈ db.listTasks scope teamId)
    (hne : other.taskId ≠ task.taskId) :
    other ∈ (db.putTask task task' h).listTasks scope teamId := by
  rw [listTasks_replace ht hplace]
  exact List.mem_map.mpr ⟨other, hother, by simp [TeamTaskRow.keys, hne]⟩

theorem Snapshot.replace (hs : Snapshot scope team db) {h : task'.keys = task.keys}
    (ht : task ∈ db.teamTasks.rows) (hplace : task.SamePlace task')
    (hstatus : task.status ≠ .completed) (hstatus' : task'.status ≠ .completed)
    {table : Table JobRow String JobRow.keys} :
    Snapshot scope team ((db.putTask task task' h).setJobs table) := by
  refine ⟨hs.row, hs.members, ?_⟩
  have hid : task'.taskId = task.taskId := by simpa [TeamTaskRow.keys] using h
  have hlist : (db.putTask task task' h).listTasks scope team.row.teamId =
      (db.listTasks scope team.row.teamId).map fun a =>
        if a.keys = task.keys then task' else a :=
    listTasks_replace ht hplace
  rw [← hs.progress]
  refine (congrArg (List.map TeamTaskRow.progress) hlist).trans ?_
  rw [List.map_map]
  refine List.map_congr_left fun a ha => ?_
  by_cases hk : a.keys = task.keys
  · have ha : a = task := task_eq_of_taskId (mem_listTasks ha).1 ht
      (by simpa [TeamTaskRow.keys] using hk)
    simp [ha, TeamTaskRow.progress, hid, hstatus, hstatus']
  · simp [hk]

/-! Placing a task -/

theorem assignee_eq_some (h : assignee team busy task = some member) :
    task.status = .pending ∧ team.isUnblocked task = true ∧ member ∈ team.members ∧
      some member.memberId ∉ busy ∧
      (task.ownerMemberId = some member.memberId ∨ task.ownerMemberId = none) := by
  unfold assignee at h
  split_ifs at h with hblocked
  push Not at hblocked
  obtain ⟨hmem, hsel⟩ := List.find?_eq_some_iff_append.mp h |>.imp_right fun _ =>
    List.mem_of_find?_eq_some h
  simp only [Bool.and_eq_true, Bool.or_eq_true, Bool.not_eq_true', beq_iff_eq,
    Option.isNone_iff_eq_none] at hmem
  refine ⟨hblocked.1, by simpa using hblocked.2, hsel, by simpa using hmem.1, ?_⟩
  exact hmem.2.imp_right And.left

/-- The outcome of `claim_task` for a member that a pass has chosen. -/
theorem run_claimTask (hs : Snapshot scope team db)
    (ht : task ∈ db.listTasks scope team.row.teamId)
    (hassign : assignee team busy task = some member) :
    (claimTask scope team.row.teamId task.taskId member.memberId task.version).run env db =
      if team.row.status = .active then
        .ok (task.claim member.memberId env.now,
          db.putTask task (task.claim member.memberId env.now) rfl)
      else .error (.conflict "task dependencies are not completed") := by
  obtain ⟨hpending, hunblocked, hmember, -, howner⟩ := assignee_eq_some hassign
  obtain ⟨hmem, hscope, hteam⟩ := mem_listTasks ht
  let view : TeamView := ⟨team.row, db.listMembers scope team.row.teamId,
    db.listTasks scope team.row.teamId⟩
  have hview : db.getTeam scope team.row.teamId = some view :=
    getTeam_eq_some_iff.mpr ⟨hs.row, rfl, rfl⟩
  have hfindMember : ∃ m, view.members.find? (·.memberId == member.memberId) = some m := by
    rw [← Option.isSome_iff_exists, List.find?_isSome]
    exact ⟨member, by simpa only [view, hs.members] using hmember, by simp⟩
  have hfindTask : view.tasks.find? (·.taskId == task.taskId) = some task := find?_listTasks ht
  have hunblocked' : view.isUnblocked task = true :=
    (isUnblocked_congr hs.progress).trans hunblocked
  have hrequireTeam : (requireTeam scope team.row.teamId).run env db = .ok (view, db) :=
    run_requireTeam_eq_ok.mpr ⟨hview, rfl⟩
  obtain ⟨m, hm⟩ := hfindMember
  have hrequireMember :
      (requireMember scope team.row.teamId member.memberId).run env db = .ok (m, db) := by
    rw [requireMember, run_bind_of_ok hrequireTeam]
    simp only [hm]
    rfl
  rw [claimTask, run_bind_of_ok run_ask, run_bind_of_ok hrequireTeam,
    run_bind_of_ok hrequireMember]
  simp only [hfindTask, hunblocked', Bool.true_eq_false, or_false]
  by_cases hactive : team.row.status = .active
  · have hany : task.ownerMemberId.any (· ≠ member.memberId) = false := by
      rcases howner with h | h <;> simp [h]
    have hpins : db.teamTasks.Pins fun t => t.scope == scope && t.teamId == team.row.teamId &&
        t.taskId == task.taskId && t.status == .pending && t.version == task.version := by
      refine pins_tasks task.taskId fun t h => ?_
      simp only [Bool.and_eq_true, beq_iff_eq] at h
      exact h.1.1.2
    rw [if_neg (not_not.mpr hactive), if_neg (by rw [hany]; exact Bool.false_ne_true),
      if_pos hactive,
      run_updateOne_of_mem hpins hmem (by simp [hscope, hteam, hpending])]
    rfl
  · rw [if_pos hactive, if_neg hactive]
    rfl

/-- The row of a task that a pass has claimed for a member and bound to a job. -/
def TeamTaskRow.start (memberId jobId : String) (now : Nat) (t : TeamTaskRow) : TeamTaskRow :=
  { t.claim memberId now with jobId := t.jobId.or (some jobId) }

/-- A task is started: it has an owner and a job. -/
def Db.started (db : Db) (task : TeamTaskRow) (memberId jobId : String) (now : Nat)
    (jobs : Table JobRow String JobRow.keys) : Db :=
  (db.putTask task (task.start memberId jobId now) rfl).setJobs jobs

/-- The row of a task whose job was refused. -/
def TeamTaskRow.refuse (memberId : String) (now : Nat) (t : TeamTaskRow) : TeamTaskRow :=
  (t.claim memberId now).finish .failed "Team allocation limit reached" now

/-- A task and its team fail, because the job of the task was refused. -/
def Db.refused (db : Db) (row : TeamRow) (task : TeamTaskRow) (memberId : String) (now : Nat) :
    Db :=
  (db.putTask task (task.refuse memberId now) rfl).putTeam row
    (row.change (some .failed) none now) rfl

theorem run_bindTaskJob_claimed {jobId : String} (ht : task ∈ db.teamTasks.rows)
    (hrunning : task.status = .running) : (bindTaskJob task.scope task.taskId jobId).run env db =
      .ok ((), db.putTask task { task with jobId := task.jobId.or (some jobId) } rfl) := by
  cases hjob : task.jobId with
  | none => exact run_bindTaskJob ht hrunning hjob
  | some id =>
    have hself : ({ task with jobId := some id } : TeamTaskRow) = task := by
      cases task
      simp_all
    rw [bindTaskJob, run_bind_of_ok run_get, run_set, Table.update_eq_self]
    · simp only [Option.or_some, Option.getD_some, hself, Db.putTask]
      rw [Table.replace_self ht (by simp [TeamTaskRow.keys])]
    · intro t hmem hsel
      simp only [Bool.and_eq_true, beq_iff_eq, Option.isNone_iff_eq_none] at hsel
      rw [task_eq_of_taskId hmem ht hsel.1.1.2, hjob] at hsel
      cases hsel.2

/-- What the loop over the tasks of an active team comes to. -/
inductive Placed (dumps : Json → String) (settings : CollaborationSettings) (env : Env)
    (scope : SessionScope) (team : TeamView) (newId : Option String → String) :
    List TeamTaskRow → List (Option String) → Db →
      Except CollaborationFailure (List (Option String) × Db) → Prop
  | nil {busy : List (Option String)} {db : Db} :
    Placed dumps settings env scope team newId [] busy db (.ok (busy, db))
  | skip {task : TeamTaskRow} {tasks : List TeamTaskRow} {busy : List (Option String)} {db : Db}
      {r : Except CollaborationFailure (List (Option String) × Db)}
      (none : assignee team busy task = none)
      (rest : Placed dumps settings env scope team newId tasks busy db r) :
    Placed dumps settings env scope team newId (task :: tasks) busy db r
  | invalid {task : TeamTaskRow} {tasks : List TeamTaskRow} {busy : List (Option String)}
      {db : Db} {member : TeamMemberRow} (assigned : assignee team busy task = some member)
      (invalid : (taskRequest dumps team task member).isValid = false) :
    Placed dumps settings env scope team newId (task :: tasks) busy db (.error .validation)
  | refuse {task : TeamTaskRow} {tasks : List TeamTaskRow} {busy : List (Option String)}
      {db : Db} {member : TeamMemberRow} (assigned : assignee team busy task = some member)
      (valid : (taskRequest dumps team task member).isValid = true)
      (full : db.hasRoom settings scope team.row.teamId (2 * settings.maxJobTokens) = false) :
    Placed dumps settings env scope team newId (task :: tasks) busy db
      (.ok (busy, db.refused team.row task member.memberId env.now))
  | clash {task : TeamTaskRow} {tasks : List TeamTaskRow} {busy : List (Option String)}
      {db : Db} {member : TeamMemberRow} (assigned : assignee team busy task = some member)
      (valid : (taskRequest dumps team task member).isValid = true)
      (room : db.hasRoom settings scope team.row.teamId (2 * settings.maxJobTokens) = true)
      (clash : db.jobs.insert?
        ((taskJob dumps team newId task member).row scope settings.limits env.now) = none) :
    Placed dumps settings env scope team newId (task :: tasks) busy db (.error .integrity)
  | start {task : TeamTaskRow} {tasks : List TeamTaskRow} {busy : List (Option String)}
      {db : Db} {member : TeamMemberRow} {jobs : Table JobRow String JobRow.keys}
      {r : Except CollaborationFailure (List (Option String) × Db)}
      (assigned : assignee team busy task = some member)
      (valid : (taskRequest dumps team task member).isValid = true)
      (room : db.hasRoom settings scope team.row.teamId (2 * settings.maxJobTokens) = true)
      (inserted : db.jobs.insert?
        ((taskJob dumps team newId task member).row scope settings.limits env.now) = some jobs)
      (rest : Placed dumps settings env scope team newId tasks (some member.memberId :: busy)
        (db.started task member.memberId (newId (some task.taskId)) env.now jobs) r) :
    Placed dumps settings env scope team newId (task :: tasks) busy db r

section Placing

variable {mid : String}

theorem admitJob_task (settings : CollaborationSettings) (host : Host)
    (newId : Option String → String) (hs : Snapshot scope team db) (hmember : member ∈ team.members)
    (hvalid : (taskRequest dumps team task member).isValid = true) :
    if db.hasRoom settings scope team.row.teamId (2 * settings.maxJobTokens) then
      db.admitJob scope host (taskJob dumps team newId task member) settings.limits = .ok ()
    else ∃ message, db.admitJob scope host (taskJob dumps team newId task member) settings.limits =
      .error (.conflict message) := by
  have htokens : (taskJob dumps team newId task member).tokens settings =
      2 * settings.maxJobTokens := by
    simp [NewJob.tokens, taskJob]
    omega
  rw [← htokens]
  exact admitJob_eq hvalid hs.row (hs.members.symm ▸ hmember) rfl rfl rfl

section Claimed

variable (hs : Snapshot scope team db) (ht : task ∈ db.listTasks scope team.row.teamId)

include ht in
theorem run_giveJob_of_room {table : Table JobRow String JobRow.keys}
    (hadmitted : db.admitJob scope env.host (taskJob dumps team newId task member) settings.limits =
      .ok ())
    (hinsert : db.jobs.insert?
      ((taskJob dumps team newId task member).row scope settings.limits env.now) = some table) :
    (giveJob dumps settings scope team newId task member).run env
        (db.putTask task (task.claim member.memberId env.now) rfl) =
      .ok (.started, db.started task member.memberId (newId (some task.taskId)) env.now table) := by
  obtain ⟨hmem, hscope, -⟩ := mem_listTasks ht
  let claimed := db.putTask task (task.claim member.memberId env.now) rfl
  have hcreate : (createJob scope (taskJob dumps team newId task member) settings.limits).run env
      claimed = .ok ((taskJob dumps team newId task member).row scope settings.limits env.now,
        claimed.setJobs table) :=
    run_createJob_eq_ok.mpr ⟨admitJob_putTask.trans hadmitted, rfl, table, hinsert, rfl⟩
  have hclaimed : task.claim member.memberId env.now ∈ claimed.teamTasks.rows := mem_putTask hmem
  have hbind : (bindTaskJob task.scope task.taskId (newId (some task.taskId))).run env
      (claimed.setJobs table) =
        .ok ((), db.started task member.memberId (newId (some task.taskId)) env.now table) := by
    have hmem' : task.claim member.memberId env.now ∈ (claimed.setJobs table).teamTasks.rows :=
      hclaimed
    have hput : claimed.putTask (task.claim member.memberId env.now)
        (task.start member.memberId (newId (some task.taskId)) env.now) rfl =
          db.putTask task (task.start member.memberId (newId (some task.taskId)) env.now) rfl :=
      putTask_putTask
    refine (run_bindTaskJob_claimed hmem' rfl).trans ?_
    exact congrArg (fun d : Db => Except.ok ((), d.setJobs table)) hput
  rw [giveJob, run_bind_of_ok (run_trying_of_ok hcreate), ← hscope]
  exact run_bind_of_ok hbind

theorem run_giveJob_of_clash
    (hadmitted : db.admitJob scope env.host (taskJob dumps team newId task member) settings.limits =
      .ok ())
    (hinsert : db.jobs.insert?
      ((taskJob dumps team newId task member).row scope settings.limits env.now) = none) :
    (giveJob dumps settings scope team newId task member).run env
        (db.putTask task (task.claim member.memberId env.now) rfl) = .error .integrity := by
  have hcreate : (createJob scope (taskJob dumps team newId task member) settings.limits).run env
      (db.putTask task (task.claim member.memberId env.now) rfl) = .error .integrity :=
    run_createJob_of_clash (admitJob_putTask.trans hadmitted) hinsert
  rw [giveJob, run_bind_of_ok (run_trying_of_error hcreate)]
  rfl

theorem run_giveJob_of_invalid
    (hadmitted : db.admitJob scope env.host (taskJob dumps team newId task member) settings.limits =
      .error .validation) :
    (giveJob dumps settings scope team newId task member).run env
        (db.putTask task (task.claim member.memberId env.now) rfl) = .error .validation := by
  have hcreate : (createJob scope (taskJob dumps team newId task member) settings.limits).run env
      (db.putTask task (task.claim member.memberId env.now) rfl) = .error .validation :=
    run_createJob_of_error (admitJob_putTask.trans hadmitted)
  rw [giveJob, run_bind_of_ok (run_trying_of_error hcreate)]
  rfl

include hs ht in
theorem run_giveJob_of_conflict {message : String}
    (hadmitted : db.admitJob scope env.host (taskJob dumps team newId task member) settings.limits =
      .error (.conflict message)) :
    (giveJob dumps settings scope team newId task member).run env
        (db.putTask task (task.claim member.memberId env.now) rfl) =
      .ok (.refused, db.refused team.row task member.memberId env.now) := by
  obtain ⟨hmem, hscope, hteam⟩ := mem_listTasks ht
  obtain ⟨hrow, hrowScope, -⟩ := getTeamRow_eq_some_iff.mp hs.row
  let claimed := db.putTask task (task.claim member.memberId env.now) rfl
  have hcreate : (createJob scope (taskJob dumps team newId task member) settings.limits).run env
      claimed = .error (.conflict message) :=
    run_createJob_of_error (admitJob_putTask.trans hadmitted)
  have hget : claimed.getTask scope task.taskId = some (task.claim member.memberId env.now) :=
    getTask_eq_some_iff.mpr ⟨mem_putTask hmem, hscope, rfl⟩
  have hfinish : (finishTask scope team.row.teamId task.taskId (some member.memberId)
      (task.claim member.memberId env.now).version .failed "Team allocation limit reached").run env
        claimed = .ok (task.refuse member.memberId env.now,
          db.putTask task (task.refuse member.memberId env.now) rfl) :=
    run_finishTask_eq_ok.mpr ⟨rfl, task.claim member.memberId env.now, mem_putTask hmem, hscope,
      hteam, rfl, rfl, rfl, rfl, rfl, putTask_putTask.symm⟩
  have hupdate : (updateTeam scope team.row.teamId team.row.version (some .failed) none).run env
        (db.putTask task (task.refuse member.memberId env.now) rfl) =
      .ok (team.row.change (some .failed) none env.now,
        db.refused team.row task member.memberId env.now) :=
    run_updateTeam_eq_ok.mpr ⟨team.row, hrow, hrowScope, rfl, rfl, rfl, rfl⟩
  rw [giveJob, run_bind_of_ok (run_trying_of_error hcreate)]
  refine (run_bind_of_ok run_get).trans ?_
  simp only [hget]
  rw [run_bind_of_ok hfinish, run_bind_of_ok hupdate]
  rfl

end Claimed

theorem run_placeTask (hs : Snapshot scope team db)
    (ht : task ∈ db.listTasks scope team.row.teamId)
    (hassign : assignee team busy task = some member) (hactive : team.row.status = .active) :
    (placeTask dumps settings scope team newId task member).run env db =
      (giveJob dumps settings scope team newId task member).run env
        (db.putTask task (task.claim member.memberId env.now) rfl) := by
  have hclaim : (claimTask scope team.row.teamId task.taskId member.memberId task.version).run env
      db = _ := run_claimTask hs ht hassign
  rw [if_pos hactive] at hclaim
  rw [placeTask, run_bind_of_ok (run_trying_of_ok hclaim)]

theorem run_placeTask_closed (hs : Snapshot scope team db)
    (ht : task ∈ db.listTasks scope team.row.teamId)
    (hassign : assignee team busy task = some member) (hclosed : team.row.status ≠ .active) :
    (placeTask dumps settings scope team newId task member).run env db = .ok (.skipped, db) := by
  have hclaim : (claimTask scope team.row.teamId task.taskId member.memberId task.version).run env
      db = _ := run_claimTask hs ht hassign
  rw [if_neg hclosed] at hclaim
  rw [placeTask, run_bind_of_ok (run_trying_of_error hclaim)]
  rfl

/-- A pass over a team that was closed in the meantime places nothing. -/
theorem run_placeTasks_closed (hs : Snapshot scope team db) (hclosed : team.row.status ≠ .active)
    (hts : ∀ t ∈ tasks, t ∈ db.listTasks scope team.row.teamId) :
    (placeTasks dumps settings scope team newId tasks busy).run env db = .ok (busy, db) := by
  induction tasks with
  | nil => rfl
  | cons task tasks ih =>
    have ih := ih fun t ht => hts t (List.mem_cons_of_mem _ ht)
    rw [placeTasks]
    cases hassign : assignee team busy task with
    | none => exact ih
    | some member =>
      have hskip : (placeTask dumps settings scope team newId task member).run env db = _ :=
        run_placeTask_closed hs (hts task List.mem_cons_self) hassign hclosed
      dsimp only
      rw [run_bind_of_ok hskip]
      exact ih

theorem samePlace_start {jobId : String} : task.SamePlace (task.start mid jobId env.now) :=
  ⟨rfl, rfl, rfl⟩

theorem Snapshot.started {jobId : String} (hs : Snapshot scope team db)
    (ht : task ∈ db.listTasks scope team.row.teamId) (hpending : task.status = .pending)
    {table : Table JobRow String JobRow.keys} :
    Snapshot scope team (db.started task mid jobId env.now table) :=
  hs.replace (mem_listTasks ht).1 samePlace_start (by simp [hpending])
    (by simp [TeamTaskRow.start, TeamTaskRow.claim])

/-- The loop over the tasks of an active team. -/
theorem placed (hs : Snapshot scope team db) (hactive : team.row.status = .active)
    (hts : ∀ t ∈ tasks, t ∈ db.listTasks scope team.row.teamId)
    (hnodup : (tasks.map (·.taskId)).Nodup) :
    Placed dumps settings env scope team newId tasks busy db
      ((placeTasks dumps settings scope team newId tasks busy).run env db) := by
  induction tasks generalizing busy db with
  | nil => exact .nil
  | cons task tasks ih =>
    have ht := hts task List.mem_cons_self
    obtain ⟨hne, hnodup⟩ := List.nodup_cons.mp hnodup
    rw [placeTasks]
    cases hassign : assignee team busy task with
    | none => exact .skip hassign (ih hs (fun t h => hts t (List.mem_cons_of_mem _ h)) hnodup)
    | some member =>
      dsimp only
      obtain ⟨hpending, -, hmember, -, -⟩ := assignee_eq_some hassign
      have hplace : (placeTask dumps settings scope team newId task member).run env db = _ :=
        run_placeTask hs ht hassign hactive
      cases hvalid : (taskRequest dumps team task member).isValid with
      | false =>
        rw [run_bind_of_error (hplace.trans (run_giveJob_of_invalid (admitJob_of_invalid hvalid)))]
        exact .invalid hassign hvalid
      | true =>
        have hadmitted := admitJob_task settings env.host newId hs hmember hvalid
        cases hroom : db.hasRoom settings scope team.row.teamId (2 * settings.maxJobTokens) with
        | false =>
          obtain ⟨message, hadmitted⟩ := by
            simpa only [hroom, Bool.false_eq_true, if_false] using hadmitted
          rw [run_bind_of_ok (hplace.trans (run_giveJob_of_conflict hs ht hadmitted))]
          exact .refuse hassign hvalid hroom
        | true =>
          rw [if_pos hroom] at hadmitted
          cases hinsert : db.jobs.insert?
              ((taskJob dumps team newId task member).row scope settings.limits env.now) with
          | none =>
            rw [run_bind_of_error (hplace.trans (run_giveJob_of_clash hadmitted hinsert))]
            exact .clash hassign hvalid hroom hinsert
          | some table =>
            rw [run_bind_of_ok (hplace.trans (run_giveJob_of_room ht hadmitted hinsert))]
            refine .start hassign hvalid hroom hinsert
              (ih (hs.started ht hpending) (fun t h => ?_) hnodup)
            refine mem_listTasks_replace (mem_listTasks ht).1 samePlace_start rfl
              (hts t (List.mem_cons_of_mem _ h)) fun hid => hne ?_
            exact List.mem_map.mpr ⟨t, h, hid⟩

end Placing

theorem nodup_listTasks {teamId : String} :
    ((db.listTasks scope teamId).map (·.taskId)).Nodup := by
  have hrows : (db.teamTasks.rows.map (·.taskId)).Nodup := by
    refine List.pairwise_map.mpr (db.teamTasks.unique.imp fun h hid => ?_)
    simp [TeamTaskRow.keys, List.disjoint_singleton, hid] at h
  have hfilter := hrows.sublist (List.filter_sublist (p := fun t : TeamTaskRow =>
    t.scope == scope && t.teamId == teamId) (l := db.teamTasks.rows) |>.map (·.taskId))
  have hsorted := ((List.perm_insertionSort TeamTaskRow.Before _).map (·.taskId)).nodup_iff.mpr
    hfilter
  exact hsorted.sublist ((List.take_sublist 500 _).map TeamTaskRow.taskId)

/-! The whole pass -/

/-- Nothing is left to place on a board whose tasks have all ended. -/
theorem run_placeTasks_done (hdone : ∀ t ∈ tasks, t.status.isTerminal = true) :
    (placeTasks dumps settings scope team newId tasks busy).run env db = .ok (busy, db) := by
  induction tasks with
  | nil => rfl
  | cons task tasks ih =>
    have hnone : assignee team busy task = none := by
      have hterminal := hdone task List.mem_cons_self
      unfold assignee
      rw [if_pos (.inl fun hpending => by simp [hpending, TaskStatus.isTerminal] at hterminal)]
    rw [placeTasks, hnone]
    exact ih fun t ht => hdone t (List.mem_cons_of_mem _ ht)

section Pass

variable {teamId : String} (hteam : db.getTeam scope teamId = some team)
include hteam

theorem run_schedulePass_of_open (hopen : team.tasks.all (·.status.isTerminal) = false) :
    (schedulePass dumps settings scope teamId newId).run env db =
      ((fun _ => ()) <$> placeTasks dumps settings scope team newId team.tasks
        (busyMembers (db.listJobs scope (some teamId)))).run env db := by
  have hrequire : (requireTeam scope teamId).run env db = .ok (team, db) :=
    run_requireTeam_eq_ok.mpr ⟨hteam, rfl⟩
  rw [schedulePass, run_bind_of_ok hrequire, run_bind_of_ok run_get]
  simp only [hopen, Bool.false_eq_true, and_false, if_false]
  rfl

theorem run_schedulePass_of_done (hdone : team.tasks.all (·.status.isTerminal) = true) :
    (schedulePass dumps settings scope teamId newId).run env db =
      if busyMembers (db.listJobs scope (some teamId)) = [] ∧
          db.listJobs scope (some teamId) ≠ [] then
        (closeTeam dumps settings scope team (db.listJobs scope (some teamId)) newId).run env db
      else .ok ((), db) := by
  have hrequire : (requireTeam scope teamId).run env db = .ok (team, db) :=
    run_requireTeam_eq_ok.mpr ⟨hteam, rfl⟩
  have hplace : (placeTasks dumps settings scope team newId team.tasks
      (busyMembers (db.listJobs scope (some teamId)))).run env db = _ :=
    run_placeTasks_done (List.all_eq_true.mp hdone)
  rw [schedulePass, run_bind_of_ok hrequire, run_bind_of_ok run_get]
  dsimp only
  rw [run_bind_of_ok hplace]
  simp only [hdone, and_true]
  split_ifs <;> rfl

end Pass

section Closing

variable (hs : Snapshot scope team db)
include hs

/-- The status and the configuration that a closing pass gives a team. -/
def closedRow (team : TeamView) (jobs : List JobRow) (now : Nat) : TeamRow :=
  team.row.change (some (if jobs.all (·.status = .completed) then .completed else .failed))
    (some { team.row.config with summary := some (closingSummary team jobs) }) now

/-- The row of a team whose final report is under way. -/
def reportedRow (team : TeamView) (jobId : String) (now : Nat) : TeamRow :=
  team.row.change none (some { team.row.config with finalJobId := some jobId }) now

theorem run_closeTeam_of_reported
    (h : team.tasks = [] ∨ team.row.config.finalJobId.isSome = true) :
    (closeTeam dumps settings scope team jobs newId).run env db =
      .ok ((), db.putTeam team.row (closedRow team jobs env.now) rfl) := by
  obtain ⟨hrow, hscope, -⟩ := getTeamRow_eq_some_iff.mp hs.row
  rw [closeTeam, if_pos h]
  exact run_map_eq_ok.mpr
    ⟨_, run_updateTeam_eq_ok.mpr ⟨team.row, hrow, hscope, rfl, rfl, rfl, rfl⟩, rfl⟩

section Report

variable (htasks : team.tasks ≠ []) (hfinal : team.row.config.finalJobId = none)

omit hs in
include htasks hfinal in
theorem run_closeTeam_of_leaderless (h : team.members.find? (·.role = .leader) = none) :
    (closeTeam dumps settings scope team jobs newId).run env db = .error .stopIteration := by
  rw [closeTeam, if_neg (by simp [htasks, hfinal]), h]
  rfl

variable (hleader : team.members.find? (·.role = .leader) = some leader)

omit hs in
include htasks hfinal hleader in
theorem closeTeam_eq : closeTeam dumps settings scope team jobs newId =
    (fun _ => ()) <$> requestReport dumps settings scope team jobs newId leader := by
  rw [closeTeam, if_neg (by simp [htasks, hfinal]), hleader]

omit hs in
include htasks hfinal hleader in
theorem run_closeTeam_of_invalid
    (hinvalid : (reportRequest dumps team jobs leader).isValid = false) :
    (closeTeam dumps settings scope team jobs newId).run env db = .error .validation := by
  have hcreate : (createJob scope (reportJob dumps team jobs newId leader) settings.limits).run env
      db = .error .validation := run_createJob_of_error (admitJob_of_invalid hinvalid)
  rw [closeTeam_eq htasks hfinal hleader, run_map, requestReport, run_bind_of_error hcreate]

omit hs in
theorem admitJob_report (settings : CollaborationSettings) (host : Host)
    (newId : Option String → String) (hs : Snapshot scope team db)
    (hleader : team.members.find? (·.role = .leader) = some leader)
    (hvalid : (reportRequest dumps team jobs leader).isValid = true) :
    if db.hasRoom settings scope team.row.teamId settings.maxJobTokens then
      db.admitJob scope host (reportJob dumps team jobs newId leader) settings.limits = .ok ()
    else ∃ message, db.admitJob scope host (reportJob dumps team jobs newId leader)
      settings.limits = .error (.conflict message) := by
  have hmember : leader ∈ db.listMembers scope team.row.teamId :=
    hs.members.symm ▸ List.mem_of_find?_eq_some hleader
  have htokens : (reportJob dumps team jobs newId leader).tokens settings =
      settings.maxJobTokens := by
    simp [NewJob.tokens, reportJob]
  rw [← htokens]
  exact admitJob_eq hvalid hs.row hmember rfl rfl rfl

include htasks hfinal hleader in
theorem run_closeTeam_of_full (hvalid : (reportRequest dumps team jobs leader).isValid = true)
    (hfull : db.hasRoom settings scope team.row.teamId settings.maxJobTokens = false) :
    ∃ message, (closeTeam dumps settings scope team jobs newId).run env db =
      .error (.conflict message) := by
  have hadmitted := admitJob_report settings env.host newId hs hleader hvalid
  rw [hfull] at hadmitted
  obtain ⟨message, hadmitted⟩ := hadmitted
  rw [closeTeam_eq htasks hfinal hleader, run_map, requestReport,
    run_bind_of_error (run_createJob_of_error hadmitted)]
  exact ⟨message, rfl⟩

include htasks hfinal hleader in
theorem run_closeTeam_of_room {table : Table JobRow String JobRow.keys}
    (hvalid : (reportRequest dumps team jobs leader).isValid = true)
    (hroom : db.hasRoom settings scope team.row.teamId settings.maxJobTokens = true)
    (hinsert : db.jobs.insert?
      ((reportJob dumps team jobs newId leader).row scope settings.limits env.now) = some table) :
    (closeTeam dumps settings scope team jobs newId).run env db =
      .ok ((),
        (db.setJobs table).putTeam team.row (reportedRow team (newId none) env.now) rfl) := by
  have hadmitted := admitJob_report settings env.host newId hs hleader hvalid
  rw [if_pos hroom] at hadmitted
  obtain ⟨hrow, hscope, -⟩ := getTeamRow_eq_some_iff.mp hs.row
  have hcreate : (createJob scope (reportJob dumps team jobs newId leader) settings.limits).run
      env db = _ := run_createJob_eq_ok.mpr ⟨hadmitted, rfl, table, hinsert, rfl⟩
  have hupdate : (updateTeam scope team.row.teamId team.row.version none
      (some { team.row.config with finalJobId := some (newId none) })).run env (db.setJobs table) =
        .ok (reportedRow team (newId none) env.now,
          (db.setJobs table).putTeam team.row (reportedRow team (newId none) env.now) rfl) :=
    run_updateTeam_eq_ok.mpr ⟨team.row, hrow, hscope, rfl, rfl, rfl, rfl⟩
  rw [closeTeam_eq htasks hfinal hleader]
  refine run_map_eq_ok.mpr ⟨reportedRow team (newId none) env.now, ?_, rfl⟩
  rw [requestReport, run_bind_of_ok hcreate]
  exact hupdate

end Report

end Closing

end MultiClaw
