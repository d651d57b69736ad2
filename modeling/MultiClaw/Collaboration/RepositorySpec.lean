import MultiClaw.Collaboration.Service

/-! What the collaboration transactions do to the tables. -/
namespace MultiClaw

open Base Transaction CollaborationRepository

variable {env : Env} {db db' : Db} {scope : SessionScope} {teamId taskId jobId memberId : String}
  {job : JobRow} {row : TeamRow} {task : TeamTaskRow} {team : TeamView} {new : NewJob}
  {limits : JobLimits} {version : Nat}

theorem job_eq_of_jobId {j j' : JobRow} (hj : j ∈ db.jobs.rows) (hj' : j' ∈ db.jobs.rows)
    (hid : j.jobId = j'.jobId) : j = j' :=
  Table.eq_of_shared_key hj hj' (k := j.jobId) (by simp [JobRow.keys]) (by simp [JobRow.keys, hid])

theorem team_eq_of_teamId {t t' : TeamRow} (ht : t ∈ db.teams.rows) (ht' : t' ∈ db.teams.rows)
    (hid : t.teamId = t'.teamId) : t = t' :=
  Table.eq_of_shared_key ht ht' (k := t.teamId) (by simp [TeamRow.keys])
    (by simp [TeamRow.keys, hid])

theorem task_eq_of_taskId {t t' : TeamTaskRow} (ht : t ∈ db.teamTasks.rows)
    (ht' : t' ∈ db.teamTasks.rows) (hid : t.taskId = t'.taskId) : t = t' :=
  Table.eq_of_shared_key ht ht' (k := t.taskId) (by simp [TeamTaskRow.keys])
    (by simp [TeamTaskRow.keys, hid])

theorem pins_jobs (jobId : String) {p : JobRow → Bool} (h : ∀ j, p j = true → j.jobId = jobId) :
    db.jobs.Pins p := by
  intro a _ b _ ha hb
  exact ⟨jobId, by simp [JobRow.keys, h a ha], by simp [JobRow.keys, h b hb]⟩

theorem pins_teams (teamId : String) {p : TeamRow → Bool}
    (h : ∀ t, p t = true → t.teamId = teamId) :
    db.teams.Pins p := by
  intro a _ b _ ha hb
  exact ⟨teamId, by simp [TeamRow.keys, h a ha], by simp [TeamRow.keys, h b hb]⟩

theorem pins_tasks (taskId : String) {p : TeamTaskRow → Bool}
    (h : ∀ t, p t = true → t.taskId = taskId) :
    db.teamTasks.Pins p := by
  intro a _ b _ ha hb
  exact ⟨taskId, by simp [TeamTaskRow.keys, h a ha], by simp [TeamTaskRow.keys, h b hb]⟩

/-- A job, a team or a task is rewritten. -/
def Db.putJob (db : Db) (j j' : JobRow) (h : j'.keys = j.keys) : Db :=
  { db with jobs := db.jobs.replace j j' h }

@[inherit_doc Db.putJob]
def Db.putTeam (db : Db) (t t' : TeamRow) (h : t'.keys = t.keys) : Db :=
  { db with teams := db.teams.replace t t' h }

@[inherit_doc Db.putJob]
def Db.putTask (db : Db) (t t' : TeamTaskRow) (h : t'.keys = t.keys) : Db :=
  { db with teamTasks := db.teamTasks.replace t t' h }

def Db.setJobs (db : Db) (jobs : Table JobRow String JobRow.keys) : Db := { db with jobs }

theorem mem_putTask {t t' : TeamTaskRow} {h : t'.keys = t.keys} (ht : t ∈ db.teamTasks.rows) :
    t' ∈ (db.putTask t t' h).teamTasks.rows := Table.mem_replace_self h ht

theorem mem_putTeam {t t' : TeamRow} {h : t'.keys = t.keys} (ht : t ∈ db.teams.rows) :
    t' ∈ (db.putTeam t t' h).teams.rows := Table.mem_replace_self h ht

theorem putTask_putTask {t t' t'' : TeamTaskRow} {h : t'.keys = t.keys} {h' : t''.keys = t'.keys} :
    (db.putTask t t' h).putTask t' t'' h' = db.putTask t t'' (h'.trans h) := by
  simp only [Db.putTask, Table.replace_replace]

/-! Reads -/

theorem getJob_eq_some_iff : db.getJob scope jobId = some job ↔
    job ∈ db.jobs.rows ∧ job.scope = scope ∧ job.jobId = jobId := by
  constructor
  · intro h
    obtain ⟨hmem, hsel⟩ := Table.mem_of_find? h
    exact ⟨hmem, by simpa using hsel⟩
  · rintro ⟨hmem, hscope, hid⟩
    refine Table.find?_eq_some_of_mem hmem (by simp [hscope, hid]) fun a _ hsel => ?_
    have : a.jobId = jobId := by simp_all
    exact ⟨jobId, by simp [JobRow.keys, this], by simp [JobRow.keys, hid]⟩

theorem getTeamRow_eq_some_iff : db.getTeamRow scope teamId = some row ↔
    row ∈ db.teams.rows ∧ row.scope = scope ∧ row.teamId = teamId := by
  constructor
  · intro h
    obtain ⟨hmem, hsel⟩ := Table.mem_of_find? h
    exact ⟨hmem, by simpa using hsel⟩
  · rintro ⟨hmem, hscope, hid⟩
    refine Table.find?_eq_some_of_mem hmem (by simp [hscope, hid]) fun a _ hsel => ?_
    have : a.teamId = teamId := by simp_all
    exact ⟨teamId, by simp [TeamRow.keys, this], by simp [TeamRow.keys, hid]⟩

theorem getTask_eq_some_iff : db.getTask scope taskId = some task ↔
    task ∈ db.teamTasks.rows ∧ task.scope = scope ∧ task.taskId = taskId := by
  constructor
  · intro h
    obtain ⟨hmem, hsel⟩ := Table.mem_of_find? h
    exact ⟨hmem, by simpa using hsel⟩
  · rintro ⟨hmem, hscope, hid⟩
    refine Table.find?_eq_some_of_mem hmem (by simp [hscope, hid]) fun a _ hsel => ?_
    have : a.taskId = taskId := by simp_all
    exact ⟨taskId, by simp [TeamTaskRow.keys, this], by simp [TeamTaskRow.keys, hid]⟩

theorem mem_listTasks (h : task ∈ db.listTasks scope teamId) :
    task ∈ db.teamTasks.rows ∧ task.scope = scope ∧ task.teamId = teamId := by
  have h := List.mem_filter.mp ((List.mem_insertionSort _).mp (List.mem_of_mem_take h))
  exact ⟨h.1, by simpa using h.2⟩

theorem find?_listTasks (h : task ∈ db.listTasks scope teamId) :
    (db.listTasks scope teamId).find? (·.taskId == task.taskId) = some task := by
  obtain ⟨t, hfind⟩ :
      ∃ t, (db.listTasks scope teamId).find? (·.taskId == task.taskId) = some t := by
    rw [← Option.isSome_iff_exists, List.find?_isSome]
    exact ⟨task, h, by simp⟩
  have hid : t.taskId = task.taskId := by simpa using List.find?_some hfind
  rw [hfind, task_eq_of_taskId (mem_listTasks (List.mem_of_find?_eq_some hfind)).1
    (mem_listTasks h).1 hid]

theorem mem_listJobs (h : job ∈ db.listJobs scope (some teamId)) :
    job ∈ db.jobs.rows ∧ job.scope = scope ∧ job.teamId = some teamId := by
  have h := List.mem_filter.mp ((List.mem_insertionSort _).mp (List.mem_of_mem_take h))
  exact ⟨h.1, by simpa using h.2⟩

theorem getTeam_eq_some_iff : db.getTeam scope teamId = some team ↔
    db.getTeamRow scope teamId = some team.row ∧ team.members = db.listMembers scope teamId ∧
      team.tasks = db.listTasks scope teamId := by
  unfold Db.getTeam
  rw [Option.map_eq_some_iff]
  constructor
  · rintro ⟨row, hrow, rfl⟩
    exact ⟨hrow, rfl, rfl⟩
  · rintro ⟨hrow, hmembers, htasks⟩
    exact ⟨team.row, hrow, by rw [← hmembers, ← htasks]⟩

theorem run_requireTeam_eq_ok : (requireTeam scope teamId).run env db = .ok (team, db') ↔
    db.getTeam scope teamId = some team ∧ db' = db := by
  rw [requireTeam, run_bind_of_ok run_get]
  cases db.getTeam scope teamId with
  | none => simp
  | some t => simp [eq_comm]

theorem run_requireMember_eq_ok {member : TeamMemberRow} :
    (requireMember scope teamId memberId).run env db = .ok (member, db') ↔
      ∃ team, db.getTeam scope teamId = some team ∧
        team.members.find? (·.memberId == memberId) = some member ∧ db' = db := by
  rw [requireMember, run_bind_eq_ok]
  constructor
  · rintro ⟨team, db₁, hteam, h⟩
    obtain ⟨hteam, rfl⟩ := run_requireTeam_eq_ok.mp hteam
    cases hfind : team.members.find? (·.memberId == memberId) with
    | none => simp [hfind] at h
    | some m =>
      simp only [hfind, run_pure, Except.ok.injEq, Prod.mk.injEq] at h
      exact ⟨team, hteam, by rw [hfind, h.1], h.2.symm⟩
  · rintro ⟨team, hteam, hfind, rfl⟩
    refine ⟨team, db', run_requireTeam_eq_ok.mpr ⟨hteam, rfl⟩, ?_⟩
    simp only [hfind]
    rfl

/-! Writes -/

theorem run_createJob_eq_ok : (createJob scope new limits).run env db = .ok (job, db') ↔
    db.admitJob scope env.host new limits = .ok () ∧ job = new.row scope limits env.now ∧
      ∃ jobs, db.jobs.insert? (new.row scope limits env.now) = some jobs ∧
        db' = db.setJobs jobs := by
  rw [createJob, run_bind_of_ok run_ask, run_bind_of_ok run_get]
  cases db.admitJob scope env.host new limits with
  | error e => simp [run_bind]
  | ok u =>
    rw [run_bind_of_ok run_ofExcept_ok]
    dsimp only
    cases db.jobs.insert? (new.row scope limits env.now) with
    | none => simp
    | some jobs =>
      simp only [run_bind, run_set, run_pure]
      simp [eq_comm, Db.setJobs]

theorem run_createJob_of_error {e : CollaborationFailure}
    (h : db.admitJob scope env.host new limits = .error e) :
    (createJob scope new limits).run env db = .error e := by
  rw [createJob, run_bind_of_ok run_ask, run_bind_of_ok run_get, h]
  rfl

theorem run_createJob_of_clash (h : db.admitJob scope env.host new limits = .ok ())
    (hinsert : db.jobs.insert? (new.row scope limits env.now) = none) :
    (createJob scope new limits).run env db = .error .integrity := by
  rw [createJob, run_bind_of_ok run_ask, run_bind_of_ok run_get, h,
    run_bind_of_ok run_ofExcept_ok]
  simp only [hinsert]
  rfl

theorem run_updateJob_eq_ok {changes : JobChanges} :
    (updateJob scope jobId version changes).run env db = .ok (job, db') ↔
      ∃ j ∈ db.jobs.rows, j.scope = scope ∧ j.jobId = jobId ∧ j.version = version ∧
        job = j.change changes env.now ∧
        db' = db.putJob j (j.change changes env.now) rfl := by
  rw [updateJob, run_bind_of_ok run_ask, run_updateOne_eq_ok (pins_jobs jobId ?_)]
  · simp [and_assoc, Db.putJob]
  · intro j h
    simp only [Bool.and_eq_true, beq_iff_eq] at h
    exact h.1.2

theorem run_updateTeam_eq_ok {status : Option TeamStatus} {config : Option TeamConfig} :
    (updateTeam scope teamId version status config).run env db = .ok (row, db') ↔
      ∃ t ∈ db.teams.rows, t.scope = scope ∧ t.teamId = teamId ∧ t.version = version ∧
        row = t.change status config env.now ∧
        db' = db.putTeam t (t.change status config env.now) rfl := by
  rw [updateTeam, run_bind_of_ok run_ask, run_updateOne_eq_ok (pins_teams teamId ?_)]
  · simp [and_assoc, Db.putTeam]
  · intro t h
    simp only [Bool.and_eq_true, beq_iff_eq] at h
    exact h.1.2

theorem run_finishTask_eq_ok {memberId : Option String} {status : TaskStatus} {result : String} :
    (finishTask scope teamId taskId memberId version status result).run env db =
        .ok (task, db') ↔
      status.isTerminal = true ∧ ∃ t ∈ db.teamTasks.rows, t.scope = scope ∧ t.teamId = teamId ∧
        t.taskId = taskId ∧ t.ownerMemberId = memberId ∧ t.version = version ∧
        t.status = .running ∧ task = t.finish status result env.now ∧
        db' = db.putTask t (t.finish status result env.now) rfl := by
  rw [finishTask, run_bind_of_ok run_ask]
  cases status.isTerminal with
  | false => simp
  | true =>
    simp only [Bool.not_true, Bool.false_eq_true, if_false, true_and]
    rw [run_updateOne_eq_ok (pins_tasks taskId ?_)]
    · simp [and_assoc, Db.putTask]
    · intro t h
      simp only [Bool.and_eq_true, beq_iff_eq] at h
      exact h.1.1.1.2

/-- A job is bound to a claimed task that has none. -/
theorem run_bindTaskJob (ht : task ∈ db.teamTasks.rows) (hrunning : task.status = .running)
    (hnone : task.jobId = none) : (bindTaskJob task.scope task.taskId jobId).run env db =
      .ok ((), db.putTask task (task.bind jobId) rfl) := by
  have hpins : db.teamTasks.Pins fun t =>
      t.scope == task.scope && t.taskId == task.taskId && t.status == .running &&
        t.jobId.isNone := by
    refine pins_tasks task.taskId fun t h => ?_
    simp only [Bool.and_eq_true, beq_iff_eq] at h
    exact h.1.1.2
  rw [bindTaskJob, run_bind_of_ok run_get, run_set,
    Table.update_eq_replace hpins ht (by simp [hrunning, hnone])]
  rfl

end MultiClaw
