import MultiClaw.Collaboration.PassSpec
import MultiClaw.Collaboration.System

/-! What one event of the collaboration service can do to jobs, teams and tasks. -/
namespace MultiClaw

open Base Transaction Relation CollaborationRepository CollaborationService

/-- The tables of the collaboration service are the same. -/
structure SameBoard (db db' : Db) : Prop where
  jobs : db'.jobs = db.jobs
  teams : db'.teams = db.teams
  members : db'.teamMembers = db.teamMembers
  tasks : db'.teamTasks = db.teamTasks

/-- One write to the board. A team that is not active may change or get a job only if `may` allows
it. A write that starts, ends or cancels a job is loud. -/
inductive BoardMove (may : TeamRow → Prop) (loud : Prop) (env : Env) : Db → Db → Prop where
  | work {db db' : Db} (h : SameBoard db db') : BoardMove may loud env db db'
  | newTeam {db : Db} (row : TeamRow) (teams) (teamMembers) (hactive : row.status = .active)
      (hinsert : db.teams.insert? row = some teams) :
      BoardMove may loud env db { db with teams, teamMembers }
  | newTask {db : Db} (row : TeamRow) (task : TeamTaskRow) (teamTasks)
      (hrow : row ∈ db.teams.rows) (hscope : task.scope = row.scope)
      (hteam : task.teamId = row.teamId) (hactive : row.status = .active)
      (hfew : (db.teamTasks.filter fun t =>
        t.scope == row.scope && t.teamId == row.teamId).length < 100)
      (hpending : task.status = .pending)
      (hjob : task.jobId = none) (hinsert : db.teamTasks.insert? task = some teamTasks) :
      BoardMove may loud env db { db with teamTasks }
  | newJob {db : Db} (job : JobRow) (jobs) (hqueued : job.status = .queued)
      (hchild : job.child = none) (htask : job.taskId = none)
      (hteam : ∀ teamId, job.teamId = some teamId → ∃ row ∈ db.teams.rows,
        row.teamId = teamId ∧ (row.status = .active ∨ may row))
      (hinsert : db.jobs.insert? job = some jobs) : BoardMove may loud env db (db.setJobs jobs)
  | editJob {db : Db} (job : JobRow) (hjob : job ∈ db.jobs.rows) (changes : JobChanges)
      (hstatus : changes.status = none ∨ loud) :
      BoardMove may loud env db (db.putJob job (job.change changes env.now) rfl)
  | editTeam {db : Db} (row : TeamRow) (hrow : row ∈ db.teams.rows) (status : Option TeamStatus)
      (config : Option TeamConfig)
      (hstatus : status = none ∨ row.status = .active ∨ may row) :
      BoardMove may loud env db (db.putTeam row (row.change status config env.now) rfl)
  | start {db : Db} (row : TeamRow) (task : TeamTaskRow) (memberId : String) (job : JobRow) (jobs)
      (hrow : row ∈ db.teams.rows) (hactive : row.status = .active)
      (htask : task ∈ db.teamTasks.rows) (hteam : task.teamId = row.teamId)
      (hpending : task.status = .pending) (hqueued : job.status = .queued)
      (hchild : job.child = none) (hscope : job.scope = task.scope)
      (hjobTeam : job.teamId = some row.teamId) (hmember : job.memberId = some memberId)
      (hjobTask : job.taskId = some task.taskId) (hinsert : db.jobs.insert? job = some jobs) :
      BoardMove may loud env db (db.started task memberId job.jobId env.now jobs)
  | refuse {db : Db} (row : TeamRow) (task : TeamTaskRow) (memberId : String)
      (hrow : row ∈ db.teams.rows) (hactive : row.status = .active)
      (htask : task ∈ db.teamTasks.rows) (hteam : task.teamId = row.teamId)
      (hpending : task.status = .pending) :
      BoardMove may loud env db (db.refused row task memberId env.now)
  | endTask {db : Db} (task : TeamTaskRow) (status : TaskStatus) (summary : String)
      (htask : task ∈ db.teamTasks.rows) (hrunning : task.status = .running)
      (hstatus : status.isTerminal = true) (hloud : loud) :
      BoardMove may loud env db (db.putTask task (task.finish status summary env.now) rfl)
  | cancelTeam {db : Db} (row : TeamRow) (scope : SessionScope) (hrow : row ∈ db.teams.rows)
      (hscope : row.scope = scope) (hmay : row.status = .active ∨ may row) :
      BoardMove may loud env db { db with
        teams := db.teams.update (fun t => t.scope == scope && t.teamId == row.teamId)
          (TeamRow.change (some .cancelled) none env.now)
          (TeamRow.change_keys (some .cancelled) none env.now)
        teamTasks := db.teamTasks.update
          (fun t => t.scope == scope && t.teamId == row.teamId && t.status == .pending)
          TeamTaskRow.cancel TeamTaskRow.cancel_keys }

variable {may : TeamRow → Prop} {loud : Prop} {dumps : Json → String}
  {settings : CollaborationSettings} {env : Env} {db db' : Db} {scope : SessionScope}
  {team : TeamView} {newId : Option String → String} {teamId jobId : String}

/-- Every committed run of the transaction is a sequence of such writes. -/
abbrev BoardMoves {ε α : Type} (may : TeamRow → Prop) (loud : Prop) (env : Env) (db : Db)
    (x : Transaction Env Db ε α) : Prop :=
  Ensures x env db fun _ db' => ReflTransGen (BoardMove may loud env) db db'

theorem createJob_moves {new : NewJob} {limits : JobLimits} (htask : new.taskId = none)
    (hteam : ∀ teamId, new.teamId = some teamId → ∃ row ∈ db.teams.rows,
      row.teamId = teamId ∧ (row.status = .active ∨ may row)) :
    BoardMoves may loud env db (createJob scope new limits) := by
  intro job db' h
  obtain ⟨-, rfl, jobs, hinsert, rfl⟩ := run_createJob_eq_ok.mp h
  exact .single (.newJob _ jobs rfl rfl htask hteam hinsert)

theorem requireAssignee_eq_ok {o : Option String} {u : Unit}
    (h : (requireAssignee scope teamId o).run env db = .ok (u, db')) : db' = db := by
  cases o with
  | none =>
    cases h
    rfl
  | some memberId =>
    rw [requireAssignee] at h
    split_ifs at h
    · cases h
    · obtain ⟨member, h, -⟩ := run_map_eq_ok.mp h
      obtain ⟨-, -, -, rfl⟩ := run_requireMember_eq_ok.mp h
      rfl

theorem admitTask_eq_ok {host : Host} {new : NewTask} (h : admitTask host team new = .ok ()) :
    team.row.status = .active ∧ team.tasks.length < 100 := by
  unfold admitTask at h
  split_ifs at h with hactive _ _ _ hfew
  exact ⟨not_not.mp hactive, not_le.mp hfew⟩

theorem createTask_moves {new : NewTask} :
    BoardMoves may loud env db (createTask scope teamId new) := by
  intro task db' h
  rw [createTask, run_bind_of_ok run_ask, run_bind_eq_ok] at h
  obtain ⟨team, db₁, hteam, h₁⟩ := h
  obtain ⟨hview, hsame₁⟩ := run_requireTeam_eq_ok.mp hteam
  obtain ⟨hrow, hscope, hid⟩ := getTeamRow_eq_some_iff.mp (getTeam_eq_some_iff.mp hview).1
  obtain ⟨_, db₂, hadmitted, h₂⟩ := run_bind_eq_ok.mp h₁
  obtain ⟨hadmitted, hsame₂⟩ := run_ofExcept_eq_ok.mp hadmitted
  obtain ⟨hactive, hlength⟩ := admitTask_eq_ok hadmitted
  obtain ⟨_, db₃, hassignee, h⟩ := run_bind_eq_ok.mp h₂
  have hsame : db₃ = db := (requireAssignee_eq_ok hassignee).trans (hsame₂.trans hsame₁)
  rw [run_bind_of_ok run_get, hsame] at h
  cases hinsert : db.teamTasks.insert? (new.row scope teamId env.now) with
  | none => simp [hinsert] at h
  | some teamTasks =>
    simp only [hinsert, run_bind, run_set, run_pure] at h
    cases h
    refine .single (.newTask team.row _ teamTasks hrow hscope.symm hid.symm hactive ?_ rfl rfl
      hinsert)
    rw [(getTeam_eq_some_iff.mp hview).2.2] at hlength
    simp only [Db.listTasks, List.length_take, List.length_insertionSort] at hlength
    rw [hscope, hid]
    omega

theorem createTeam_moves {request : TeamRequest} {memberIds : List String} :
    BoardMoves may loud env db
      (CollaborationService.createTeam settings scope request teamId memberIds jobId) := by
  intro view db' h
  rw [CollaborationService.createTeam, run_bind_eq_ok] at h
  obtain ⟨team, db₁, hcreate, h⟩ := h
  rw [CollaborationRepository.createTeam, run_bind_of_ok run_ask, run_bind_of_ok run_get] at hcreate
  dsimp only at hcreate
  split_ifs at hcreate
  · cases hcreate
  · cases hcreate
  · split at hcreate
    · rename_i teams teamMembers hteams hmembers
      rw [run_bind_of_ok run_set] at hcreate
      obtain ⟨-, hdb⟩ := run_requireTeam_eq_ok.mp hcreate
      have hnew : BoardMove may loud env db db₁ := by
        rw [hdb]
        exact .newTeam _ teams teamMembers rfl hteams
      refine .head hnew ?_
      cases hleader : team.members.find? (·.role = .leader) with
      | none => simp [hleader] at h
      | some leader =>
        simp only [hleader] at h
        obtain ⟨job, db₂, hjob, h⟩ := run_bind_eq_ok.mp h
        cases h
        refine createJob_moves rfl (fun id hid => ?_) job db' hjob
        rw [hdb]
        exact ⟨_, (Table.mem_insert? hteams).mpr (.inr rfl), Option.some.inj hid, .inl rfl⟩
    · cases hcreate

theorem spawn_moves {request : AgentRequest} {parentRunId : Option String} :
    BoardMoves may loud env db (spawn settings scope { jobId, request, parentRunId }) := by
  intro job db' h
  rw [spawn, run_bind_of_ok run_get] at h
  split_ifs at h
  · cases h
  · refine createJob_moves rfl (fun id hid => ?_) job db' h
    cases hid

theorem updateJob_moves {version : Nat} {changes : JobChanges} (hstatus : changes.status = none) :
    BoardMoves may loud env db (updateJob scope jobId version changes) := by
  intro job db' h
  obtain ⟨j, hj, -, -, -, -, rfl⟩ := run_updateJob_eq_ok.mp h
  exact .single (.editJob j hj changes (.inl hstatus))

theorem updateTeam_moves {version : Nat} {config : Option TeamConfig} :
    BoardMoves may loud env db (updateTeam scope teamId version none config) := by
  intro row db' h
  obtain ⟨t, ht, -, -, -, -, rfl⟩ := run_updateTeam_eq_ok.mp h
  exact .single (.editTeam t ht none config (.inl rfl))

theorem cancelTeam_moves
    (hmay : ∀ row, db.getTeamRow scope teamId = some row → row.status = .active ∨ may row) :
    BoardMoves may loud env db (cancelTeam scope teamId) := by
  intro view db' h
  rw [cancelTeam, run_bind_of_ok run_ask, run_bind_eq_ok] at h
  obtain ⟨team, db₁, hteam, h⟩ := h
  obtain ⟨hview, rfl⟩ := run_requireTeam_eq_ok.mp hteam
  have hget := (getTeam_eq_some_iff.mp hview).1
  obtain ⟨hrow, hscope, hid⟩ := getTeamRow_eq_some_iff.mp hget
  rw [run_bind_of_ok run_get, run_bind_of_ok run_set] at h
  rw [(run_requireTeam_eq_ok.mp h).2, ← hid]
  exact .single (.cancelTeam team.row scope hrow hscope (hmay team.row hget))

/-! The scheduling pass -/

theorem Placed.moves {tasks : List TeamTaskRow} {busy : List (Option String)}
    {r : Except CollaborationFailure (List (Option String) × Db)}
    (h : Placed dumps settings env scope team newId tasks busy db r) (hs : Snapshot scope team db)
    (hactive : team.row.status = .active)
    (hts : ∀ t ∈ tasks, t ∈ db.listTasks scope team.row.teamId)
    (hnodup : (tasks.map (·.taskId)).Nodup) {x} (hr : r = .ok x) :
    ReflTransGen (BoardMove may loud env) db x.2 := by
  induction h with
  | nil =>
    cases hr
    exact .refl
  | skip _ _ ih =>
    exact ih hs (fun t ht => hts t (List.mem_cons_of_mem _ ht)) (List.nodup_cons.mp hnodup).2 hr
  | invalid => cases hr
  | refuse hassign =>
    cases hr
    obtain ⟨hpending, -, -, -, -⟩ := assignee_eq_some hassign
    obtain ⟨hmem, -, hteam⟩ := mem_listTasks (hts _ List.mem_cons_self)
    obtain ⟨hrow, -, -⟩ := getTeamRow_eq_some_iff.mp hs.row
    exact .single (.refuse team.row _ _ hrow hactive hmem hteam hpending)
  | clash => cases hr
  | @start task _ _ _ member _ _ hassign _ _ hinsert _ ih =>
    obtain ⟨hpending, -, -, -, -⟩ := assignee_eq_some hassign
    have ht := hts _ List.mem_cons_self
    obtain ⟨hmem, hscope, hteam⟩ := mem_listTasks ht
    obtain ⟨hrow, -, -⟩ := getTeamRow_eq_some_iff.mp hs.row
    obtain ⟨hne, hnodup⟩ := List.nodup_cons.mp hnodup
    have hjob : ((taskJob dumps team newId task member).row scope settings.limits
      env.now).scope = task.scope := hscope.symm
    refine .head (.start team.row _ _ _ _ hrow hactive hmem hteam hpending rfl rfl hjob rfl
      rfl rfl hinsert) (ih (hs.started ht hpending) (fun t h => ?_) hnodup hr)
    refine mem_listTasks_replace hmem samePlace_start rfl (hts t (List.mem_cons_of_mem _ h))
      fun hid => hne ?_
    exact List.mem_map.mpr ⟨t, h, hid⟩

theorem closeTeam_moves {jobs : List JobRow} (hs : Snapshot scope team db)
    (hmay : team.row.status = .active ∨ may team.row) :
    BoardMoves may loud env db (closeTeam dumps settings scope team jobs newId) := by
  intro u db' h
  obtain ⟨hrow, -, -⟩ := getTeamRow_eq_some_iff.mp hs.row
  rw [closeTeam] at h
  by_cases hreported : team.tasks = [] ∨ team.row.config.finalJobId.isSome = true
  · rw [if_pos hreported] at h
    obtain ⟨row, h, -⟩ := run_map_eq_ok.mp h
    obtain ⟨t, ht, -, hid, -, -, rfl⟩ := run_updateTeam_eq_ok.mp h
    cases team_eq_of_teamId ht hrow hid
    exact .single (.editTeam team.row hrow _ _ (.inr hmay))
  · rw [if_neg hreported] at h
    cases hleader : team.members.find? (·.role = .leader) with
    | none => simp [hleader] at h
    | some leader =>
      simp only [hleader] at h
      obtain ⟨row, h, -⟩ := run_map_eq_ok.mp h
      rw [requestReport, run_bind_eq_ok] at h
      obtain ⟨job, db₁, hjob, h⟩ := h
      refine .trans (createJob_moves rfl (fun id hid => ?_) job db₁ hjob)
        (updateTeam_moves row db' h)
      exact ⟨team.row, hrow, Option.some.inj hid, hmay⟩

/-- The pass leaves a closed team alone unless its tasks have all ended and nobody is busy. -/
def Db.Settled (db : Db) (scope : SessionScope) (teamId : String) : Prop :=
  (db.listTasks scope teamId).all (·.status.isTerminal) = true ∧
    busyMembers (db.listJobs scope (some teamId)) = [] ∧ db.listJobs scope (some teamId) ≠ []

theorem schedulePass_moves (hmay : ∀ row, db.getTeamRow scope teamId = some row →
      row.status = .active ∨ may row ∨ ¬db.Settled scope teamId) :
    BoardMoves may loud env db (schedulePass dumps settings scope teamId newId) := by
  intro u db' h
  cases hteam : db.getTeam scope teamId with
  | none =>
    rw [schedulePass, run_bind_eq_ok] at h
    obtain ⟨team, db₁, hrequire, -⟩ := h
    simp [hteam, run_requireTeam_eq_ok] at hrequire
  | some team =>
    obtain ⟨rfl, hs, htasks⟩ := snapshot_of_getTeam hteam
    have hts : ∀ t ∈ team.tasks, t ∈ db.listTasks scope team.row.teamId :=
      fun t ht => htasks ▸ ht
    cases hdone : team.tasks.all (·.status.isTerminal) with
    | true =>
      rw [run_schedulePass_of_done hteam hdone] at h
      split_ifs at h with hclosing
      · refine closeTeam_moves hs ((hmay team.row hs.row).imp_right fun hm => ?_) u db' h
        exact hm.resolve_right fun hn => hn ⟨htasks ▸ hdone, hclosing⟩
      · cases h
        exact .refl
    | false =>
      rw [run_schedulePass_of_open hteam hdone] at h
      obtain ⟨busy, h, -⟩ := run_map_eq_ok.mp h
      by_cases hactive : team.row.status = .active
      · exact (placed hs hactive hts (htasks ▸ nodup_listTasks)).moves hs hactive hts
          (htasks ▸ nodup_listTasks) h
      · rw [run_placeTasks_closed hs hactive hts] at h
        cases h
        exact .refl

/-! Starting, finishing and cancelling jobs -/

section Jobs

variable {job j : JobRow} {o : Option JobRow} {status : JobStatus} {result : JobResult} {u : Unit}

theorem startJob_eq_ok (hjob : db.getJob scope job.jobId = some job)
    (h : (startJob scope job).run env db = .ok (o, db')) :
    (o = none ∧ db' = db) ∨ job.status.isTerminal = false ∧
      ∃ changes : JobChanges, changes.status = some .running ∧ changes.child = none ∧
        o = some (job.change changes env.now) ∧
        db' = db.putJob job (job.change changes env.now) rfl := by
  obtain ⟨hmem, -, -⟩ := getJob_eq_some_iff.mp hjob
  rw [startJob, run_bind_of_ok run_get] at h
  simp only [hjob] at h
  cases hterminal : job.status.isTerminal with
  | true =>
    simp only [hterminal, if_true] at h
    cases h
    exact .inl ⟨rfl, rfl⟩
  | false =>
    simp only [hterminal, Bool.false_eq_true, if_false] at h
    obtain ⟨started, hupdate, rfl⟩ := run_map_eq_ok.mp h
    obtain ⟨j, hj, -, hid, -, rfl, rfl⟩ := run_updateJob_eq_ok.mp hupdate
    cases job_eq_of_jobId hj hmem hid
    exact .inr ⟨rfl, _, rfl, rfl, rfl, rfl⟩

theorem run_cancelJob (hjob : db.getJob scope job.jobId = some job) :
    (cancelJob scope job).run env db =
      .ok (job.change { status := some .cancelled } env.now,
        db.putJob job (job.change { status := some .cancelled } env.now) rfl) := by
  obtain ⟨hmem, hscope, -⟩ := getJob_eq_some_iff.mp hjob
  exact run_updateJob_eq_ok.mpr ⟨job, hmem, hscope, rfl, rfl, rfl, rfl⟩

/-- `_run` leaves a cancelled job as it is, and gives any other the status of its outcome. -/
inductive OutcomeRecorded (env : Env) (scope : SessionScope) (jobId : String) (status : JobStatus)
    (db : Db) : Db → Prop where
  | kept (h : ∀ j, db.getJob scope jobId = some j → j.status = .cancelled) :
      OutcomeRecorded env scope jobId status db db
  | set (j : JobRow) (hj : db.getJob scope jobId = some j) (hlive : j.status ≠ .cancelled)
      (changes : JobChanges) (hstatus : changes.status = some status)
      (hchild : changes.child = none) :
      OutcomeRecorded env scope jobId status db (db.putJob j (j.change changes env.now) rfl)

theorem recordOutcome_eq_ok
    (h : (recordOutcome scope job status result).run env db = .ok (u, db')) :
    OutcomeRecorded env scope job.jobId status db db' := by
  rw [recordOutcome, run_bind_of_ok run_get] at h
  cases hjob : db.getJob scope job.jobId with
  | none =>
    simp only [hjob] at h
    cases h
    exact .kept (by simp [hjob])
  | some j =>
    simp only [hjob] at h
    split_ifs at h with hcancelled
    · cases h
      refine .kept fun j' hj' => ?_
      cases hjob.symm.trans hj'
      exact hcancelled
    · obtain ⟨updated, h, -⟩ := run_map_eq_ok.mp h
      obtain ⟨hmem, -, hid⟩ := getJob_eq_some_iff.mp hjob
      obtain ⟨j', hj', -, hid', -, -, rfl⟩ := run_updateJob_eq_ok.mp h
      cases job_eq_of_jobId hj' hmem hid'
      exact .set j hjob hcancelled _ rfl rfl

/-- The task of a job ends with the job, if it is the job that the task is bound to. -/
inductive TaskEnded (env : Env) (job : JobRow) (status : JobStatus) (db : Db) : Db → Prop where
  | kept : TaskEnded env job status db db
  | ended (task : TeamTaskRow) (taskStatus : TaskStatus) (summary : String)
      (htask : task ∈ db.teamTasks.rows) (hrunning : task.status = .running)
      (hbound : task.jobId = some job.jobId) (hstatus : status.taskStatus? = some taskStatus) :
      TaskEnded env job status db
        (db.putTask task (task.finish taskStatus summary env.now) rfl)

theorem finishJob_eq_ok (h : (finishJob scope job status result).run env db = .ok (u, db')) :
    ∃ db₁, OutcomeRecorded env scope job.jobId status db db₁ ∧
      TaskEnded env job status db₁ db' := by
  rw [finishJob, run_bind_eq_ok] at h
  obtain ⟨_, db₁, hrecord, h⟩ := h
  refine ⟨db₁, recordOutcome_eq_ok hrecord, ?_⟩
  cases htask : job.taskId with
  | none =>
    simp only [htask] at h
    cases h
    exact .kept
  | some taskId =>
    cases hstatus : status.taskStatus? with
    | none =>
      simp only [htask, hstatus] at h
      cases h
      exact .kept
    | some taskStatus =>
      simp only [htask, hstatus] at h
      rw [finishTaskOf, run_bind_eq_ok] at h
      obtain ⟨team, db₂, hteam, h⟩ := h
      obtain ⟨hview, hsame⟩ := run_requireTeam_eq_ok.mp hteam
      obtain ⟨-, -, htasks⟩ := getTeam_eq_some_iff.mp hview
      rw [hsame] at h
      cases hfind : team.tasks.find? (·.taskId == taskId) with
      | none => simp [hfind] at h
      | some task =>
        simp only [hfind] at h
        split_ifs at h with hbound
        · obtain ⟨finished, h, -⟩ := run_map_eq_ok.mp h
          obtain ⟨-, t, ht, -, -, hid, -, -, hrunning, -, rfl⟩ := run_finishTask_eq_ok.mp h
          have hmem := (mem_listTasks (htasks ▸ List.mem_of_find?_eq_some hfind)).1
          cases task_eq_of_taskId ht hmem hid
          exact .ended task taskStatus _ hmem hrunning hbound.2 hstatus
        · cases h
          exact .kept

theorem taskStatus?_terminal {taskStatus : TaskStatus} (h : status.taskStatus? = some taskStatus) :
    taskStatus.isTerminal = true := by
  cases status <;> cases h <;> rfl

theorem startJob_moves (hjob : db.getJob scope job.jobId = some job) :
    BoardMoves may True env db (startJob scope job) := by
  intro o db' h
  rcases startJob_eq_ok hjob h with ⟨-, rfl⟩ | ⟨-, changes, -, -, -, rfl⟩
  · exact .refl
  · exact .single (.editJob job (getJob_eq_some_iff.mp hjob).1 changes (.inr trivial))

theorem cancelJob_moves (hjob : db.getJob scope job.jobId = some job) :
    BoardMoves may True env db (cancelJob scope job) := by
  intro j db' h
  rw [run_cancelJob hjob] at h
  cases h
  exact .single (.editJob job (getJob_eq_some_iff.mp hjob).1 _ (.inr trivial))

theorem finishJob_moves : BoardMoves may True env db (finishJob scope job status result) := by
  intro u db' h
  obtain ⟨db₁, hrecorded, hended⟩ := finishJob_eq_ok h
  refine .trans (b := db₁) ?_ ?_
  · cases hrecorded with
    | kept => exact .refl
    | set j hj _ changes =>
      exact .single (.editJob j (getJob_eq_some_iff.mp hj).1 changes (.inr trivial))
  · cases hended with
    | kept => exact .refl
    | ended task taskStatus summary htask hrunning _ hstatus =>
      exact .single (.endTask task taskStatus summary htask hrunning (taskStatus?_terminal hstatus)
        trivial)

end Jobs

/-! The other events -/

theorem Step.sameBoard {effects : Effect → Prop} (h : Step effects env db db') :
    SameBoard db db' := by
  cases h <;> exact ⟨rfl, rfl, rfl, rfl⟩

theorem steps_move {effects : Effect → Prop} (h : ReflTransGen (Step effects env) db db') :
    ReflTransGen (BoardMove may loud env) db db' :=
  h.lift id fun _ _ hstep => .work hstep.sameBoard

theorem startChild_moves {child : TenantContext} {owner checkpointId messageId : String} :
    BoardMoves may loud env db
      (CollaborationService.startChild scope jobId child owner checkpointId messageId) := by
  intro job db' h
  rw [CollaborationService.startChild, run_bind_of_ok run_get] at h
  cases hjob : db.getJob scope jobId with
  | none => simp [hjob] at h
  | some current =>
    simp only [hjob] at h
    obtain ⟨lease, db₁, hstart, h⟩ := run_bind_eq_ok.mp h
    obtain ⟨row, db₂, hsave, h⟩ := run_bind_eq_ok.mp h
    have hstart : ReflTransGen (Step (fun _ => True) env) db db₁ :=
      WorkflowCoordinator.startRunWithCheckpoint_writes (fun _ _ => trivial)
        (run_mapError_eq_ok.mp hstart)
    obtain ⟨memory, hmemory⟩ := MemoryRepository.save_ensures row db₂ (run_mapError_eq_ok.mp hsave)
    have hsave : BoardMove may loud env db₁ db₂ := by
      rw [hmemory]
      exact .work ⟨rfl, rfl, rfl, rfl⟩
    exact (steps_move hstart).trans
      (.head hsave (updateJob_moves rfl job db' (run_mapError_eq_ok.mp h)))

/-! One event -/

namespace CollaborationEvent

/-- The event leaves the teams that are not active alone, but for those that `may` allows. -/
def Spares (may : TeamRow → Prop) (s : CollaborationState) : CollaborationEvent → Prop
  | .cancelTeam scope teamId => ∀ row, s.db.getTeamRow scope teamId = some row →
      row.status = .active ∨ may row
  | .pass _ => ∀ scope teamId rest row, s.selected = (scope, teamId) :: rest →
      s.db.getTeamRow scope teamId = some row →
      row.status = .active ∨ may row ∨ ¬s.db.Settled scope teamId
  | _ => True

/-- The event starts, ends or cancels a job. -/
def IsLoud : CollaborationEvent → Prop
  | .dispatch .. | .finish .. | .cancel .. => True
  | _ => False

end CollaborationEvent

namespace CollaborationState

variable {s : CollaborationState} {event : CollaborationEvent}

theorem commit_moves {ε α : Type} {x : Transaction Env Db ε α}
    (hx : BoardMoves may loud env s.db x) :
    ReflTransGen (BoardMove may loud env) s.db (s.commit env x).db := commit_leads hx

theorem cancelWorker_db : (s.cancelWorker jobId).db = s.db := by
  unfold cancelWorker
  split
  · rfl
  · split_ifs <;> rfl

theorem step_moves (hspares : event.Spares may s) (hloud : event.IsLoud → loud) :
    ReflTransGen (BoardMove may loud env) s.db (s.step dumps settings env event).db := by
  cases event with
  | createTeam =>
    rw [step]
    split_ifs
    · exact .refl
    · exact commit_moves createTeam_moves
  | createTask => exact commit_moves createTask_moves
  | spawn =>
    rw [step]
    split_ifs
    · exact .refl
    · exact commit_moves spawn_moves
  | acceptTeam =>
    rw [step]
    split
    · exact .refl
    · exact commit_moves updateTeam_moves
  | editJob =>
    rw [step]
    split
    · exact .refl
    · exact commit_moves (updateJob_moves rfl)
  | select =>
    rw [step]
    split_ifs <;> exact .refl
  | pass newId =>
    rw [step]
    split
    · exact .refl
    · rename_i scope teamId rest hselected
      have hpass : ReflTransGen (BoardMove may loud env) s.db
          ((schedulePass dumps settings scope teamId newId).commit env s.db).2 :=
        commit_leads (schedulePass_moves fun row => hspares scope teamId rest row hselected)
      split
      · rename_i hcommit
        rwa [hcommit] at hpass
      · rename_i hcommit
        rwa [hcommit] at hpass
  | dispatch scope jobId =>
    rw [step]
    split
    · exact .refl
    · rename_i job hjob
      split_ifs
      · exact .refl
      · rw [eq_true (hloud trivial)]
        cases (getJob_eq_some_iff.mp hjob).2.2
        have hstart : ReflTransGen (BoardMove may True env) s.db
            ((startJob scope job).commit env s.db).2 := commit_leads (startJob_moves hjob)
        split
        · rename_i hcommit
          rwa [hcommit] at hstart
        · rename_i hcommit
          rwa [hcommit] at hstart
  | startChild =>
    rw [step]
    split
    · exact .refl
    · split_ifs
      · exact .refl
      · exact commit_moves startChild_moves
  | exit =>
    rw [step]
    split
    · exact .refl
    · split_ifs <;> exact .refl
  | finish =>
    rw [step]
    split
    · exact .refl
    · split
      · exact .refl
      · rw [eq_true (hloud trivial)]
        exact commit_moves finishJob_moves
  | cancel scope jobId =>
    rw [step]
    split
    · exact .refl
    · rename_i job hjob
      split_ifs
      · exact .refl
      · rw [eq_true (hloud trivial)]
        cases (getJob_eq_some_iff.mp hjob).2.2
        exact commit_moves (cancelJob_moves hjob)
  | deliver =>
    rw [step]
    split_ifs
    · exact cancelWorker_db ▸ .refl
    · exact .refl
  | cancelTeam => exact commit_moves (cancelTeam_moves hspares)
  | close =>
    rw [step]
    split_ifs <;> exact .refl
  | restart =>
    rw [step]
    split_ifs <;> exact .refl
  | workflow op => exact steps_move (Call.step_writes s.db ⟨env, op⟩)

end CollaborationState

end MultiClaw
