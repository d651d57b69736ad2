import MultiClaw.Collaboration.Repository

/-! The collaboration service: the transactions that admit, schedule, start and finish jobs. -/
namespace MultiClaw

open Base Transaction

structure CollaborationSettings where
  maxWorkers : Nat := 3
  maxJobs : Nat := 100
  maxJobTokens : Nat := 20000
  maxTeamTokens : Nat := 250000
  maxRunTokens : Nat := 250000
  maxWorkers_range : 1 ≤ maxWorkers ∧ maxWorkers ≤ 8 := by decide
  maxJobs_range : 1 ≤ maxJobs ∧ maxJobs ≤ 500 := by decide
  maxJobTokens_range : 1024 ≤ maxJobTokens ∧ maxJobTokens ≤ 100000 := by decide
  maxTeamTokens_range : 20000 ≤ maxTeamTokens ∧ maxTeamTokens ≤ 1000000 := by decide
  maxRunTokens_pos : 1 ≤ maxRunTokens := by decide

/-- `_allocation`. -/
def CollaborationSettings.limits (settings : CollaborationSettings) : JobLimits where
  budgetTokens := settings.maxJobTokens
  parentLimit := settings.maxRunTokens
  teamLimit := settings.maxTeamTokens
  maxJobs := settings.maxJobs
  budgetTokens_pos := by
    have := settings.maxJobTokens_range
    omega

def cut (n : Nat) (s : String) : String := String.ofList (s.toList.take n)

def optionJson (o : Option String) : Json := o.elim .null fun s => .str (.text s)

def TeamTaskRow.json (t : TeamTaskRow) : Json :=
  .obj [(.text "task_id", .str (.text t.taskId)),
    (.text "tenant_id", .str (.text t.scope.tenantId)),
    (.text "workspace_id", .str (.text t.scope.workspaceId)),
    (.text "session_id", .str (.text t.scope.sessionId)),
    (.text "team_id", .str (.text t.teamId)), (.text "title", .str (.text t.title)),
    (.text "objective", .str (.text t.objective)),
    (.text "owner_member_id", optionJson t.ownerMemberId), (.text "job_id", optionJson t.jobId),
    (.text "status", .str (.text t.status.value)), (.text "result", .str (.text t.result)),
    (.text "version", .int t.version), (.text "created_at", .int t.createdAt),
    (.text "updated_at", .int t.updatedAt),
    (.text "depends", .arr (t.depends.map fun id => .str (.text id)))]

namespace CollaborationService

variable (dumps : Json → String) (settings : CollaborationSettings) (scope : SessionScope)

/-- The assignment of a task to a member. -/
def taskRequest (team : TeamView) (task : TeamTaskRow) (member : TeamMemberRow) : AgentRequest :=
  { goal := task.objective
    context := cut 16000 (dumps (.obj [(.text "team_objective", .str (.text team.row.objective)),
      (.text "dependencies",
        .arr ((team.tasks.filter fun t => task.depends.contains t.taskId).map (·.json)))]))
    profile := member.config.profile, model := member.config.model
    projectPath := team.row.config.projectPath, instructions := member.config.instructions }

/-- The assignment of the final report to the leader. -/
def reportRequest (team : TeamView) (jobs : List JobRow) (leader : TeamMemberRow) : AgentRequest :=
  { goal := cut 12000 ("Produce the final team report for: " ++ team.row.objective)
    context := cut 16000 (dumps (.obj [(.text "tasks", .arr (team.tasks.map (·.json))),
      (.text "reports", .arr (jobs.map fun j => .str (.text (j.result.summary.getD ""))))]))
    profile := .reader, model := leader.config.model, projectPath := team.row.config.projectPath
    instructions := "Synthesize results and unresolved issues. " ++
      "Do not create further tasks in this final report." }

/-- The member that a scheduling pass gives a task to. A task with an owner waits for its owner, a
task without one goes to the first idle member who does not lead. -/
def assignee (team : TeamView) (busy : List (Option String)) (task : TeamTaskRow) :
    Option TeamMemberRow :=
  if task.status ≠ .pending ∨ team.isUnblocked task = false then none
  else team.members.find? fun m => !busy.contains (some m.memberId) &&
    (task.ownerMemberId == some m.memberId || (task.ownerMemberId.isNone && m.role != .leader))

/-- `newId` draws the id of the job of a task, and with no task that of the final report. -/
def taskJob (team : TeamView) (newId : Option String → String) (task : TeamTaskRow)
    (member : TeamMemberRow) : NewJob :=
  { jobId := newId (some task.taskId), request := taskRequest dumps team task member
    teamId := some team.row.teamId, memberId := some member.memberId, taskId := some task.taskId }

def reportJob (team : TeamView) (jobs : List JobRow) (newId : Option String → String)
    (leader : TeamMemberRow) : NewJob :=
  { jobId := newId none, request := reportRequest dumps team jobs leader
    teamId := some team.row.teamId, memberId := some leader.memberId }

/-- What becomes of a task that a member could take. -/
inductive Placement where
  /-- The claim failed. -/
  | skipped
  | started
  /-- The job was refused, and with it the task and the team have failed. -/
  | refused

/-- The job of a claimed task. -/
def giveJob (team : TeamView) (newId : Option String → String) (task : TeamTaskRow)
    (member : TeamMemberRow) : CollaborationTx Placement := do
  match ← trying (CollaborationRepository.createJob scope (taskJob dumps team newId task member)
      settings.limits) with
  | .ok job => do
    CollaborationRepository.bindTaskJob scope task.taskId job.jobId
    return .started
  | .error (.conflict _) => do
    let db ← get
    match db.getTask scope task.taskId with
    | none => throw (.value "'NoneType' object is not subscriptable")
    | some current => do
      let _ ← CollaborationRepository.finishTask scope team.row.teamId task.taskId
        (some member.memberId) current.version .failed "Team allocation limit reached"
      let _ ← CollaborationRepository.updateTeam scope team.row.teamId team.row.version
        (some .failed) none
      return .refused
  | .error e => throw e

def placeTask (team : TeamView) (newId : Option String → String) (task : TeamTaskRow)
    (member : TeamMemberRow) : CollaborationTx Placement := do
  match ← trying (CollaborationRepository.claimTask scope team.row.teamId task.taskId
      member.memberId task.version) with
  | .ok _ => giveJob dumps settings scope team newId task member
  | .error (.conflict _) => return .skipped
  | .error e => throw e

/-- The loop of `_schedule_team_tasks` over the tasks of a team; it returns the busy members. A
refused job ends the loop. -/
def placeTasks (team : TeamView) (newId : Option String → String) :
    List TeamTaskRow → List (Option String) → CollaborationTx (List (Option String))
  | [], busy => pure busy
  | task :: tasks, busy =>
    match assignee team busy task with
    | none => placeTasks team newId tasks busy
    | some member => do
      match ← placeTask dumps settings scope team newId task member with
      | .skipped => placeTasks team newId tasks busy
      | .started => placeTasks team newId tasks (some member.memberId :: busy)
      | .refused => return busy

/-- The summary that closes a team: that of its final report, and without tasks that of its last
job. -/
def closingSummary (team : TeamView) (jobs : List JobRow) : String :=
  ((jobs.reverse.find? fun j =>
    some j.jobId == team.row.config.finalJobId || team.tasks.isEmpty).map
      fun j => j.result.summary.getD "").getD ""

/-- The leader gets the job of the final report. -/
def requestReport (team : TeamView) (jobs : List JobRow) (newId : Option String → String)
    (leader : TeamMemberRow) : CollaborationTx TeamRow := do
  let report ← CollaborationRepository.createJob scope (reportJob dumps team jobs newId leader)
    settings.limits
  CollaborationRepository.updateTeam scope team.row.teamId team.row.version none
    (some { team.row.config with finalJobId := some report.jobId })

/-- The end of a scheduling pass, once every task is done and nobody is busy. -/
def closeTeam (team : TeamView) (jobs : List JobRow) (newId : Option String → String) :
    CollaborationTx Unit :=
  if team.tasks = [] ∨ team.row.config.finalJobId.isSome then
    (fun _ => ()) <$> CollaborationRepository.updateTeam scope team.row.teamId team.row.version
      (some (if jobs.all (·.status = .completed) then .completed else .failed))
      (some { team.row.config with summary := some (closingSummary team jobs) })
  else match team.members.find? (·.role = .leader) with
    | none => throw .stopIteration
    | some leader => (fun _ => ()) <$> requestReport dumps settings scope team jobs newId leader

def busyMembers (jobs : List JobRow) : List (Option String) :=
  (jobs.filter fun j => !j.status.isTerminal).map (·.memberId)

/-- The transaction of `_schedule_team_tasks` for one of the teams that it has selected. -/
def schedulePass (teamId : String) (newId : Option String → String) : CollaborationTx Unit := do
  let team ← CollaborationRepository.requireTeam scope teamId
  let db ← get
  let jobs := db.listJobs scope (some teamId)
  let busy ← placeTasks dumps settings scope team newId team.tasks (busyMembers jobs)
  if busy = [] ∧ jobs ≠ [] ∧ team.tasks.all (·.status.isTerminal) then
    closeTeam dumps settings scope team jobs newId
  else return ()

/-- The transaction of `create_team`: the team, and a job for its leader. -/
def createTeam (request : TeamRequest) (teamId : String) (memberIds : List String)
    (jobId : String) : CollaborationTx TeamView := do
  let team ← CollaborationRepository.createTeam scope request teamId memberIds
  match team.members.find? (·.role = .leader) with
  | none => throw .stopIteration
  | some leader => do
    let _ ← CollaborationRepository.createJob scope
      { jobId
        request :=
          { goal := request.objective
            context := "You lead this team. Inspect the shared board and create independent " ++
              "tasks with team_create_task. Assign members by ID. Review their reports before " ++
              "synthesizing a final answer."
            profile := leader.config.profile, model := leader.config.model
            projectPath := request.projectPath, instructions := leader.config.instructions }
        teamId := some teamId, memberId := some leader.memberId } settings.limits
    return team

/-- The transaction of `spawn`. -/
def spawn (new : NewJob) : CollaborationTx JobRow := do
  let db ← get
  if settings.maxJobs ≤ (db.listJobs scope).length then
    throw (.conflict "session child task limit reached")
  else CollaborationRepository.createJob scope new settings.limits

/-- The transaction in which a tick starts a job that it has read; nothing if the job is over. -/
def startJob (job : JobRow) : CollaborationTx (Option JobRow) := do
  let db ← get
  match db.getJob scope job.jobId with
  | none => return none
  | some current =>
    if current.status.isTerminal then return none
    else
      some <$> CollaborationRepository.updateJob scope job.jobId job.version
        { status := some .running, attempt := some (job.attempt + 1) }

/-- A job that was not cancelled in the meantime takes the status that its executor ended with. -/
def recordOutcome (job : JobRow) (status : JobStatus) (result : JobResult) :
    CollaborationTx Unit := do
  let db ← get
  match db.getJob scope job.jobId with
  | none => return ()
  | some current =>
    if current.status = .cancelled then return ()
    else
      (fun _ => ()) <$> CollaborationRepository.updateJob scope current.jobId current.version
        { status := some status, result := some (current.result.merge result) }

/-- The task of a job ends with the job. -/
def finishTaskOf (job : JobRow) (taskId : String) (status : TaskStatus) (summary : String) :
    CollaborationTx Unit := do
  let team ← CollaborationRepository.requireTeam scope (job.teamId.getD "")
  match team.tasks.find? (·.taskId == taskId) with
  | none => throw .stopIteration
  | some task =>
    if task.status = .running ∧ task.jobId = some job.jobId then
      (fun _ => ()) <$> CollaborationRepository.finishTask scope (job.teamId.getD "") task.taskId
        job.memberId task.version status summary
    else return ()

/-- The transaction that ends `_run`, for the job as it was when the worker started. -/
def finishJob (job : JobRow) (status : JobStatus) (result : JobResult) : CollaborationTx Unit := do
  recordOutcome scope job status result
  match job.taskId, status.taskStatus? with
  | some taskId, some taskStatus =>
    finishTaskOf scope job taskId taskStatus (result.summary.getD "")
  | _, _ => return ()

/-- The transaction of `cancel`, for a job that was read before. -/
def cancelJob (job : JobRow) : CollaborationTx JobRow :=
  CollaborationRepository.updateJob scope job.jobId job.version { status := some .cancelled }

end CollaborationService

end MultiClaw
