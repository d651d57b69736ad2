import MultiClaw.Base.Json
import MultiClaw.Base.Updates
import MultiClaw.Storage.Schema

/-! The collaboration repository: durable jobs, and the members, tasks and claims of teams. -/
namespace MultiClaw

open Base Transaction

inductive CollaborationFailure where
  | notFound (message : String)
  | conflict (message : String)
  | value (message : String)
  /-- A request breaks a field constraint. -/
  | validation
  /-- `next` on an empty iterator. -/
  | stopIteration
  | integrity
  deriving DecidableEq, Repr

abbrev CollaborationTx (α : Type) := Transaction Env Db CollaborationFailure α

/-- `_allocation`. -/
structure JobLimits where
  budgetTokens : Nat := 20000
  parentLimit : Nat := 250000
  teamLimit : Nat := 250000
  maxJobs : Nat := 100
  budgetTokens_pos : 0 < budgetTokens := by decide

/-- The arguments of `create_job` besides the limits, and the id it draws. -/
structure NewJob where
  jobId : String
  request : AgentRequest
  parentRunId : Option String := none
  teamId : Option String := none
  memberId : Option String := none
  taskId : Option String := none

structure TeamView where
  row : TeamRow
  members : List TeamMemberRow
  tasks : List TeamTaskRow
  deriving DecidableEq

/-- `set(task["depends"]).issubset(completed)`. -/
def TeamView.isUnblocked (team : TeamView) (task : TeamTaskRow) : Bool :=
  task.depends.all fun id => team.tasks.any fun t => t.taskId == id && t.status == .completed

def JobRow.Before (a b : JobRow) : Prop :=
  a.createdAt < b.createdAt ∨ (a.createdAt = b.createdAt ∧ a.jobId ≤ b.jobId)

def TeamRow.Before (a b : TeamRow) : Prop :=
  a.createdAt < b.createdAt ∨ (a.createdAt = b.createdAt ∧ a.teamId ≤ b.teamId)

def TeamTaskRow.Before (a b : TeamTaskRow) : Prop :=
  a.createdAt < b.createdAt ∨ (a.createdAt = b.createdAt ∧ a.taskId ≤ b.taskId)

instance : DecidableRel JobRow.Before := fun _ _ => inferInstanceAs (Decidable (_ ∨ _))

instance : DecidableRel TeamRow.Before := fun _ _ => inferInstanceAs (Decidable (_ ∨ _))

instance : DecidableRel TeamTaskRow.Before := fun _ _ => inferInstanceAs (Decidable (_ ∨ _))

namespace Db

variable (db : Db) (scope : SessionScope)

def getJob (jobId : String) : Option JobRow :=
  db.jobs.find? fun j => j.scope == scope && j.jobId == jobId

/-- The jobs of a session, or of one of its teams; every list is cut off after 500 rows. -/
def listJobs (teamId : Option String := none) : List JobRow :=
  ((db.jobs.filter fun j => j.scope == scope && teamId.all (j.teamId == some ·)).insertionSort
    JobRow.Before).take 500

def listTeams : List TeamRow :=
  ((db.teams.filter (·.scope == scope)).insertionSort TeamRow.Before).take 500

def getTeamRow (teamId : String) : Option TeamRow :=
  db.teams.find? fun t => t.scope == scope && t.teamId == teamId

def listMembers (teamId : String) : List TeamMemberRow :=
  (db.teamMembers.filter fun m => m.scope == scope && m.teamId == teamId).take 500

def listTasks (teamId : String) : List TeamTaskRow :=
  ((db.teamTasks.filter fun t => t.scope == scope && t.teamId == teamId).insertionSort
    TeamTaskRow.Before).take 500

def getTeam (teamId : String) : Option TeamView :=
  (db.getTeamRow scope teamId).map fun row =>
    ⟨row, db.listMembers scope teamId, db.listTasks scope teamId⟩

def getTask (taskId : String) : Option TeamTaskRow :=
  db.teamTasks.find? fun t => t.scope == scope && t.taskId == taskId

/-- The tokens allocated to the jobs of a team. -/
def teamReserved (teamId : String) : Nat :=
  ((db.jobs.filter fun j => j.scope == scope && j.teamId == some teamId).map (·.budgetTokens)).sum

/-- The tokens allocated to the jobs spawned from a run. -/
def parentReserved (runId : String) : Nat :=
  ((db.jobs.filter fun j => j.scope == scope && j.parentRunId == some runId).map
    (·.budgetTokens)).sum

end Db

/-- `int(data.get("total_tokens", 0))` of an entry whose `run_id` is the run, and 0 for others. -/
def usedTokens (host : Host) (runId : String) (row : MemoryRow) :
    Except CollaborationFailure Int :=
  match Json.loads host.recursionLimit row.metadataJson with
  | .ok (.obj members) =>
    match members.lookup (.text "run_id") with
    | some (.str (.text id)) =>
      if id ≠ runId then .ok 0
      else match members.lookup (.text "total_tokens") with
        | none => .ok 0
        | some (.int n) => .ok n
        | some (.bool b) => .ok (if b then 1 else 0)
        | some _ => .error (.value "invalid literal for int()")
    | _ => .ok 0
  | _ => .error (.value "metadata is not an object")

namespace Db

variable (db : Db) (scope : SessionScope)

/-- The tokens that the usage entries of a session record for a run. -/
def parentUsed (host : Host) (runId : String) : Except CollaborationFailure Int :=
  (db.memory.filter fun m => m.tenantId == scope.tenantId && m.workspaceId == scope.workspaceId &&
    m.sessionId == some scope.sessionId && m.type == "run_usage").foldlM
      (fun used row => (used + ·) <$> usedTokens host runId row) 0

def admitTeamJob (new : NewJob) (limits : JobLimits) (teamId : String) :
    Except CollaborationFailure Unit :=
  match db.getTeam scope teamId with
  | none => .error (.notFound "team not found")
  | some team =>
    if new.memberId.any fun id => team.members.all (·.memberId ≠ id) then
      .error (.notFound "member not found")
    else if limits.teamLimit < db.teamReserved scope teamId + limits.budgetTokens +
        (if new.taskId.isSome then limits.budgetTokens else 0) then
      .error (.conflict "team token allocation exhausted")
    else .ok ()

def admitChildJob (host : Host) (limits : JobLimits) (runId : String) :
    Except CollaborationFailure Unit :=
  if !db.runs.any (·.scope == ⟨scope.tenantId, scope.workspaceId, scope.sessionId, runId⟩) then
    .error (.notFound "parent Run not found")
  else do
    let used ← db.parentUsed scope host runId
    if (limits.parentLimit : Int) <
        db.parentReserved scope runId + used + limits.budgetTokens then
      .error (.conflict "parent token allocation exhausted")
    else .ok ()

/-- The checks of `create_job`, in their order. -/
def admitJob (host : Host) (new : NewJob) (limits : JobLimits) : Except CollaborationFailure Unit :=
  if !new.request.isValid then .error .validation
  else if limits.maxJobs ≤ (db.listJobs scope).length then
    .error (.conflict "session assignment limit reached")
  else do
    new.teamId.elim (.ok ()) (db.admitTeamJob scope new limits)
    new.parentRunId.elim (.ok ()) (db.admitChildJob scope host limits)

end Db

/-! Inserted and rewritten rows -/

def NewJob.row (new : NewJob) (scope : SessionScope) (limits : JobLimits) (now : Nat) : JobRow :=
  { jobId := new.jobId, tenantId := scope.tenantId, workspaceId := scope.workspaceId
    sessionId := scope.sessionId, parentRunId := new.parentRunId, child := none
    teamId := new.teamId, memberId := new.memberId, taskId := new.taskId, status := .queued
    budgetTokens := limits.budgetTokens, request := new.request, result := {}, version := 1
    attempt := 0, createdAt := now, updatedAt := now }

/-- The columns that `update_job` may set. -/
structure JobChanges where
  status : Option JobStatus := none
  result : Option JobResult := none
  request : Option AgentRequest := none
  child : Option ChildRun := none
  attempt : Option Nat := none

def JobRow.change (changes : JobChanges) (now : Nat) (r : JobRow) : JobRow :=
  { r with
    status := changes.status.getD r.status, result := changes.result.getD r.result
    request := changes.request.getD r.request, child := changes.child.or r.child
    attempt := changes.attempt.getD r.attempt, version := r.version + 1, updatedAt := now }

def TeamRow.change (status : Option TeamStatus) (config : Option TeamConfig) (now : Nat)
    (r : TeamRow) : TeamRow :=
  { r with
    status := status.getD r.status, config := config.getD r.config, version := r.version + 1
    updatedAt := now }

def TeamTaskRow.claim (memberId : String) (now : Nat) (r : TeamTaskRow) : TeamTaskRow :=
  { r with
    status := .running, ownerMemberId := some memberId, version := r.version + 1, updatedAt := now }

def TeamTaskRow.finish (status : TaskStatus) (result : String) (now : Nat) (r : TeamTaskRow) :
    TeamTaskRow :=
  { r with
    status, result := String.ofList (result.toList.take 16000), version := r.version + 1
    updatedAt := now }

def TeamTaskRow.bind (jobId : String) (r : TeamTaskRow) : TeamTaskRow :=
  { r with jobId := some jobId }

def TeamTaskRow.cancel (r : TeamTaskRow) : TeamTaskRow :=
  { r with status := .cancelled, version := r.version + 1 }

theorem JobRow.change_keys (changes : JobChanges) (now : Nat) (r : JobRow) :
    (r.change changes now).keys = r.keys := rfl

theorem TeamRow.change_keys (status : Option TeamStatus) (config : Option TeamConfig) (now : Nat)
    (r : TeamRow) : (r.change status config now).keys = r.keys := rfl

theorem TeamTaskRow.claim_keys (memberId : String) (now : Nat) (r : TeamTaskRow) :
    (r.claim memberId now).keys = r.keys := rfl

theorem TeamTaskRow.finish_keys (status : TaskStatus) (result : String) (now : Nat)
    (r : TeamTaskRow) : (r.finish status result now).keys = r.keys := rfl

theorem TeamTaskRow.bind_keys (jobId : String) (r : TeamTaskRow) : (r.bind jobId).keys = r.keys :=
  rfl

theorem TeamTaskRow.cancel_keys (r : TeamTaskRow) : r.cancel.keys = r.keys := rfl

/-- The arguments of `create_task`, and the id it draws. -/
structure NewTask where
  taskId : String
  title : String
  objective : String
  dependsOn : List String := []
  assignedMemberId : Option String := none

def NewTask.row (new : NewTask) (scope : SessionScope) (teamId : String) (now : Nat) :
    TeamTaskRow :=
  { taskId := new.taskId, scope, teamId, title := new.title, objective := new.objective
    depends := new.dependsOn.eraseDups, ownerMemberId := new.assignedMemberId, jobId := none
    status := .pending, result := "", version := 1, createdAt := now, updatedAt := now }

/-- `not text.strip()`. -/
def isBlank (host : Host) (text : String) : Bool := text.toList.all host.isSpace

namespace CollaborationRepository

variable (scope : SessionScope)

def createJob (new : NewJob) (limits : JobLimits) : CollaborationTx JobRow := do
  let env ← ask
  let db ← get
  ofExcept (db.admitJob scope env.host new limits)
  let row := new.row scope limits env.now
  match db.jobs.insert? row with
  | none => throw .integrity
  | some jobs => do
    set { db with jobs }
    return row

def updateJob (jobId : String) (expectedVersion : Nat) (changes : JobChanges) :
    CollaborationTx JobRow := do
  let env ← ask
  updateOne Db.jobs (fun jobs db => { db with jobs })
    (fun j => j.scope == scope && j.jobId == jobId && j.version == expectedVersion)
    (JobRow.change changes env.now) (JobRow.change_keys changes env.now)
    (.conflict "job version conflict")

def requireTeam (teamId : String) : CollaborationTx TeamView := do
  let db ← get
  match db.getTeam scope teamId with
  | none => throw (.notFound "team not found")
  | some team => return team

def requireMember (teamId memberId : String) : CollaborationTx TeamMemberRow := do
  let team ← requireTeam scope teamId
  match team.members.find? (·.memberId == memberId) with
  | none => throw (.notFound "member not found")
  | some member => return member

/-- `teamId` and the ids of the members, in their order, are drawn here. -/
def createTeam (request : TeamRequest) (teamId : String) (memberIds : List String) :
    CollaborationTx TeamView := do
  let env ← ask
  let db ← get
  if !request.isValid then throw .validation
  else if 20 ≤ (db.listTeams scope).length then throw (.conflict "session team limit reached")
  else
    let row : TeamRow :=
      { teamId, scope, objective := request.objective, status := .active
        config := ⟨request.projectPath, none, none⟩, version := 1, createdAt := env.now
        updatedAt := env.now }
    let members := (memberIds.zip request.members).map fun (memberId, member) =>
      (⟨memberId, scope, teamId, member.name, member.role, member⟩ : TeamMemberRow)
    match db.teams.insert? row, db.teamMembers.insertAll? members with
    | some teams, some teamMembers => do
      set { db with teams, teamMembers }
      requireTeam scope teamId
    | _, _ => throw .integrity

def updateTeam (teamId : String) (expectedVersion : Nat) (status : Option TeamStatus)
    (config : Option TeamConfig) : CollaborationTx TeamRow := do
  let env ← ask
  updateOne Db.teams (fun teams db => { db with teams })
    (fun t => t.scope == scope && t.teamId == teamId && t.version == expectedVersion)
    (TeamRow.change status config env.now) (TeamRow.change_keys status config env.now)
    (.conflict "team version changed")

/-- The checks of `create_task` on the board, in their order. -/
def admitTask (host : Host) (team : TeamView) (new : NewTask) : Except CollaborationFailure Unit :=
  if team.row.status ≠ .active then .error (.conflict "team is not active")
  else if isBlank host new.title ∨ 160 < new.title.length ∨ isBlank host new.objective ∨
      12000 < new.objective.length then
    .error (.value "invalid task title or objective")
  else if 20 < new.dependsOn.eraseDups.length then .error (.value "too many dependencies")
  else if ¬new.dependsOn ⊆ team.tasks.map (·.taskId) then
    .error (.notFound "dependency not found")
  else if 100 ≤ team.tasks.length then .error (.conflict "team task limit reached")
  else .ok ()

/-- The foreign key to the members refuses an owner that is the empty string. -/
def requireAssignee (teamId : String) : Option String → CollaborationTx Unit
  | none => return ()
  | some memberId =>
    if memberId = "" then throw .integrity
    else (fun _ => ()) <$> requireMember scope teamId memberId

def createTask (teamId : String) (new : NewTask) : CollaborationTx TeamTaskRow := do
  let env ← ask
  let team ← requireTeam scope teamId
  ofExcept (admitTask env.host team new)
  requireAssignee scope teamId new.assignedMemberId
  let db ← get
  match db.teamTasks.insert? (new.row scope teamId env.now) with
  | none => throw .integrity
  | some teamTasks => do
    set { db with teamTasks }
    return new.row scope teamId env.now

def claimTask (teamId taskId memberId : String) (expectedVersion : Nat) :
    CollaborationTx TeamTaskRow := do
  let env ← ask
  let team ← requireTeam scope teamId
  let _ ← requireMember scope teamId memberId
  match team.tasks.find? (·.taskId == taskId) with
  | none => throw (.notFound "task not found")
  | some task =>
    if team.row.status ≠ .active ∨ team.isUnblocked task = false then
      throw (.conflict "task dependencies are not completed")
    else if task.ownerMemberId.any (· ≠ memberId) then
      throw (.conflict "task assigned to another member")
    else
      updateOne Db.teamTasks (fun teamTasks db => { db with teamTasks })
        (fun t => t.scope == scope && t.teamId == teamId && t.taskId == taskId &&
          t.status == .pending && t.version == expectedVersion)
        (TeamTaskRow.claim memberId env.now) (TeamTaskRow.claim_keys memberId env.now)
        (.conflict "task already claimed or version changed")

def finishTask (teamId taskId : String) (memberId : Option String) (expectedVersion : Nat)
    (status : TaskStatus) (result : String) : CollaborationTx TeamTaskRow := do
  let env ← ask
  if !status.isTerminal then throw (.value "invalid terminal task status")
  else
    updateOne Db.teamTasks (fun teamTasks db => { db with teamTasks })
      (fun t => t.scope == scope && t.teamId == teamId && t.taskId == taskId &&
        t.ownerMemberId == memberId && t.version == expectedVersion && t.status == .running)
      (TeamTaskRow.finish status result env.now) (TeamTaskRow.finish_keys status result env.now)
      (.conflict "task ownership or version changed")

def bindTaskJob (taskId jobId : String) : CollaborationTx Unit := do
  let db ← get
  set { db with
    teamTasks := db.teamTasks.update
      (fun t => t.scope == scope && t.taskId == taskId && t.status == .running && t.jobId.isNone)
      (TeamTaskRow.bind jobId) (TeamTaskRow.bind_keys jobId) }

/-- The team is cancelled whatever its status, and with it the tasks that nobody has claimed. -/
def cancelTeam (teamId : String) : CollaborationTx TeamView := do
  let env ← ask
  let _ ← requireTeam scope teamId
  let db ← get
  set { db with
    teams := db.teams.update (fun t => t.scope == scope && t.teamId == teamId)
      (TeamRow.change (some .cancelled) none env.now)
      (TeamRow.change_keys (some .cancelled) none env.now)
    teamTasks := db.teamTasks.update
      (fun t => t.scope == scope && t.teamId == teamId && t.status == .pending)
      TeamTaskRow.cancel TeamTaskRow.cancel_keys }
  requireTeam scope teamId

end CollaborationRepository

end MultiClaw
