import MultiClaw.Collaboration.Service
import MultiClaw.Storage.Memory
import MultiClaw.Workflow.System

/-! The collaboration service as a system: ticks, workers and the calls of users, in any order. -/
namespace MultiClaw

open Base Transaction

/-- How an executor ends: with a result, with an exception, or by the cancellation of its task. -/
inductive ExecutorExit where
  | returned (status : JobStatus) (result : JobResult)
  | raised
  | cancelled
  deriving DecidableEq

/-- What `_run` makes of an exception, with the job as it was when the worker started. -/
def failureOutcome (job : JobRow) : JobStatus × JobResult :=
  if job.child.isSome then
    (.interrupted, ⟨some "Agent assignment failed; recovery state retained"⟩)
  else (.failed, ⟨some "Agent assignment failed"⟩)

/-- The status that `_run` derives from the end of the executor. -/
def ExecutorExit.outcome (closed : Bool) (job : JobRow) : ExecutorExit → JobStatus × JobResult
  | .returned status result =>
    if status = .queued ∨ status = .running then failureOutcome job else (status, result)
  | .raised => failureOutcome job
  | .cancelled => (if closed then .interrupted else .cancelled, {})

/-- A task of `_run`. Its executor is running until there is an outcome to record. -/
structure Worker where
  job : JobRow
  outcome : Option (JobStatus × JobResult) := none
  /-- `task.cancel()` has been called. -/
  cancelling : Bool := false
  deriving DecidableEq

structure CollaborationState where
  db : Db
  workers : List Worker := []
  /-- The jobs whose cancellation is committed but not yet delivered to their workers. -/
  cancels : List String := []
  /-- The teams that the current tick has selected and not yet passed over. -/
  selected : List (SessionScope × String) := []
  closed : Bool := false

inductive CollaborationEvent where
  | createTeam (scope : SessionScope) (request : TeamRequest) (teamId : String)
      (memberIds : List String) (jobId : String)
  | createTask (scope : SessionScope) (teamId : String) (new : NewTask)
  | spawn (scope : SessionScope) (jobId : String) (request : AgentRequest)
      (parentRunId : Option String)
  /-- The changes of a team are accepted. -/
  | acceptTeam (scope : SessionScope) (teamId : String)
  /-- A user or an executor rewrites the request or the result of a job. -/
  | editJob (scope : SessionScope) (jobId : String) (request : Option AgentRequest)
      (result : Option JobResult)
  /-- A tick reads the active teams, or some of them. -/
  | select (teams : List (SessionScope × String))
  /-- The tick passes over the next of the teams that it has selected. -/
  | pass (newId : Option String → String)
  /-- The tick starts a job. -/
  | dispatch (scope : SessionScope) (jobId : String)
  /-- An executor creates the child run of its job. -/
  | startChild (jobId : String) (child : TenantContext) (owner checkpointId messageId : String)
  | exit (jobId : String) (exit : ExecutorExit)
  /-- A worker records the outcome of its job. -/
  | finish (jobId : String)
  /-- `cancel` commits the new status of a job. -/
  | cancel (scope : SessionScope) (jobId : String)
  /-- `cancel` reaches the worker of its job. -/
  | deliver (jobId : String)
  /-- The transaction of `cancel_team`; the jobs of the team are cancelled afterwards. -/
  | cancelTeam (scope : SessionScope) (teamId : String)
  | close
  | restart
  /-- A call of the workflow coordinator, on any run. -/
  | workflow (op : WorkflowOp)

inductive ChildFailure where
  | workflow (e : WorkflowError)
  | collaboration (e : CollaborationFailure)

namespace CollaborationService

/-- The first message of a child session. -/
def assignmentText (request : AgentRequest) : String :=
  request.goal ++ if request.context = "" then "" else "\nAssigned context:\n" ++ request.context

/-- The transaction in which an executor creates the child run of its job. -/
def startChild (scope : SessionScope) (jobId : String) (child : TenantContext)
    (owner checkpointId messageId : String) : Transaction Env Db ChildFailure JobRow := do
  match (← get).getJob scope jobId with
  | none => throw (.collaboration (.value "'NoneType' object is not subscriptable"))
  | some job => do
    let _ ← (WorkflowCoordinator.startRunWithCheckpoint child owner checkpointId).mapError .workflow
    let _ ← (MemoryRepository.save child
      { id := messageId, content := assignmentText job.request, type := "chat_message"
        sessionId := child.sessionId, role := "user", turnIndex := 1 }).mapError .workflow
    (CollaborationRepository.updateJob scope jobId job.version
      { child := some ⟨child.sessionId.getD "", child.runId.getD ""⟩ }).mapError .collaboration

end CollaborationService

namespace CollaborationState

variable (dumps : Json → String) (settings : CollaborationSettings) (env : Env)

/-- Commit a transaction; one that fails leaves no trace. -/
def commit {ε α : Type} (s : CollaborationState) (x : Transaction Env Db ε α) :
    CollaborationState :=
  { s with db := (x.commit env s.db).2 }

def worker? (s : CollaborationState) (jobId : String) : Option Worker :=
  s.workers.find? (·.job.jobId == jobId)

def removeWorker (s : CollaborationState) (jobId : String) : CollaborationState :=
  { s with workers := s.workers.filter (·.job.jobId ≠ jobId) }

def mapWorker (s : CollaborationState) (jobId : String) (f : Worker → Worker) :
    CollaborationState :=
  { s with workers := s.workers.map fun w => if w.job.jobId = jobId then f w else w }

/-- `task.cancel()`: an executor that runs is told to stop, the recording of an outcome is broken
off. -/
def cancelWorker (s : CollaborationState) (jobId : String) : CollaborationState :=
  match s.worker? jobId with
  | none => s
  | some w =>
    if w.outcome.isSome then s.removeWorker jobId
    else s.mapWorker jobId fun w => { w with cancelling := true }

/-- One event. An event that is not enabled changes nothing. -/
def step (s : CollaborationState) : CollaborationEvent → CollaborationState
  | .createTeam scope request teamId memberIds jobId =>
    if s.closed then s
    else
      s.commit env
        (CollaborationService.createTeam settings scope request teamId memberIds jobId)
  | .createTask scope teamId new =>
    s.commit env (CollaborationRepository.createTask scope teamId new)
  | .spawn scope jobId request parentRunId =>
    if s.closed then s
    else s.commit env (CollaborationService.spawn settings scope { jobId, request, parentRunId })
  | .acceptTeam scope teamId =>
    match s.db.getTeam scope teamId with
    | none => s
    | some team => s.commit env (CollaborationRepository.updateTeam scope teamId team.row.version
        none (some team.row.config))
  | .editJob scope jobId request result =>
    match s.db.getJob scope jobId with
    | none => s
    | some job => s.commit env (CollaborationRepository.updateJob scope jobId job.version
        { request, result })
  | .select teams =>
    if s.closed ∨ s.selected ≠ [] ∨ ¬∀ t ∈ teams, (s.db.getTeamRow t.1 t.2).any
        (·.status = .active) then s
    else { s with selected := teams }
  | .pass newId =>
    match s.selected with
    | [] => s
    | (scope, teamId) :: rest =>
      match (CollaborationService.schedulePass dumps settings scope teamId newId).commit env
          s.db with
      | (.ok _, db) => { s with db, selected := rest }
      -- the exception ends the tick
      | (.error _, db) => { s with db, selected := [] }
  | .dispatch scope jobId =>
    match s.db.getJob scope jobId with
    | none => s
    | some job =>
      if s.closed ∨ (s.worker? jobId).isSome ∨ settings.maxWorkers ≤ s.workers.length ∨
          job.status.isTerminal then s
      else match (CollaborationService.startJob scope job).commit env s.db with
        | (.ok (some started), db) => { s with db, workers := s.workers ++ [{ job := started }] }
        | (_, db) => { s with db }
  | .startChild jobId child owner checkpointId messageId =>
    match s.worker? jobId with
    | none => s
    | some w =>
      if w.outcome.isSome ∨ w.job.child.isSome ∨ child.tenantId ≠ w.job.tenantId ∨
          child.workspaceId ≠ w.job.workspaceId ∨
          (s.db.getJob w.job.scope jobId).any (·.child.isSome) then s
      else s.commit env (CollaborationService.startChild w.job.scope jobId child owner checkpointId
        messageId)
  | .exit jobId exit =>
    match s.worker? jobId with
    | none => s
    | some w =>
      if w.outcome.isSome ∨ (exit = .cancelled ∧ w.cancelling = false) then s
      else s.mapWorker jobId fun w => { w with outcome := some (exit.outcome s.closed w.job) }
  | .finish jobId =>
    match s.worker? jobId with
    | none => s
    | some w =>
      match w.outcome with
      | none => s
      | some (status, result) =>
        (s.commit env (CollaborationService.finishJob w.job.scope w.job status result)).removeWorker
          jobId
  | .cancel scope jobId =>
    match s.db.getJob scope jobId with
    | none => s
    | some job =>
      if job.status.isTerminal then s
      else
        { s.commit env (CollaborationService.cancelJob scope job) with
          cancels := s.cancels ++ [jobId] }
  | .deliver jobId =>
    if jobId ∈ s.cancels then
      { s.cancelWorker jobId with cancels := s.cancels.filter (· ≠ jobId) }
    else s
  | .cancelTeam scope teamId => s.commit env (CollaborationRepository.cancelTeam scope teamId)
  | .close =>
    if s.selected ≠ [] then s
    else
      { s with
        closed := true
        workers := (s.workers.filter (·.outcome.isNone)).map ({ · with cancelling := true }) }
  | .restart =>
    if s.closed ∧ s.workers = [] ∧ s.cancels = [] then { db := s.db } else s
  | .workflow op => { s with db := Call.step s.db ⟨env, op⟩ }

end CollaborationState

/-- An event and the time at which it happens. -/
structure TimedEvent where
  env : Env
  event : CollaborationEvent

def CollaborationState.runAll (dumps : Json → String) (settings : CollaborationSettings)
    (s : CollaborationState) (events : List TimedEvent) : CollaborationState :=
  events.foldl (fun s e => s.step dumps settings e.env e.event) s

/-- Every event of a run finds a state that it may happen in. -/
def CollaborationState.Along (dumps : Json → String) (settings : CollaborationSettings)
    (P : CollaborationState → CollaborationEvent → Prop) :
    CollaborationState → List TimedEvent → Prop
  | _, [] => True
  | s, e :: events =>
    P s e.event ∧ Along dumps settings P (s.step dumps settings e.env e.event) events

end MultiClaw
