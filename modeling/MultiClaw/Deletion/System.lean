import MultiClaw.Deletion.Service
import MultiClaw.Runtime.Admission
import MultiClaw.Workflow.System

/-! Accounts, the run manager and the deletion workers as one system, one event at a time. -/
namespace MultiClaw

open Base Transaction

/-- Where a deletion worker is in its procedure, and the record of the job that it holds. -/
inductive WorkerPhase where
  | idle
  | claimed (job : DeletionJobRow)
  | revoked (job : DeletionJobRow)
  | looping (job : DeletionJobRow) (workspaceIds : List String)
  | removing (job : DeletionJobRow) (workspaceIds : List String)
  | finishing (job : DeletionJobRow)
  | purging (job : DeletionJobRow)
  | failing (job : DeletionJobRow) (error : String)

def WorkerPhase.job? : WorkerPhase → Option DeletionJobRow
  | idle => none
  | claimed job | revoked job | looping job _ | removing job _ | finishing job | purging job
  | failing job _ => some job

/-- What came of the removal of a directory tree. -/
inductive Removal where
  | removed
  | absent
  | raised (error : String)

inductive DeletionEntry where
  | requested (jobId : String)
  | recovered (jobId : String)
  | revoked (tenantId : String)
  | started
  | claimed (workerId jobId : String) (fencingToken purgeAfter now : Nat)
  | removed (workerId jobId : String)
  | purged (workerId jobId : String)
  deriving DecidableEq

/-- The tables, the tenants whose runtime is still to be revoked, the manager, the workers, and
what happened so far. -/
structure ServerState where
  accounts : Accounts
  revocations : List String
  manager : RunManager
  workers : String → WorkerPhase
  log : List DeletionEntry

def ServerState.initial (maxQueue : Nat) : ServerState :=
  ⟨.empty, [], .new maxQueue, fun _ => .idle, []⟩

inductive ServerEvent where
  | register (id email : String) (now : Nat)
  | request (env : Env) (tenantId jobId : String) (retentionDays : Nat)
  | recover (env : Env) (tenantId jobId : String)
  | revoke (tenantId : String)
  | workflow (call : Call)
  | manage (op : ManagerOp)
  | restart (maxQueue : Nat)
  | claim (env : Env) (workerId tenantId : String)
  | workerRevoke (workerId : String)
  | survey (env : Env) (workerId : String) (workspaceIds : List String)
  | beat (env : Env) (workerId : String)
  | remove (workerId : String) (removal : Removal)
  | recordError (env : Env) (workerId : String)
  | purge (env : Env) (workerId : String) (violated : Bool)
  | crash (workerId : String)

namespace ServerState

variable (s : ServerState)

def setWorker (workerId : String) (phase : WorkerPhase) : ServerState :=
  { s with workers := fun w => if w = workerId then phase else s.workers w }

def note (entry : DeletionEntry) : ServerState := { s with log := s.log ++ [entry] }

def register (id email : String) (now : Nat) : ServerState :=
  match s.accounts.users.insert? ⟨id, email, .active, 0, none, none, now⟩ with
  | none => s
  | some users => { s with accounts := { s.accounts with users } }

/-- A scheduled deletion has the runtime of the tenant revoked once its transaction is over. -/
def request (env : Env) (tenantId jobId : String) (retentionDays : Nat) : ServerState :=
  match (DeletionService.request tenantId jobId retentionDays).run env s.accounts with
  | .ok ((status, true), accounts) =>
    { s with accounts, revocations := tenantId :: s.revocations }.note (.requested status.jobId)
  | _ => s

def recover (env : Env) (tenantId jobId : String) : ServerState :=
  match (DeletionService.recover tenantId jobId).run env s.accounts with
  | .ok ((), accounts) =>
    { s with accounts, revocations := tenantId :: s.revocations }.note (.recovered jobId)
  | .error _ => s

def revoke (tenantId : String) : ServerState :=
  if tenantId ∈ s.revocations then
    { s with
      revocations := s.revocations.erase tenantId
      manager := s.manager.revoke tenantId }.note (.revoked tenantId)
  else s

def restart (maxQueue : Nat) : ServerState :=
  { s with revocations := [], manager := .new maxQueue }.note .started

/-! The steps of a worker -/

def claim (env : Env) (workerId tenantId : String) : ServerState :=
  match s.workers workerId with
  | .idle =>
    match (DeletionRepository.claimDue tenantId workerId).run env s.accounts with
    | .ok (some job, accounts) =>
      ({ s with accounts }.setWorker workerId (.claimed job)).note
        (.claimed workerId job.jobId job.fencingToken job.purgeAfter env.now)
    | .ok (none, accounts) => { s with accounts }
    | .error _ => s
  | _ => s

def workerRevoke (workerId : String) : ServerState :=
  match s.workers workerId with
  | .claimed job =>
    ({ s with manager := s.manager.revoke job.tenantId }.setWorker workerId (.revoked job)).note
      (.revoked job.tenantId)
  | _ => s

def survey (env : Env) (workerId : String) (workspaceIds : List String) : ServerState :=
  match s.workers workerId with
  | .revoked job =>
    if 0 < s.accounts.countBlockingActivity job.tenantId env.now then
      s.setWorker workerId (.failing job "ACTIVE_RUNS")
    else s.setWorker workerId (.looping job workspaceIds)
  | _ => s

/-- Renew the lease on the job, and go on with the renewed record. -/
def renew (env : Env) (workerId : String) (job : DeletionJobRow)
    (next : DeletionJobRow → WorkerPhase) : ServerState :=
  match (DeletionRepository.heartbeat workerId job).run env s.accounts with
  | .ok (some refreshed, accounts) => { s with accounts }.setWorker workerId (next refreshed)
  | .ok (none, accounts) => { s with accounts }.setWorker workerId .idle
  | .error _ => s

def beat (env : Env) (workerId : String) : ServerState :=
  match s.workers workerId with
  | .looping job (_ :: workspaceIds) => s.renew env workerId job (.removing · workspaceIds)
  | .finishing job => s.renew env workerId job .purging
  | _ => s

/-- The outcome of a removal under a job. -/
def removal (workerId : String) (job : DeletionJobRow) (next : WorkerPhase) :
    Removal → ServerState
  | .removed => (s.setWorker workerId next).note (.removed workerId job.jobId)
  | .absent => s.setWorker workerId next
  | .raised error => s.setWorker workerId (.failing job error)

/-- A workspace is removed after a heartbeat, and the agents' directories after the loop. -/
def remove (workerId : String) (removal : Removal) : ServerState :=
  match s.workers workerId with
  | .removing job workspaceIds => s.removal workerId job (.looping job workspaceIds) removal
  | .looping job [] => s.removal workerId job (.finishing job) removal
  | _ => s

def recordError (env : Env) (workerId : String) : ServerState :=
  match s.workers workerId with
  | .failing job error =>
    match (DeletionRepository.markRetryableError workerId job error).run env s.accounts with
    | .ok ((), accounts) => { s with accounts }.setWorker workerId .idle
    | .error _ => s.setWorker workerId .idle
  | _ => s

/-- A purge that finds neither the account nor the job has nothing to delete. -/
def purge (env : Env) (workerId : String) (violated : Bool) : ServerState :=
  match s.workers workerId with
  | .purging job =>
    match (DeletionRepository.purgeAccount job.tenantId workerId job.fencingToken job.version
      violated).run env s.accounts with
    | .ok (true, accounts) =>
      let done := { s with accounts }.setWorker workerId .idle
      match s.accounts.getJob job.tenantId with
      | some current => done.note (.purged workerId current.jobId)
      | none => done
    | .ok (false, accounts) => { s with accounts }.setWorker workerId .idle
    | .error _ => s.setWorker workerId .idle
  | _ => s

def step : ServerEvent → ServerState
  | .register id email now => s.register id email now
  | .request env tenantId jobId retentionDays => s.request env tenantId jobId retentionDays
  | .recover env tenantId jobId => s.recover env tenantId jobId
  | .revoke tenantId => s.revoke tenantId
  | .workflow call => { s with accounts := { s.accounts with db := call.step s.accounts.db } }
  | .manage op => { s with manager := op.apply s.manager }
  | .restart maxQueue => s.restart maxQueue
  | .claim env workerId tenantId => s.claim env workerId tenantId
  | .workerRevoke workerId => s.workerRevoke workerId
  | .survey env workerId workspaceIds => s.survey env workerId workspaceIds
  | .beat env workerId => s.beat env workerId
  | .remove workerId removal => s.remove workerId removal
  | .recordError env workerId => s.recordError env workerId
  | .purge env workerId violated => s.purge env workerId violated
  | .crash workerId => s.setWorker workerId .idle

def run (events : List ServerEvent) : ServerState := events.foldl step s

end ServerState

/-- The instant of the database clock at which an event reads it. -/
def ServerEvent.now? : ServerEvent → Option Nat
  | register _ _ now => some now
  | request env _ _ _ | recover env _ _ | claim env _ _ | survey env _ _ | beat env _
  | recordError env _ | purge env _ _ => some env.now
  | workflow call => some call.env.now
  | _ => none

/-- The id that a request draws for a new job. -/
def ServerEvent.drawnJobId? : ServerEvent → Option String
  | request _ _ jobId _ => some jobId
  | _ => none

end MultiClaw
