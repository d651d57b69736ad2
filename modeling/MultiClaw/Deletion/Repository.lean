import MultiClaw.Storage.Workflow

/-! Accounts, deletion jobs and the repository that schedules, claims and purges them. -/
namespace MultiClaw

open Base Transaction

inductive UserStatus where
  | active
  | disabled
  | pendingPurge
  deriving DecidableEq, Repr

structure UserRow where
  id : String
  email : String
  status : UserStatus
  authEpoch : Nat
  purgeRequestedAt : Option Nat
  purgeAfter : Option Nat
  updatedAt : Nat
  deriving DecidableEq, Repr

inductive DeletionJobStatus where
  | scheduled
  | running
  deriving DecidableEq, Repr

structure DeletionJobRow where
  jobId : String
  tenantId : String
  status : DeletionJobStatus
  purgeAfter : Nat
  requestedAt : Nat
  startedAt : Option Nat
  workerId : Option String
  leaseExpiresAt : Option Nat
  heartbeatAt : Option Nat
  fencingToken : Nat
  version : Nat
  attemptCount : Nat
  lastError : Option String
  deriving DecidableEq, Repr

inductive UserKey where
  | id (id : String)
  | email (email : String)
  deriving DecidableEq

def UserRow.keys (r : UserRow) : List UserKey := [.id r.id, .email r.email]

def DeletionJobRow.keys (r : DeletionJobRow) : List String := [r.jobId]

/-- The tables that deletion works on: accounts and their jobs, and the rows of their work. -/
structure Accounts where
  db : Db
  users : Table UserRow UserKey UserRow.keys
  deletionJobs : Table DeletionJobRow String DeletionJobRow.keys

def Accounts.empty : Accounts := ⟨.empty, .empty, .empty⟩

inductive DeletionError where
  | runtime (message : String)
  | activeRuns (message : String)
  | recoveryWindowClosed (message : String)
  | integrity
  deriving DecidableEq, Repr

abbrev DeletionTx (α : Type) := Transaction Env Accounts DeletionError α

/-! Rewritten rows -/

def UserRow.markPendingPurge (requestedAt purgeAfter : Nat) (r : UserRow) : UserRow :=
  { r with
    status := .pendingPurge, purgeRequestedAt := some requestedAt, purgeAfter := some purgeAfter
    authEpoch := r.authEpoch + 1, updatedAt := requestedAt }

def UserRow.restoreActive (nowMs : Nat) (r : UserRow) : UserRow :=
  { r with
    status := .active, purgeRequestedAt := none, purgeAfter := none
    authEpoch := r.authEpoch + 1, updatedAt := nowMs }

/-- The claim of a worker, made on the row as it was read. -/
def DeletionJobRow.claim (current : DeletionJobRow) (workerId : String) (now leaseTtlMs : Nat)
    (r : DeletionJobRow) : DeletionJobRow :=
  { r with
    status := .running
    startedAt := match current.status with
      | .scheduled => some now
      | .running => some ((current.startedAt.filter (· ≠ 0)).getD now)
    workerId := some workerId, leaseExpiresAt := some (now + leaseTtlMs), heartbeatAt := some now
    fencingToken := current.fencingToken + 1, version := current.version + 1
    attemptCount := current.attemptCount + 1, lastError := none }

def DeletionJobRow.beat (now leaseTtlMs : Nat) (r : DeletionJobRow) : DeletionJobRow :=
  { r with
    heartbeatAt := some now, leaseExpiresAt := some (now + leaseTtlMs), version := r.version + 1 }

def DeletionJobRow.fail (now : Nat) (error : String) (r : DeletionJobRow) : DeletionJobRow :=
  { r with heartbeatAt := some now, lastError := some error, version := r.version + 1 }

/-- A waiting run of an account that is to be deleted. -/
def RunRow.expireWaiting (now : Nat) (r : RunRow) : RunRow :=
  { r with
    status := .cancelled, runtimeInstanceId := none, leaseOwner := none, leaseExpiresAt := none
    heartbeatAt := some now, updatedAt := now, finishedAt := some now, version := r.version + 1 }

theorem UserRow.markPendingPurge_keys (requestedAt purgeAfter : Nat) (r : UserRow) :
    (r.markPendingPurge requestedAt purgeAfter).keys = r.keys := rfl

theorem UserRow.restoreActive_keys (nowMs : Nat) (r : UserRow) :
    (r.restoreActive nowMs).keys = r.keys := rfl

theorem DeletionJobRow.claim_keys (current : DeletionJobRow) (workerId : String)
    (now leaseTtlMs : Nat) (r : DeletionJobRow) :
    (current.claim workerId now leaseTtlMs r).keys = r.keys := rfl

theorem DeletionJobRow.beat_keys (now leaseTtlMs : Nat) (r : DeletionJobRow) :
    (r.beat now leaseTtlMs).keys = r.keys := rfl

theorem DeletionJobRow.fail_keys (now : Nat) (error : String) (r : DeletionJobRow) :
    (r.fail now error).keys = r.keys := rfl

theorem RunRow.expireWaiting_keys (now : Nat) (r : RunRow) :
    (r.expireWaiting now).keys = r.keys := rfl

namespace Accounts

variable (accounts : Accounts) (tenantId : String) (now : Nat)

def getUser : Option UserRow := accounts.users.find? (·.id == tenantId)

def getJob : Option DeletionJobRow := accounts.deletionJobs.find? (·.tenantId == tenantId)

def getByJobId (jobId : String) : Option DeletionJobRow :=
  accounts.deletionJobs.find? fun j => j.tenantId == tenantId && j.jobId == jobId

/-- Runs at work, runs under a lease, and tool calls under way. -/
def countBlockingActivity : Nat :=
  accounts.db.runs.count (fun r =>
      r.scope.tenantId == tenantId && (r.status == .running || r.status == .resuming)) +
    accounts.db.runs.count (fun r =>
      r.scope.tenantId == tenantId && !r.status.isTerminal && r.leaseExpiresAt.any (now < ·)) +
    accounts.db.executions.count fun e =>
      e.scope.tenantId == tenantId && (e.status == .replaying || e.status == .executing)

end Accounts

namespace DeletionRepository

variable (tenantId : String)

/-- Approvals that wait are expired, and runs that wait without a lease are cancelled. -/
def expireWork (env : Env) (db : Db) : Db :=
  { db with
    approvals := db.approvals.update
      (fun a => a.scope.tenantId == tenantId && a.status == .awaitingUser)
      (fun a => a.close env .expired) fun _ => rfl
    runs := db.runs.update
      (fun r => r.scope.tenantId == tenantId && r.status == .awaitingUser &&
        r.leaseExpiresAt.all (· ≤ env.now))
      (fun r => r.expireWaiting env.now) (RunRow.expireWaiting_keys env.now) }

def expireWaitingWork : DeletionTx Unit := do
  let env ← ask
  let accounts ← get
  set { accounts with db := expireWork tenantId env accounts.db }

/-- The row of a new job. -/
def newJob (jobId : String) (requestedAt purgeAfter : Nat) : DeletionJobRow where
  jobId := jobId
  tenantId := tenantId
  status := .scheduled
  purgeAfter := purgeAfter
  requestedAt := requestedAt
  startedAt := none
  workerId := none
  leaseExpiresAt := none
  heartbeatAt := none
  fencingToken := 0
  version := 0
  attemptCount := 0
  lastError := none

def createScheduled (jobId : String) (requestedAt purgeAfter : Nat) :
    DeletionTx DeletionJobRow := do
  let accounts ← get
  match accounts.deletionJobs.insert? (newJob tenantId jobId requestedAt purgeAfter) with
  | none => throw .integrity
  | some deletionJobs =>
    set { accounts with deletionJobs }
    match Accounts.getJob { accounts with deletionJobs } tenantId with
    | none => throw (.runtime "record is not None")
    | some record => pure record

/-- Rewrite an account that has the expected status and epoch. -/
def updateUser (status : UserStatus) (expectedEpoch : Nat) (f : UserRow → UserRow)
    (hf : ∀ r, (f r).keys = r.keys) : DeletionTx Bool := do
  let accounts ← get
  let selected := fun r : UserRow =>
    r.id == tenantId && r.status == status && r.authEpoch == expectedEpoch
  set { accounts with users := accounts.users.update selected f hf }
  pure (accounts.users.count selected == 1)

def markPendingPurge (expectedEpoch requestedAt purgeAfter : Nat) : DeletionTx Bool :=
  updateUser tenantId .active expectedEpoch (UserRow.markPendingPurge requestedAt purgeAfter)
    (UserRow.markPendingPurge_keys requestedAt purgeAfter)

def restoreActive (expectedEpoch nowMs : Nat) : DeletionTx Bool :=
  updateUser tenantId .pendingPurge expectedEpoch (UserRow.restoreActive nowMs)
    (UserRow.restoreActive_keys nowMs)

def deleteScheduled (jobId : String) (expectedVersion : Nat) : DeletionTx Bool := do
  let accounts ← get
  let selected := fun j : DeletionJobRow => j.tenantId == tenantId && j.jobId == jobId &&
    j.status == .scheduled && j.version == expectedVersion
  set { accounts with deletionJobs := accounts.deletionJobs.delete selected }
  pure (accounts.deletionJobs.count selected == 1)

/-- A job may be claimed once its time has come, and again once the lease on it has expired. -/
def isDue (now : Nat) (current : DeletionJobRow) : Bool :=
  match current.status with
  | .scheduled => decide (current.purgeAfter ≤ now)
  | .running => current.leaseExpiresAt.any (· ≤ now)

/-- The where-clause of a claim. -/
def claimable (now : Nat) (current j : DeletionJobRow) : Bool :=
  match current.status with
  | .scheduled => j.tenantId == current.tenantId && j.status == .scheduled &&
      j.version == current.version && decide (j.purgeAfter ≤ now)
  | .running => j.tenantId == current.tenantId && j.status == .running &&
      j.version == current.version && j.fencingToken == current.fencingToken &&
      j.leaseExpiresAt.any (· ≤ now)

def claimDue (workerId : String) : DeletionTx (Option DeletionJobRow) := do
  let env ← ask
  let accounts ← get
  match accounts.getJob tenantId with
  | none => pure none
  | some current =>
    if isDue env.now current = false then pure none else do
      let selected := claimable env.now current
      let deletionJobs := accounts.deletionJobs.update selected
        (current.claim workerId env.now env.settings.leaseTtlMs)
        (current.claim_keys workerId env.now env.settings.leaseTtlMs)
      set { accounts with deletionJobs }
      if accounts.deletionJobs.count selected ≠ 1 then pure none
      else pure (Accounts.getJob { accounts with deletionJobs } tenantId)

/-- The row is the one that the worker holds. -/
def heldBy (workerId : String) (job j : DeletionJobRow) : Bool :=
  j.tenantId == job.tenantId && j.status == .running && j.workerId == some workerId &&
    j.fencingToken == job.fencingToken && j.version == job.version

def heartbeat (workerId : String) (job : DeletionJobRow) : DeletionTx (Option DeletionJobRow) := do
  let env ← ask
  let accounts ← get
  let deletionJobs := accounts.deletionJobs.update (heldBy workerId job)
    (DeletionJobRow.beat env.now env.settings.leaseTtlMs)
    (DeletionJobRow.beat_keys env.now env.settings.leaseTtlMs)
  set { accounts with deletionJobs }
  if accounts.deletionJobs.count (heldBy workerId job) ≠ 1 then pure none
  else pure (Accounts.getJob { accounts with deletionJobs } job.tenantId)

def markRetryableError (workerId : String) (job : DeletionJobRow) (error : String) :
    DeletionTx Unit := do
  let env ← ask
  let accounts ← get
  set { accounts with
    deletionJobs := accounts.deletionJobs.update (heldBy workerId job)
      (DeletionJobRow.fail env.now error) (DeletionJobRow.fail_keys env.now error) }

/-- The rows of a tenant's work are deleted. -/
def purgeWork (db : Db) : Db where
  runs := db.runs.delete (·.scope.tenantId == tenantId)
  approvals := db.approvals.delete (·.scope.tenantId == tenantId)
  executions := db.executions.delete (·.scope.tenantId == tenantId)
  checkpoints := db.checkpoints.delete (·.scope.tenantId == tenantId)
  memory := db.memory.delete (·.tenantId == tenantId)
  plans := db.plans.delete (·.scope.tenantId == tenantId)
  planVersions := db.planVersions.delete (·.tenantId == tenantId)
  planSteps := db.planSteps.delete (·.scope.tenantId == tenantId)
  planStepDependencies := db.planStepDependencies.delete (·.scope.tenantId == tenantId)
  planDecisions := db.planDecisions.delete (·.scope.tenantId == tenantId)
  planStepRuns := db.planStepRuns.delete (·.scope.tenantId == tenantId)
  jobs := db.jobs.delete (·.tenantId == tenantId)
  teams := db.teams.delete (·.scope.tenantId == tenantId)
  teamMembers := db.teamMembers.delete (·.scope.tenantId == tenantId)
  teamTasks := db.teamTasks.delete (·.scope.tenantId == tenantId)

/-- `violated` says whether a foreign key stops one of the deletions. -/
def purgeAccount (workerId : String) (fencingToken version : Nat) (violated : Bool) :
    DeletionTx Bool := do
  let accounts ← get
  match accounts.getUser tenantId, accounts.getJob tenantId with
  | none, none => pure true
  | none, some _ | some _, none => pure false
  | some user, some job =>
    if user.status ≠ .pendingPurge then pure false
    else if job.status ≠ .running ∨ job.workerId ≠ some workerId ∨
        job.fencingToken ≠ fencingToken ∨ job.version ≠ version then pure false
    else if violated then throw .integrity
    else do
      set
        { db := purgeWork tenantId accounts.db
          users := accounts.users.delete (·.id == tenantId)
          deletionJobs := accounts.deletionJobs.delete (·.tenantId == tenantId) }
      pure true

end DeletionRepository

end MultiClaw
