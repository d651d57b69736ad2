import MultiClaw.Deletion.Repository

/-! The deletion worker: how a batch claims and processes the jobs that are due. -/
namespace MultiClaw

open Base Transaction DeletionRepository

/-- The exceptions that the operations on one workspace raise, by the names of their classes. -/
structure WorkspaceFaults where
  heartbeat : Option String := none
  removal : Option String := none

/-- The workspaces of a tenant, and the exceptions that the operations of its job raise. -/
structure JobFaults where
  claim : Option String := none
  revoke : Option String := none
  survey : Option String := none
  record : Option String := none
  workspaces : List WorkspaceFaults := []
  storage : Option String := none
  lastHeartbeat : Option String := none
  purge : Option String := none

def DeletionError.className : DeletionError → String
  | runtime _ => "RuntimeError"
  | activeRuns _ => "ActiveRunsError"
  | recoveryWindowClosed _ => "RecoveryWindowClosedError"
  | integrity => "IntegrityError"

structure DeletionBatchResult where
  claimed : Nat := 0
  completed : Nat := 0
  failed : Nat := 0

/-- The order of the query. Jobs that it leaves unordered come in the order of their ids. -/
def DeletionJobRow.key (j : DeletionJobRow) : Nat ×ₗ Nat ×ₗ String :=
  toLex (j.purgeAfter, toLex (j.requestedAt, j.jobId))

/-- The jobs that can be claimed, in the order in which a batch takes them. -/
def Accounts.dueJobs (accounts : Accounts) (now : Nat) : List DeletionJobRow :=
  (accounts.deletionJobs.filter (isDue now)).insertionSort fun a b => a.key ≤ b.key

def Accounts.nextClaimableTenantId (accounts : Accounts) (now : Nat) : Option String :=
  (accounts.dueJobs now).head?.map (·.tenantId)

/-- How the removal of the workspaces ends. -/
inductive LoopEnd where
  | lost
  | raised (job : DeletionJobRow) (error : String)
  | finished (job : DeletionJobRow)

/-- The accounts, and the tenants whose jobs the batch has claimed. -/
structure BatchState where
  accounts : Accounts
  claimed : List String

namespace DeletionWorker

variable (env : Env) (workerId : String)

/-- A transaction that the outside may make fail before it commits. -/
def attempt {α : Type} (fault : Option String) (tx : DeletionTx α) (accounts : Accounts) :
    Except String α × Accounts :=
  match fault with
  | some error => (.error error, accounts)
  | none =>
    match tx.commit env accounts with
    | (.ok a, accounts) => (.ok a, accounts)
    | (.error e, accounts) => (.error e.className, accounts)

def claimJob (faults : JobFaults) (tenantId : String) :=
  attempt env faults.claim (claimDue tenantId workerId)

def recordRetryableError (faults : JobFaults) (job : DeletionJobRow) (error : String) :=
  attempt env faults.record (markRetryableError workerId job error)

/-- The error is recorded, and the job is left for another batch. -/
def giveUp (faults : JobFaults) (job : DeletionJobRow) (error : String) (accounts : Accounts) :
    Except String Bool × Accounts :=
  match recordRetryableError env workerId faults job error accounts with
  | (.error error, accounts) => (.error error, accounts)
  | (.ok (), accounts) => (.ok false, accounts)

/-- The loop over the workspaces, with the agents' directories at its end. -/
def removeWorkspaces (storage : Option String) :
    DeletionJobRow → List WorkspaceFaults → Accounts → LoopEnd × Accounts
  | job, [], accounts =>
    match storage with
    | some error => (.raised job error, accounts)
    | none => (.finished job, accounts)
  | job, workspace :: workspaces, accounts =>
    match attempt env workspace.heartbeat (heartbeat workerId job) accounts with
    | (.error error, accounts) => (.raised job error, accounts)
    | (.ok none, accounts) => (.lost, accounts)
    | (.ok (some refreshed), accounts) =>
      match workspace.removal with
      | some error => (.raised refreshed error, accounts)
      | none => removeWorkspaces storage refreshed workspaces accounts

/-- A last heartbeat before the purge. -/
def purgeHeld (faults : JobFaults) (job : DeletionJobRow) (accounts : Accounts) :
    Except String Bool × Accounts :=
  match attempt env faults.lastHeartbeat (heartbeat workerId job) accounts with
  | (.error error, accounts) => (.error error, accounts)
  | (.ok none, accounts) => (.ok false, accounts)
  | (.ok (some refreshed), accounts) =>
    attempt env faults.purge
      (purgeAccount refreshed.tenantId workerId refreshed.fencingToken refreshed.version false)
      accounts

/-- An exception of the removals is recorded; any other one leaves the procedure. -/
def purgeJob (faults : JobFaults) (job : DeletionJobRow) (accounts : Accounts) :
    Except String Bool × Accounts :=
  match faults.revoke, faults.survey with
  | some error, _ => (.error error, accounts)
  | none, some error => (.error error, accounts)
  | none, none =>
    if 0 < accounts.countBlockingActivity job.tenantId env.now then
      giveUp env workerId faults job "ACTIVE_RUNS" accounts
    else
      match removeWorkspaces env workerId faults.storage job faults.workspaces accounts with
      | (.lost, accounts) => (.ok false, accounts)
      | (.raised job error, accounts) => giveUp env workerId faults job error accounts
      | (.finished job, accounts) => purgeHeld env workerId faults job accounts

def runBatch (faults : String → JobFaults) :
    Nat → DeletionBatchResult → BatchState → Except String DeletionBatchResult × BatchState
  | 0, result, s => (.ok result, s)
  | batchSize + 1, result, s =>
    match s.accounts.nextClaimableTenantId env.now with
    | none => (.ok result, s)
    | some tenantId =>
      match claimJob env workerId (faults tenantId) tenantId s.accounts with
      | (.error error, accounts) => (.error error, { s with accounts })
      | (.ok none, accounts) => runBatch faults batchSize result { s with accounts }
      | (.ok (some job), accounts) =>
        match purgeJob env workerId (faults tenantId) job accounts with
        | (.error error, accounts) => (.error error, ⟨accounts, s.claimed ++ [tenantId]⟩)
        | (.ok true, accounts) =>
          runBatch faults batchSize
            { result with claimed := result.claimed + 1, completed := result.completed + 1 }
            ⟨accounts, s.claimed ++ [tenantId]⟩
        | (.ok false, accounts) =>
          runBatch faults batchSize
            { result with claimed := result.claimed + 1, failed := result.failed + 1 }
            ⟨accounts, s.claimed ++ [tenantId]⟩

/-- One round of the polling. -/
structure Poll where
  env : Env
  faults : String → JobFaults

/-- The rounds before the stop event is set. The result has the claims of every round that was
made, and the exception that ended the polling, if one did. -/
def runUntilStopped (batchSize : Nat) : List Poll → Accounts → List (List String) × Option String
  | [], _ => ([], none)
  | poll :: polls, accounts =>
    match runBatch poll.env workerId poll.faults batchSize {} ⟨accounts, []⟩ with
    | (.error error, s) => ([s.claimed], some error)
    | (.ok _, s) =>
      let (claims, error) := runUntilStopped batchSize polls s.accounts
      (s.claimed :: claims, error)

end DeletionWorker

end MultiClaw
