import MultiClaw.Deletion.Repository

/-! The service that schedules and takes back the deletion of an account. -/
namespace MultiClaw

open Base Transaction

structure DeletionStatus where
  jobId : String
  status : DeletionJobStatus
  requestedAt : Nat
  purgeAfter : Nat
  deriving DecidableEq, Repr

def DeletionJobRow.deletionStatus (j : DeletionJobRow) : DeletionStatus :=
  ⟨j.jobId, j.status, j.requestedAt, j.purgeAfter⟩

namespace DeletionService

open DeletionRepository

/-- The job that a request schedules: the one there is, or a new one. -/
def scheduleJob (tenantId jobId : String) (retentionDays : Nat) :
    Option DeletionJobRow → DeletionTx DeletionJobRow
  | some job => pure job
  | none => do
    let env ← ask
    createScheduled tenantId jobId env.now (env.now + retentionDays * 86400000)

/-- The transaction of a request; it also says whether the runtime is to be revoked. -/
def request (tenantId jobId : String) (retentionDays : Nat) :
    DeletionTx (DeletionStatus × Bool) := do
  let env ← ask
  let accounts ← get
  match accounts.getUser tenantId with
  | none => throw (.runtime "account not found")
  | some user =>
    let existing := accounts.getJob tenantId
    match user.status, existing.filter (·.status == .scheduled) with
    | .pendingPurge, some job => pure (job.deletionStatus, false)
    | .pendingPurge, none | .disabled, _ =>
      throw (.runtime "account is not eligible for deletion scheduling")
    | .active, _ =>
      if 0 < accounts.countBlockingActivity tenantId env.now then
        throw (.activeRuns "active runs or tool executions must finish before deletion")
      else do
        expireWaitingWork tenantId
        let job ← scheduleJob tenantId jobId retentionDays existing
        let updated ← markPendingPurge tenantId user.authEpoch job.requestedAt job.purgeAfter
        if !updated then throw (.runtime "deletion request lost update")
        else pure (job.deletionStatus, true)

def windowClosed : DeletionError := .recoveryWindowClosed "recovery window is closed"

def recover (tenantId jobId : String) : DeletionTx Unit := do
  let env ← ask
  let accounts ← get
  match accounts.getUser tenantId, accounts.getByJobId tenantId jobId with
  | some user, some job =>
    if user.status ≠ .pendingPurge then throw windowClosed
    else if job.status ≠ .scheduled then
      throw (.recoveryWindowClosed "recovery requires a scheduled deletion job")
    else if job.purgeAfter ≤ env.now then throw windowClosed
    else do
      let deleted ← deleteScheduled tenantId job.jobId job.version
      if !deleted then throw windowClosed
      else do
        let restored ← restoreActive tenantId user.authEpoch env.now
        if !restored then throw windowClosed else pure ()
  | _, _ => throw windowClosed

end DeletionService

end MultiClaw
