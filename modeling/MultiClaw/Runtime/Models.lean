import MultiClaw.Storage.Workflow

/-! The resident runtime of a tenant: its counters, and the leases that move them. -/
namespace MultiClaw

structure WorkflowRuntimeCounters where
  activeRunCount : Nat
  activeExecutingRunCount : Nat
  awaitingUserRunCount : Nat
  checkpointedAwaitingUserRunCount : Nat
  deriving DecidableEq

namespace Db

/-- The run belongs to the tenant and the workspace of the context. -/
def inWorkspace (context : TenantContext) (r : RunRow) : Bool :=
  r.scope.tenantId == context.tenantId && r.scope.workspaceId == context.workspaceId

def hasCheckpoint (db : Db) (r : RunRow) : Bool :=
  db.checkpoints.any fun c => c.scope == r.scope

def getRuntimeCounters (db : Db) (context : TenantContext) : WorkflowRuntimeCounters where
  activeRunCount := db.runs.count fun r => inWorkspace context r && !r.status.isTerminal
  activeExecutingRunCount := db.runs.count fun r =>
    inWorkspace context r && (r.status == .running || r.status == .resuming)
  awaitingUserRunCount := db.runs.count fun r => inWorkspace context r && r.status == .awaitingUser
  checkpointedAwaitingUserRunCount := db.runs.count fun r =>
    inWorkspace context r && r.status == .awaitingUser && db.hasCheckpoint r

end Db

/-- A lease executes until it awaits the user; only then can its checkpoint count. -/
structure RuntimeExecutionLease where
  closed : Bool := false
  executing : Bool := true
  awaitingUser : Bool := false
  checkpointPersisted : Bool := false
  activeToolExecutions : Nat := 0
  executing_eq : executing = !awaitingUser := by rfl
  persisted_le : checkpointPersisted = true → awaitingUser = true := by simp

structure TenantRuntime where
  lastUsedAtMs : Int
  activeRunCount : Nat := 0
  awaitingUserRunCount : Nat := 0
  checkpointedAwaitingUserRunCount : Nat := 0
  activeExecutingRunCount : Nat := 0
  activeToolExecutionCount : Nat := 0
  available : Bool := true
  closeComplete : Bool := false
  deriving DecidableEq

namespace TenantRuntime

def idleExpired (t : TenantRuntime) (nowMs idleTtlMs : Int) : Bool :=
  idleTtlMs < nowMs - t.lastUsedAtMs

def canEvict (t : TenantRuntime) (nowMs idleTtlMs : Int) : Bool :=
  if !t.idleExpired nowMs idleTtlMs then false
  else if 0 < t.activeExecutingRunCount then false
  else if t.activeRunCount = 0 then true
  else t.activeRunCount == t.checkpointedAwaitingUserRunCount && t.activeToolExecutionCount == 0

def isAvailable (t : TenantRuntime) : Bool := t.available && !t.closeComplete

def markUnavailable (t : TenantRuntime) : TenantRuntime := { t with available := false }

def touch (t : TenantRuntime) (nowMs : Int) : TenantRuntime := { t with lastUsedAtMs := nowMs }

def applyWorkflowCounters (t : TenantRuntime) (counters : WorkflowRuntimeCounters) :
    TenantRuntime :=
  { t with
    activeRunCount := counters.activeRunCount
    activeExecutingRunCount := counters.activeExecutingRunCount
    awaitingUserRunCount := counters.awaitingUserRunCount
    checkpointedAwaitingUserRunCount := counters.checkpointedAwaitingUserRunCount }

/-- `RuntimeFactory.create`, as far as the counters go. -/
def create (db : Db) (context : TenantContext) (nowMs : Int) : TenantRuntime :=
  applyWorkflowCounters { lastUsedAtMs := nowMs } (db.getRuntimeCounters context)

/-- `begin_run`: nothing for a runtime that is not available. -/
def beginRun (t : TenantRuntime) (nowMs : Int) : Option (TenantRuntime × RuntimeExecutionLease) :=
  if t.isAvailable then
    some ({ t.touch nowMs with
      activeRunCount := t.activeRunCount + 1
      activeExecutingRunCount := t.activeExecutingRunCount + 1 }, {})
  else none

end TenantRuntime

namespace RuntimeExecutionLease

/-- A method of a lease works on the lease and on the runtime that it was taken from. -/
abbrev Method := RuntimeExecutionLease → TenantRuntime → RuntimeExecutionLease × TenantRuntime

def markToolExecutionStarted (nowMs : Int) : Method := fun l t =>
  if l.closed then (l, t)
  else
    ({ l with activeToolExecutions := l.activeToolExecutions + 1 },
      { t.touch nowMs with activeToolExecutionCount := t.activeToolExecutionCount + 1 })

def markToolExecutionFinished (nowMs : Int) : Method := fun l t =>
  if l.closed ∨ l.activeToolExecutions = 0 then (l, t)
  else
    ({ l with activeToolExecutions := l.activeToolExecutions - 1 },
      { t.touch nowMs with activeToolExecutionCount := t.activeToolExecutionCount - 1 })

def markAwaitingUser (nowMs : Int) (checkpointPersisted : Bool) : Method := fun l t =>
  if l.closed ∨ l.awaitingUser then (l, t)
  else
    ({ l with
        executing := false, awaitingUser := true
        checkpointPersisted := l.checkpointPersisted || checkpointPersisted
        executing_eq := rfl, persisted_le := fun _ => rfl },
      { t.touch nowMs with
        activeExecutingRunCount :=
          if l.executing then t.activeExecutingRunCount - 1 else t.activeExecutingRunCount
        awaitingUserRunCount := t.awaitingUserRunCount + 1
        checkpointedAwaitingUserRunCount :=
          if checkpointPersisted then t.checkpointedAwaitingUserRunCount + 1
          else t.checkpointedAwaitingUserRunCount })

def close (nowMs : Int) : Method := fun l t =>
  if l.closed then (l, t)
  else
    ({ l with closed := true, activeToolExecutions := 0 },
      { t.touch nowMs with
        awaitingUserRunCount :=
          if l.awaitingUser then t.awaitingUserRunCount - 1 else t.awaitingUserRunCount
        checkpointedAwaitingUserRunCount :=
          if l.awaitingUser && l.checkpointPersisted then t.checkpointedAwaitingUserRunCount - 1
          else t.checkpointedAwaitingUserRunCount
        activeExecutingRunCount :=
          if !l.awaitingUser && l.executing then t.activeExecutingRunCount - 1
          else t.activeExecutingRunCount
        activeToolExecutionCount := t.activeToolExecutionCount - l.activeToolExecutions
        activeRunCount := t.activeRunCount - 1 })

end RuntimeExecutionLease

end MultiClaw
