import Mathlib

/-! The token budget that the inference calls of a run share, and the jobs spawned from the run. -/
namespace MultiClaw

structure AgentJob where
  parentRunId : Option String
  teamId : Option String
  memberId : Option String
  taskId : Option String
  budgetTokens : Nat
  deriving DecidableEq

/-- The rows of a session that its runs and jobs are charged to: a team has its members, and a run
the total of its `run_usage` entry. -/
structure CollaborationStore where
  runs : List String := []
  teams : List (String × List String) := []
  jobs : List AgentJob := []
  runUsage : List (String × Nat) := []

inductive CollaborationError where
  | notFound (message : String)
  | conflict (message : String)
  | integrity
  deriving DecidableEq

/-- The arguments of `create_job` besides the assignment itself. -/
structure JobAllocation where
  parentRunId : Option String := none
  teamId : Option String := none
  memberId : Option String := none
  taskId : Option String := none
  budgetTokens : Nat := 20000
  parentLimit : Nat := 250000
  teamLimit : Nat := 250000
  maxJobs : Nat := 100
  deriving DecidableEq

namespace CollaborationStore

def reservedWhere (store : CollaborationStore) (filter : AgentJob → Bool) : Nat :=
  ((store.jobs.filter filter).map (·.budgetTokens)).sum

/-- The tokens allocated to the jobs that were spawned from a run. -/
def allocated (store : CollaborationStore) (runId : String) : Nat :=
  store.reservedWhere (·.parentRunId = some runId)

def used (store : CollaborationStore) (runId : String) : Nat :=
  (store.runUsage.lookup runId).getD 0

def saveUsage (store : CollaborationStore) (runId : String) (total : Nat) : CollaborationStore :=
  { store with runUsage := (runId, total) :: store.runUsage.filter (·.1 ≠ runId) }

def requireTeam (store : CollaborationStore) (a : JobAllocation) (teamId : String) :
    Except CollaborationError Unit :=
  match store.teams.lookup teamId with
  | none => .error (.notFound "team not found")
  | some members =>
    if (a.memberId.filter (· ≠ "")).any (· ∉ members) then .error (.notFound "member not found")
    else if a.teamLimit < store.reservedWhere (·.teamId = some teamId) + a.budgetTokens +
        (if (a.taskId.filter (· ≠ "")).isSome then a.budgetTokens else 0) then
      .error (.conflict "team token allocation exhausted")
    else .ok ()

def requireParent (store : CollaborationStore) (a : JobAllocation) (runId : String) :
    Except CollaborationError Unit :=
  if runId ∉ store.runs then .error (.notFound "parent Run not found")
  else if a.parentLimit < store.allocated runId + store.used runId + a.budgetTokens then
    .error (.conflict "parent token allocation exhausted")
  else .ok ()

/-- The list of a session's jobs is cut off after five hundred. -/
def createJob (store : CollaborationStore) (a : JobAllocation) :
    Except CollaborationError CollaborationStore :=
  if a.maxJobs ≤ min store.jobs.length 500 then
    .error (.conflict "session assignment limit reached")
  else do
    (a.teamId.filter (· ≠ "")).elim (.ok ()) (store.requireTeam a)
    (a.parentRunId.filter (· ≠ "")).elim (.ok ()) (store.requireParent a)
    if a.budgetTokens = 0 then .error .integrity
    else .ok { store with
      jobs := store.jobs ++ [⟨a.parentRunId, a.teamId, a.memberId, a.taskId, a.budgetTokens⟩] }

end CollaborationStore

/-- The usage a provider reports; what it leaves out is estimated. -/
structure ReportedUsage where
  inputTokens : Option Int := none
  outputTokens : Option Int := none
  totalTokens : Option Int := none
  deriving DecidableEq

/-- What `_record` adds to the total. -/
def ReportedUsage.tokens (usage : ReportedUsage) (inputEstimate outputEstimate : Nat) : Nat :=
  max ((usage.inputTokens.getD inputEstimate).toNat +
      (usage.outputTokens.getD outputEstimate).toNat)
    (usage.totalTokens.getD 0).toNat

/-- The run and the settings its calls share. -/
structure InferenceSettings where
  runId : String
  maxRunTokens : Nat
  contextResponseReserveTokens : Nat
  runId_ne : runId ≠ "" := by decide

structure InferenceBudget where
  loaded : Bool := false
  totalTokens : Nat := 0
  reservedTokens : Int := 0
  deriving DecidableEq

/-- Where a call of `completion` or `stream_completion` stands. It reserves for each summary of
its context and at last for itself; between two reservations it prepares. -/
inductive InferenceStage where
  | idle
  | preparing
  /-- Before the quota lock of `_reserve`. -/
  | queued (estimate : Nat)
  /-- With the lock, before the allocated tokens are read. -/
  | reading (estimate : Nat) (remaining : Int)
  /-- With the lock, before the reservation is made. -/
  | granting (estimate : Nat) (remaining : Int)
  | calling (estimate reservation : Nat)
  /-- Before the usage lock of `record`. -/
  | recording (reservation tokens : Nat)
  /-- With the usage lock, before the total is stored. -/
  | storing (reservation : Nat)
  /-- Before the quota lock of `_release`. -/
  | releasing (reservation : Nat) (recorded : Bool)
  deriving DecidableEq

namespace InferenceStage

def holdsQuotaLock : InferenceStage → Bool
  | reading .. | granting .. => true
  | _ => false

def holdsUsageLock : InferenceStage → Bool
  | storing .. => true
  | _ => false

/-- The reservation a call has made and not released. -/
def outstanding : InferenceStage → Nat
  | calling _ r | recording r _ | storing r | releasing r _ => r
  | _ => 0

/-- The reservation of a call that has not recorded its usage. -/
def unrecorded : InferenceStage → Nat
  | calling _ r | recording r _ | releasing r false => r
  | _ => 0

end InferenceStage

/-- The calls that share a budget, by number. -/
structure InferenceState (n : Nat) where
  store : CollaborationStore
  budget : InferenceBudget := {}
  stage : Fin n → InferenceStage := fun _ => .idle

inductive InferenceMove where
  | enter
  /-- The call returns or raises. -/
  | leave
  /-- A request, of a summary or of the call itself, with its estimate. -/
  | request (estimate : Nat)
  | lockQuota
  | readAllocated
  /-- The reservation, as far as the daily limit of the tenant allows it. -/
  | reserve (dailyAllowed : Bool)
  /-- The provider's answer, or the end of its stream. -/
  | respond (usage : ReportedUsage) (outputEstimate : Nat)
  /-- A `completion` that fails or is cancelled. -/
  | failCall
  | record
  /-- Cancelled before the usage lock. -/
  | cancelRecord
  | store
  | failStore
  | release
  /-- Cancelled before a reservation is made. -/
  | cancel
  /-- Cancelled before the quota lock of `_release`. -/
  | cancelRelease
  deriving DecidableEq

namespace InferenceState

variable {n : Nat}

def quotaLockFree (s : InferenceState n) : Prop :=
  ∀ i, (s.stage i).holdsQuotaLock = false

def usageLockFree (s : InferenceState n) : Prop :=
  ∀ i, (s.stage i).holdsUsageLock = false

instance (s : InferenceState n) : Decidable s.quotaLockFree := inferInstanceAs (Decidable (∀ _, _))

instance (s : InferenceState n) : Decidable s.usageLockFree := inferInstanceAs (Decidable (∀ _, _))

def moveTo (s : InferenceState n) (i : Fin n) (stage : InferenceStage) : InferenceState n :=
  { s with stage := Function.update s.stage i stage }

/-- `load`: the stored total is read once. -/
def load (settings : InferenceSettings) (s : InferenceState n) : InferenceState n :=
  if s.budget.loaded then s
  else { s with
    budget := { s.budget with loaded := true, totalTokens := s.store.used settings.runId } }

def move? (settings : InferenceSettings) (s : InferenceState n) (i : Fin n) (move : InferenceMove) :
    Option (InferenceState n) :=
  match s.stage i, move with
  | .idle, .enter => some ((s.load settings).moveTo i .preparing)
  | .preparing, .leave => some (s.moveTo i .idle)
  | .preparing, .request estimate =>
    if settings.maxRunTokens ≤ s.budget.totalTokens + estimate then some (s.moveTo i .idle)
    else some (s.moveTo i (.queued estimate))
  | .queued estimate, .lockQuota =>
    if s.quotaLockFree then
      some (s.moveTo i (.reading estimate
        (settings.maxRunTokens - s.budget.totalTokens - s.budget.reservedTokens)))
    else none
  | .reading estimate remaining, .readAllocated =>
    some (s.moveTo i (.granting estimate (remaining - s.store.allocated settings.runId)))
  | .granting estimate remaining, .reserve dailyAllowed =>
    let reservation :=
      estimate + min settings.contextResponseReserveTokens (remaining - estimate).toNat
    if remaining ≤ estimate ∨ dailyAllowed = false then some (s.moveTo i .preparing)
    else some { s.moveTo i (.calling estimate reservation) with
      budget := { s.budget with reservedTokens := s.budget.reservedTokens + reservation } }
  | .calling estimate reservation, .respond usage outputEstimate =>
    some (s.moveTo i (.recording reservation (usage.tokens estimate outputEstimate)))
  | .calling _ reservation, .failCall => some (s.moveTo i (.releasing reservation false))
  | .recording reservation tokens, .record =>
    if s.usageLockFree then
      some { s.moveTo i (.storing reservation) with
        budget := { s.budget with totalTokens := s.budget.totalTokens + tokens } }
    else none
  | .recording reservation _, .cancelRecord => some (s.moveTo i (.releasing reservation false))
  | .storing reservation, .store =>
    some { s.moveTo i (.releasing reservation true) with
      store := s.store.saveUsage settings.runId s.budget.totalTokens }
  | .storing reservation, .failStore => some (s.moveTo i (.releasing reservation true))
  | .releasing reservation _, .release =>
    if s.quotaLockFree then
      some { s.moveTo i .preparing with
        budget := { s.budget with reservedTokens := s.budget.reservedTokens - reservation } }
    else none
  | .releasing .., .cancelRelease =>
    if s.quotaLockFree then none else some (s.moveTo i .preparing)
  | .queued _, .cancel => some (s.moveTo i .preparing)
  | .reading .., .cancel => some (s.moveTo i .preparing)
  | .granting .., .cancel => some (s.moveTo i .preparing)
  | _, _ => none

end InferenceState

/-- A move of a call, or the transaction of a `create_job`. -/
inductive InferenceAction (n : Nat) where
  | call (i : Fin n) (move : InferenceMove)
  | createJob (allocation : JobAllocation)
  deriving DecidableEq

namespace InferenceState

variable {n : Nat}

/-- A refused job leaves the state as it is. -/
def step? (settings : InferenceSettings) (s : InferenceState n) :
    InferenceAction n → Option (InferenceState n)
  | .call i move => s.move? settings i move
  | .createJob allocation =>
    match s.store.createJob allocation with
    | .error _ => some s
    | .ok store => some { s with store }

def run? (settings : InferenceSettings) (s : InferenceState n) :
    List (InferenceAction n) → Option (InferenceState n)
  | [] => some s
  | a :: trace => (s.step? settings a).bind (run? settings · trace)

/-- The usage of the run that has been recorded, in memory or in the store. -/
def recordedTokens (settings : InferenceSettings) (s : InferenceState n) : Nat :=
  max s.budget.totalTokens (s.store.used settings.runId)

/-- The reservations of the calls that have not recorded their usage. -/
def unrecordedTokens (s : InferenceState n) : Nat :=
  ∑ i, (s.stage i).unrecorded

end InferenceState

end MultiClaw
