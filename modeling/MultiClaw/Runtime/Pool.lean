import MultiClaw.Base.Locks

/-! The runtime pool: calls that share tenant locks, a capacity lock and a close lock. -/
namespace MultiClaw

open Base

inductive PoolLock where
  | table
  | capacity
  | close
  | tenant (entry : Nat)
  deriving DecidableEq, Repr

inductive PoolOp where
  | acquire (tenantId : String)
  | revoke (tenantId : String)
  | evictIdle
  | close
  deriving DecidableEq, Repr

/-- How far a call has come with one `_tenant_lock` block: it enters through the lock table, waits
for the lock of an entry, holds it, and leaves through the lock table again. -/
inductive TenantLock where
  | enter
  | entering
  | waiting (entry : Nat)
  | held (entry : Nat)
  | leave (entry : Nat)
  | leaving (entry : Nat)
  deriving DecidableEq, Repr

/-- Why runtimes are closed one after the other: `revoke` closes whatever is resident, the others
only the runtime they saw, and an eviction only if it is idle. -/
inductive SweepKind where
  | revoke
  | evict
  | close
  deriving DecidableEq, Repr

/-- The tenant that is being dealt with, the runtime expected there, and the tenants after it. -/
structure Sweep where
  kind : SweepKind
  tenantId : String
  runtime : Option Nat
  rest : List (String × Nat)
  lock : TenantLock
  deriving DecidableEq, Repr

/-- What an `acquire` does while it holds the lock of its tenant. -/
inductive AcquireStage where
  | capacity
  | evicting (sweep : Sweep)
  | creating
  | discarding
  deriving DecidableEq, Repr

inductive CallState where
  | idle (op : PoolOp)
  | acquire (tenantId : String) (lock : TenantLock)
  | admitted (tenantId : String) (entry : Nat) (stage : AcquireStage)
  | closing
  | snapshot
  | sweep (sweep : Sweep)
  | finished
  deriving DecidableEq, Repr

variable {n : Nat}

/-- Runtimes are numbered in the order of their creation; the dictionary keeps its order. -/
structure RuntimePool (n : Nat) where
  maxResidentTenants : Nat
  runtimes : List (String × Nat)
  closed : Bool
  nextRuntime : Nat
  owner : PoolLock → Option (Fin n)
  tenantLocks : RefTable String

namespace RuntimePool

variable (p : RuntimePool n)

def empty (maxResidentTenants : Nat) : RuntimePool n :=
  { maxResidentTenants, runtimes := [], closed := false, nextRuntime := 0, owner := fun _ => none
    tenantLocks := .empty }

def isFree (l : PoolLock) : Bool := (p.owner l).isNone

def take (l : PoolLock) (i : Fin n) : RuntimePool n :=
  { p with owner := Function.update p.owner l (some i) }

def release (l : PoolLock) : RuntimePool n := { p with owner := Function.update p.owner l none }

def pop (tenantId : String) : RuntimePool n :=
  { p with runtimes := p.runtimes.filter fun r => r.1 ≠ tenantId }

/-- The table part of entering a tenant lock. -/
def retain (tenantId : String) : RuntimePool n :=
  { p with tenantLocks := p.tenantLocks.retain tenantId }.release .table

/-- The table part of leaving a tenant lock. -/
def drop (tenantId : String) (entry : Nat) : RuntimePool n :=
  { p with tenantLocks := p.tenantLocks.drop tenantId entry }.release .table

end RuntimePool

namespace Sweep

variable (w : Sweep) (p : RuntimePool n) (i : Fin n)

def start? (kind : SweepKind) : List (String × Nat) → Option Sweep
  | [] => none
  | (tenantId, runtime) :: rest => some ⟨kind, tenantId, some runtime, rest, .enter⟩

def next? : Option Sweep := start? w.kind w.rest

/-- The runtime that is closed under the tenant lock, if any. -/
def selects (canEvict : Bool) : Option Nat :=
  match w.kind, p.runtimes.lookup w.tenantId with
  | _, none => none
  | .revoke, some r => some r
  | .evict, some r => if w.runtime = some r ∧ canEvict then some r else none
  | .close, some r => if w.runtime = some r then some r else none

/-- The closed runtime leaves the dictionary, unless its `close` raised. -/
def removes (returned : Bool) : Bool :=
  returned && p.runtimes.lookup w.tenantId == w.runtime

/-- One step of a sweep, and what is left of it. `outcome` says whether the runtime may be evicted,
or whether its `close` returned. -/
def step? (outcome : Bool) : Option (RuntimePool n × Option Sweep) :=
  match w.lock with
  | .enter =>
    if p.isFree .table then some (p.take .table i, some { w with lock := .entering }) else none
  | .entering =>
    some (p.retain w.tenantId, some { w with lock := .waiting (p.tenantLocks.entry w.tenantId) })
  | .waiting e =>
    if p.isFree (.tenant e) then
      match w.selects p outcome with
      | some r => some (p.take (.tenant e) i, some { w with runtime := some r, lock := .held e })
      | none => some (p, some { w with lock := .leave e })
    else none
  | .held e =>
    some ((if w.removes p outcome then p.pop w.tenantId else p).release (.tenant e),
      some { w with lock := .leave e })
  | .leave e =>
    if p.isFree .table then some (p.take .table i, some { w with lock := .leaving e }) else none
  | .leaving e => some (p.drop w.tenantId e, w.next?)

end Sweep

namespace CallState

variable (p : RuntimePool n) (i : Fin n)

/-- `acquire` outside its critical section. -/
def acquireStep? (tenantId : String) : TenantLock → Option (RuntimePool n × CallState)
  | .enter =>
    if p.isFree .table then some (p.take .table i, .acquire tenantId .entering) else none
  | .entering =>
    some (p.retain tenantId, .acquire tenantId (.waiting (p.tenantLocks.entry tenantId)))
  | .waiting e =>
    if p.isFree (.tenant e) then
      match p.runtimes.lookup tenantId with
      | some _ => some (p, .acquire tenantId (.leave e))
      | none => some (p.take (.tenant e) i, .admitted tenantId e .capacity)
    else none
  | .held _ => none
  | .leave e =>
    if p.isFree .table then some (p.take .table i, .acquire tenantId (.leaving e)) else none
  | .leaving e => some (p.drop tenantId e, .finished)

/-- Leave the critical section without the capacity lock. -/
def turnAway (p : RuntimePool n) (tenantId : String) (entry : Nat) : RuntimePool n × CallState :=
  (p.release (.tenant entry), .acquire tenantId (.leave entry))

/-- Leave the critical section with the capacity lock. -/
def depart (p : RuntimePool n) (tenantId : String) (entry : Nat) : RuntimePool n × CallState :=
  turnAway (p.release .capacity) tenantId entry

/-- `acquire` in its critical section. `outcome` says whether an awaited call returned, or what a
sweep asks. -/
def admittedStep? (outcome : Bool) (tenantId : String) (e : Nat) :
    AcquireStage → Option (RuntimePool n × CallState)
  | .capacity =>
    if p.isFree .capacity then
      if p.closed then some (turnAway p tenantId e)
      else if p.runtimes.length < p.maxResidentTenants then
        some (p.take .capacity i, .admitted tenantId e .creating)
      else match Sweep.start? .evict p.runtimes with
        | some w => some (p.take .capacity i, .admitted tenantId e (.evicting w))
        | none => some (turnAway p tenantId e)
    else none
  | .evicting w =>
    match w.step? p i outcome with
    | none => none
    | some (p', some w') => some (p', .admitted tenantId e (.evicting w'))
    | some (p', none) =>
      if p'.runtimes.length < p'.maxResidentTenants ∧ p'.runtimes.lookup tenantId = none then
        some (p', .admitted tenantId e .creating)
      else some (depart p' tenantId e)
  | .creating =>
    if !outcome then some (depart p tenantId e)
    else if p.closed then
      some ({ p with nextRuntime := p.nextRuntime + 1 }, .admitted tenantId e .discarding)
    else
      some (depart { p with
        runtimes := p.runtimes ++ [(tenantId, p.nextRuntime)]
        nextRuntime := p.nextRuntime + 1 } tenantId e)
  | .discarding => some (depart p tenantId e)

/-- The end of a sweep: `close` gives its lock back. -/
def swept (p : RuntimePool n) (kind : SweepKind) : RuntimePool n :=
  if kind = .close then p.release .close else p

/-- One step of a call, up to the next point at which another call may run. -/
def step? (outcome : Bool) : CallState → Option (RuntimePool n × CallState)
  | .idle (.acquire tenantId) =>
    some (p, if p.closed then .finished else .acquire tenantId .enter)
  | .idle (.revoke tenantId) => some (p, .sweep ⟨.revoke, tenantId, none, [], .enter⟩)
  | .idle .evictIdle => some (p, (Sweep.start? .evict p.runtimes).elim .finished .sweep)
  | .idle .close => some (p, .closing)
  | .acquire tenantId lock => acquireStep? p i tenantId lock
  | .admitted tenantId e stage => admittedStep? p i outcome tenantId e stage
  | .closing =>
    if p.isFree .close then
      if p.closed ∧ p.runtimes = [] then some (p, .finished)
      else some ({ p with closed := true }.take .close i, .snapshot)
    else none
  | .snapshot =>
    if p.isFree .capacity then
      match Sweep.start? .close p.runtimes with
      | some w => some (p, .sweep w)
      | none => some (swept p .close, .finished)
    else none
  | .sweep w =>
    match w.step? p i outcome with
    | none => none
    | some (p', some w') => some (p', .sweep w')
    | some (p', none) => some (swept p' w.kind, .finished)
  | .finished => none

end CallState

structure PoolState (n : Nat) where
  pool : RuntimePool n
  calls : Fin n → CallState

namespace PoolState

/-- A new pool and the calls that will be made. -/
def initial (maxResidentTenants : Nat) (ops : Fin n → PoolOp) : PoolState n :=
  ⟨.empty maxResidentTenants, fun i => .idle (ops i)⟩

def step? (s : PoolState n) (i : Fin n) (outcome : Bool) : Option (PoolState n) :=
  (CallState.step? s.pool i outcome (s.calls i)).map fun r =>
    ⟨r.1, Function.update s.calls i r.2⟩

/-- Run the calls in the given order. -/
def run? (s : PoolState n) : List (Fin n × Bool) → Option (PoolState n)
  | [] => some s
  | (i, outcome) :: trace => (s.step? i outcome).bind fun s' => s'.run? trace

end PoolState

/-! Waiting and holding -/

namespace TenantLock

def waits : TenantLock → Option PoolLock
  | .enter | .leave _ => some .table
  | .waiting e => some (.tenant e)
  | .entering | .held _ | .leaving _ => none

def locks : TenantLock → List PoolLock
  | .entering | .leaving _ => [.table]
  | .held e => [.tenant e]
  | .enter | .waiting _ | .leave _ => []

def uses (tenantId : String) : TenantLock → List (String × Nat)
  | .waiting e | .held e | .leave e | .leaving e => [(tenantId, e)]
  | .enter | .entering => []

end TenantLock

namespace CallState

/-- The lock that a call needs for its next step. -/
def waits : CallState → Option PoolLock
  | .acquire _ lock => lock.waits
  | .admitted _ _ .capacity | .snapshot => some .capacity
  | .admitted _ _ (.evicting w) | .sweep w => w.lock.waits
  | .closing => some .close
  | .admitted _ _ .creating | .admitted _ _ .discarding | .idle _ | .finished => none

def locks : CallState → List PoolLock
  | .acquire _ lock => lock.locks
  | .admitted _ e .capacity => [.tenant e]
  | .admitted _ e (.evicting w) => .tenant e :: .capacity :: w.lock.locks
  | .admitted _ e .creating | .admitted _ e .discarding => [.tenant e, .capacity]
  | .snapshot => [.close]
  | .sweep w => if w.kind = .close then .close :: w.lock.locks else w.lock.locks
  | .idle _ | .closing | .finished => []

def uses : CallState → List (String × Nat)
  | .acquire tenantId lock => lock.uses tenantId
  | .admitted tenantId e (.evicting w) => (tenantId, e) :: w.lock.uses w.tenantId
  | .admitted tenantId e _ => [(tenantId, e)]
  | .sweep w => w.lock.uses w.tenantId
  | .idle _ | .snapshot | .closing | .finished => []

end CallState

namespace PoolState

/-- One call waits for a lock that another one holds. -/
def WaitsFor (s : PoolState n) (i j : Fin n) : Prop :=
  ∃ l, (s.calls i).waits = some l ∧ s.pool.owner l = some j

/-- Some calls wait for locks that are held among them. -/
def Deadlocked (s : PoolState n) : Prop :=
  ∃ calls : Finset (Fin n), calls.Nonempty ∧ ∀ i ∈ calls, ∃ j ∈ calls, j ≠ i ∧ s.WaitsFor i j

end PoolState

end MultiClaw
