import MultiClaw.Base.Dicts
import MultiClaw.Runtime.Eviction
import MultiClaw.Runtime.PoolDeadlock

/-! The pool with the leases of its runtimes: how many are resident, which are evicted, and what a
closed pool still does. -/
namespace MultiClaw

open Base RuntimeCounter

variable {n : Nat} {p p' : RuntimePool n} {i j : Fin n} {outcome : Bool} {w : Sweep}
  {t : String} {e r : Nat} {c c' : CallState}

/-! The leased pool -/

/-- The runtimes by number, with the leases that were taken from them, and the calls of `close`
for which the closing of a runtime has raised. -/
structure LeasedPool (n : Nat) where
  state : PoolState n
  idleTtlMs : Int
  residents : Nat → Resident
  raised : Fin n → Bool

/-- The sweep that a call is in. -/
def CallState.sweep? : CallState → Option Sweep
  | .sweep w | .admitted _ _ (.evicting w) => some w
  | _ => none

/-- The runtime that is closed from this step on. -/
def Sweep.closes (w : Sweep) (p : RuntimePool n) (outcome : Bool) : Option Nat :=
  match w.lock with
  | .waiting _ => w.selects p outcome
  | _ => none

/-- The runtime that is asked whether it can be evicted. -/
def Sweep.asks (w : Sweep) (p : RuntimePool n) : Option Nat :=
  if w.kind = .evict then w.closes p true else none

/-- In this step `close` notes that the closing of a runtime has raised. -/
def CallState.notes (outcome : Bool) : CallState → Bool
  | .sweep ⟨.close, _, _, _, .held _⟩ => !outcome
  | _ => false

/-- The step of a call, or something that happens to a runtime which was handed out. -/
inductive PoolEvent (n : Nat) where
  | call (i : Fin n) (outcome : Bool) (nowMs : Int) (db : Db) (context : TenantContext)
  | resident (runtime : Nat) (event : Resident.Event)

namespace LeasedPool

def initial (maxResidentTenants : Nat) (idleTtlMs : Int) (ops : Fin n → PoolOp) : LeasedPool n :=
  ⟨.initial maxResidentTenants ops, idleTtlMs, fun _ => ⟨.empty, { lastUsedAtMs := 0 }, []⟩,
    fun _ => false⟩

variable (s : LeasedPool n)

/-- A runtime answers for itself whether it can be evicted; everything else that a call awaits is
open. -/
def answer (i : Fin n) (outcome : Bool) (nowMs : Int) : Bool :=
  match (s.state.calls i).sweep?.bind (·.asks s.state.pool) with
  | some r => (s.residents r).runtime.canEvict nowMs s.idleTtlMs
  | none => outcome

/-- What a step does to the runtimes: one is created, or one is marked unavailable. -/
def residentsAfter (i : Fin n) (outcome : Bool) (created : Resident) (state : PoolState n) :
    Nat → Resident :=
  if s.state.pool.nextRuntime < state.pool.nextRuntime then
    Function.update s.residents s.state.pool.nextRuntime created
  else match (s.state.calls i).sweep?.bind (·.closes s.state.pool outcome) with
    | some r => Function.update s.residents r ((s.residents r).step .markUnavailable)
    | none => s.residents

def step? : PoolEvent n → Option (LeasedPool n)
  | .call i outcome nowMs db context =>
    let outcome := s.answer i outcome nowMs
    (s.state.step? i outcome).map fun state =>
      { s with
        state
        residents := s.residentsAfter i outcome (.create db context nowMs) state
        raised := if (s.state.calls i).notes outcome then Function.update s.raised i true
          else s.raised }
  | .resident runtime event =>
    some { s with
      residents := Function.update s.residents runtime ((s.residents runtime).step event) }

def run? (s : LeasedPool n) : List (PoolEvent n) → Option (LeasedPool n)
  | [] => some s
  | event :: events => (s.step? event).bind fun s' => s'.run? events

end LeasedPool

/-- With this step `acquire` has the runtime that it returns: it is found, or created, or it is
there after the eviction. Leaving the tenant lock does not suspend the call, since no call is
suspended while it holds the lock table. -/
inductive CallState.Returns (p : RuntimePool n) (i : Fin n) (outcome : Bool) :
    CallState → Nat → Prop
  | found {t : String} {e r : Nat} (hfree : p.isFree (.tenant e) = true)
      (hr : p.runtimes.lookup t = some r) (hopen : p.closed = false) :
      Returns p i outcome (.acquire t (.waiting e)) r
  | created {t : String} {e : Nat} (houtcome : outcome = true) (hopen : p.closed = false) :
      Returns p i outcome (.admitted t e .creating) p.nextRuntime
  | evicted {t : String} {e r : Nat} {w : Sweep} {p' : RuntimePool n}
      (hstep : w.step? p i outcome = some (p', none))
      (hroom : p'.runtimes.length < p'.maxResidentTenants) (hr : p'.runtimes.lookup t = some r) :
      Returns p i outcome (.admitted t e (.evicting w)) r

/-! What a step leaves alone -/

/-- A step that creates no runtime. -/
structure RuntimePool.Keeps (p p' : RuntimePool n) : Prop where
  limit : p'.maxResidentTenants = p.maxResidentTenants
  closed : p'.closed = p.closed
  next : p'.nextRuntime = p.nextRuntime
  runtimes : p'.runtimes.Sublist p.runtimes

theorem RuntimePool.Keeps.of_same (hlimit : p'.maxResidentTenants = p.maxResidentTenants)
    (hclosed : p'.closed = p.closed) (hnext : p'.nextRuntime = p.nextRuntime)
    (hruntimes : p'.runtimes = p.runtimes) : p.Keeps p' :=
  ⟨hlimit, hclosed, hnext, hruntimes ▸ .refl _⟩

theorem Sweep.step?_keeps {w' : Option Sweep} (h : w.step? p i outcome = some (p', w')) :
    p.Keeps p' := by
  obtain ⟨kind, tenantId, runtime, rest, lock⟩ := w
  cases lock with
  | enter | leave =>
    simp only [Sweep.step?] at h
    split_ifs at h
    cases h
    exact .of_same rfl rfl rfl rfl
  | entering | leaving =>
    cases h
    exact .of_same rfl rfl rfl rfl
  | waiting e =>
    simp only [Sweep.step?] at h
    split_ifs at h
    split at h <;> cases h <;> exact .of_same rfl rfl rfl rfl
  | held e =>
    cases h
    split
    · exact ⟨rfl, rfl, rfl, List.filter_sublist⟩
    · exact .of_same rfl rfl rfl rfl

theorem CallState.swept_keeps (kind : SweepKind) : p.Keeps (CallState.swept p kind) := by
  cases kind <;> exact .of_same rfl rfl rfl rfl

/-- What a step can do to the limit, the flag and the numbers of the pool. -/
inductive CallState.Effect (p p' : RuntimePool n) (c c' : CallState) : Prop
  | keeps (h : p.Keeps p')
  | closes (hc : c = .closing) (hc' : c' = .snapshot)
      (hlimit : p'.maxResidentTenants = p.maxResidentTenants) (hclosed : p'.closed = true)
      (hnext : p'.nextRuntime = p.nextRuntime) (hruntimes : p'.runtimes = p.runtimes)
  | creates (t : String) (e : Nat) (hc : c = .admitted t e .creating)
      (hlimit : p'.maxResidentTenants = p.maxResidentTenants) (hclosed : p'.closed = p.closed)
      (hnext : p'.nextRuntime = p.nextRuntime + 1)
      (hruntimes : (p.closed = true ∧ p'.runtimes = p.runtimes) ∨
        (p.closed = false ∧ p'.runtimes = p.runtimes ++ [(t, p.nextRuntime)]))

theorem CallState.step?_effect (h : CallState.step? p i outcome c = some (p', c')) :
    CallState.Effect p p' c c' := by
  cases c with
  | idle op => cases op <;> cases h <;> exact .keeps (.of_same rfl rfl rfl rfl)
  | acquire t lock =>
    refine .keeps ?_
    cases lock <;> simp only [CallState.step?, CallState.acquireStep?] at h
    case enter | leave =>
      split_ifs at h
      cases h
      exact .of_same rfl rfl rfl rfl
    case entering | leaving =>
      cases h
      exact .of_same rfl rfl rfl rfl
    case held => cases h
    case waiting =>
      split_ifs at h
      split at h <;> cases h <;> exact .of_same rfl rfl rfl rfl
  | admitted t e stage =>
    cases stage with
    | capacity =>
      refine .keeps ?_
      simp only [CallState.step?, CallState.admittedStep?] at h
      split_ifs at h
      · cases h
        exact .of_same rfl rfl rfl rfl
      · cases h
        exact .of_same rfl rfl rfl rfl
      · split at h <;> cases h <;> exact .of_same rfl rfl rfl rfl
    | evicting w =>
      refine .keeps ?_
      simp only [CallState.step?, CallState.admittedStep?] at h
      split at h
      · cases h
      · rename_i hstep
        cases h
        exact Sweep.step?_keeps hstep
      · rename_i hstep
        have hkeeps := Sweep.step?_keeps hstep
        split_ifs at h <;> cases h <;>
          exact ⟨hkeeps.limit, hkeeps.closed, hkeeps.next, hkeeps.runtimes⟩
    | creating =>
      simp only [CallState.step?, CallState.admittedStep?] at h
      split_ifs at h with hfailed hclosed
      · cases h
        exact .keeps (.of_same rfl rfl rfl rfl)
      · cases h
        exact .creates t e rfl rfl rfl rfl (.inl ⟨hclosed, rfl⟩)
      · cases h
        exact .creates t e rfl rfl rfl rfl (.inr ⟨by simpa using hclosed, rfl⟩)
    | discarding =>
      cases h
      exact .keeps (.of_same rfl rfl rfl rfl)
  | closing =>
    simp only [CallState.step?] at h
    split_ifs at h
    · cases h
      exact .keeps (.of_same rfl rfl rfl rfl)
    · cases h
      exact .closes rfl rfl rfl rfl rfl rfl
  | snapshot =>
    refine .keeps ?_
    simp only [CallState.step?] at h
    split_ifs at h
    split at h <;> cases h <;> exact .of_same rfl rfl rfl rfl
  | sweep w =>
    refine .keeps ?_
    simp only [CallState.step?] at h
    split at h
    · cases h
    · rename_i hstep
      cases h
      exact Sweep.step?_keeps hstep
    · rename_i hstep
      cases h
      obtain ⟨hlimit, hclosed, hnext, hruntimes⟩ := Sweep.step?_keeps hstep
      obtain ⟨hlimit', hclosed', hnext', hruntimes'⟩ := CallState.swept_keeps w.kind
      exact ⟨hlimit'.trans hlimit, hclosed'.trans hclosed, hnext'.trans hnext,
        hruntimes'.trans hruntimes⟩
  | finished => cases h

/-! How many runtimes are resident -/

/-- A runtime is created only while there is room. -/
theorem CallState.of_step?_creating
    (h : CallState.step? p i outcome c = some (p', .admitted t e .creating)) :
    p'.runtimes.length < p'.maxResidentTenants := by
  obtain ⟨stage, rfl⟩ | ⟨⟨⟩, -⟩ := of_step?_admitted h
  cases stage <;> simp only [CallState.step?, CallState.admittedStep?] at h
  case capacity =>
    split_ifs at h with _ _ hroom
    · cases h
    · cases h
      exact hroom
    · split at h <;> cases h
  case evicting w =>
    split at h
    · cases h
    · cases h
    · split_ifs at h with hroom <;> cases h
      exact hroom.1
  case creating => split_ifs at h <;> cases h
  case discarding => cases h

/-- Residents within the limit, one for each tenant, and room for the one that is being created. -/
structure PoolState.Bounded (maxResidentTenants : Nat) (s : PoolState n) : Prop where
  agrees : s.Agrees
  nodup : s.pool.residents.Nodup
  absent : ∀ i t e stage, s.calls i = .admitted t e stage → t ∉ s.pool.residents
  limit : s.pool.maxResidentTenants = maxResidentTenants
  within : s.pool.runtimes.length ≤ maxResidentTenants
  room : ∀ i t e, s.calls i = .admitted t e .creating →
    s.pool.runtimes.length < maxResidentTenants
  numbered : ∀ x ∈ s.pool.runtimes, x.2 < s.pool.nextRuntime

section Bounded

variable {limit : Nat} {s s' : PoolState n}

theorem PoolState.bounded_initial (ops : Fin n → PoolOp) :
    (PoolState.initial limit ops).Bounded limit where
  agrees := agrees_initial limit ops
  nodup := List.nodup_nil
  absent _ _ _ _ h := by cases h
  limit := rfl
  within := Nat.zero_le _
  room _ _ _ h := by cases h
  numbered _ h := by cases h

/-- Two calls that create a runtime are one call. -/
theorem PoolState.Agrees.creating_eq (h : s.Agrees) {t' : String} {e' : Nat}
    (hi : s.calls i = .admitted t e .creating) (hj : s.calls j = .admitted t' e' .creating) :
    i = j :=
  h.owned.eq_of_mem (l := .capacity) (by simp [hi, CallState.locks]) (by simp [hj, CallState.locks])

theorem PoolState.Bounded.step (h : s.Bounded limit) (hstep : s.step? i outcome = some s') :
    s'.Bounded limit := by
  have hagrees := h.agrees.step hstep
  obtain ⟨hnodup, habsent⟩ := residents_step h.agrees h.nodup h.absent hstep
  obtain ⟨⟨p', c'⟩, hcall, rfl⟩ := Option.map_eq_some_iff.mp hstep
  have hcreating : ∀ t e, c' = .admitted t e .creating →
      p'.runtimes.length < p'.maxResidentTenants := by
    rintro t e rfl
    exact CallState.of_step?_creating hcall
  obtain ⟨hlimit, hlength, hother, hnumbered⟩ : p'.maxResidentTenants = limit ∧
      p'.runtimes.length ≤ limit ∧
      (∀ j t e, j ≠ i → s.calls j = .admitted t e .creating → p'.runtimes.length < limit) ∧
      ∀ x ∈ p'.runtimes, x.2 < p'.nextRuntime := by
    cases CallState.step?_effect hcall with
    | keeps hkeeps =>
      refine ⟨hkeeps.limit.trans h.limit, hkeeps.runtimes.length_le.trans h.within, ?_, ?_⟩
      · exact fun j t e _ hj => hkeeps.runtimes.length_le.trans_lt (h.room j t e hj)
      · rw [hkeeps.next]
        exact fun x hx => h.numbered x (hkeeps.runtimes.subset hx)
    | closes hc hc' hlimit hclosed hnext hruntimes =>
      rw [hruntimes, hnext]
      exact ⟨hlimit.trans h.limit, h.within, fun j t e _ hj => h.room j t e hj, h.numbered⟩
    | creates t e hc hlimit hclosed hnext hruntimes =>
      have hroom := h.room i t e hc
      refine ⟨hlimit.trans h.limit, ?_, ?_, ?_⟩
      · obtain ⟨-, hruntimes⟩ | ⟨-, hruntimes⟩ := hruntimes
        · exact hruntimes ▸ h.within
        · rw [hruntimes, List.length_append]
          exact hroom
      · exact fun j t' e' hji hj => absurd (h.agrees.creating_eq hj hc) hji
      · intro x hx
        have hold := h.numbered x
        obtain ⟨-, hruntimes⟩ | ⟨-, hruntimes⟩ := hruntimes
        · rw [hruntimes] at hx
          have := hold hx
          omega
        · rw [hruntimes, List.mem_append, List.mem_singleton] at hx
          obtain hx | rfl := hx
          · have := hold hx
            omega
          · rw [hnext]
            exact Nat.lt_succ_self _
  refine ⟨hagrees, hnodup, habsent, hlimit, hlength, fun j t e hj => ?_, hnumbered⟩
  by_cases hji : j = i
  · subst hji
    simp only [Function.update_self] at hj
    exact hlimit ▸ hcreating t e hj
  · exact hother j t e hji (by simpa [Function.update_of_ne hji] using hj)

end Bounded

/-! Evictions -/

/-- The runtime takes no new leases, and none of its open leases executes. -/
structure Resident.Unleased (x : Resident) : Prop where
  unavailable : x.runtime.available = false
  leases : ∀ l ∈ x.leases, l.closed = true ∨ l.executing = false

theorem LeaseCall.available_method (call : LeaseCall) (l : RuntimeExecutionLease)
    (x : TenantRuntime) : (call.method l x).2.available = x.available := by
  cases call <;> simp only [method, RuntimeExecutionLease.markToolExecutionStarted,
    RuntimeExecutionLease.markToolExecutionFinished, RuntimeExecutionLease.markAwaitingUser,
    RuntimeExecutionLease.close] <;> split <;> rfl

/-- A lease that does not execute never does so again. -/
theorem LeaseCall.executing_method (call : LeaseCall) {l : RuntimeExecutionLease}
    (x : TenantRuntime) (h : l.closed = true ∨ l.executing = false) :
    (call.method l x).1.closed = true ∨ (call.method l x).1.executing = false := by
  cases call <;> simp only [method, RuntimeExecutionLease.markToolExecutionStarted,
    RuntimeExecutionLease.markToolExecutionFinished, RuntimeExecutionLease.markAwaitingUser,
    RuntimeExecutionLease.close] <;> split <;> simp [h]

theorem Resident.Unleased.step {x : Resident} (h : x.Unleased) (event : Resident.Event) :
    (x.step event).Unleased := by
  cases event with
  | beginRun nowMs =>
    have hnone : x.runtime.beginRun nowMs = none := by
      simp [TenantRuntime.beginRun, TenantRuntime.isAvailable, h.unavailable]
    simpa only [Resident.step, hnone] using h
  | lease index call =>
    simp only [Resident.step]
    split
    · exact h
    · rename_i lease hlease
      refine ⟨(call.available_method lease x.runtime).trans h.unavailable, fun l hl => ?_⟩
      obtain hl | rfl := List.mem_or_eq_of_mem_set hl
      · exact h.leases l hl
      · exact call.executing_method x.runtime (h.leases lease (List.mem_of_getElem? hlease))
  | touch nowMs => exact ⟨h.unavailable, h.leases⟩
  | markUnavailable => exact ⟨rfl, h.leases⟩
  | database db => exact ⟨h.unavailable, h.leases⟩

/-- A runtime that can be evicted has no open lease that executes. -/
theorem Resident.Balanced.unleased {x : Resident} {seed : TenantRuntime} {nowMs idleTtlMs : Int}
    (h : x.Balanced seed) (hevict : x.runtime.canEvict nowMs idleTtlMs = true) :
    (x.step .markUnavailable).Unleased := by
  refine ⟨rfl, fun l hl => ?_⟩
  have hnone : x.runtime.activeExecutingRunCount = 0 := by
    unfold TenantRuntime.canEvict at hevict
    split_ifs at hevict with _ hcount
    all_goals omega
  have hweight : weight l .executing ≤ value x.runtime .executing := by
    rw [h]
    exact (weight_le_total hl .executing).trans (Nat.le_add_left _ _)
  simp only [value, hnone, weight, Nat.le_zero] at hweight
  split_ifs at hweight with hclosed hexecuting
  · exact .inl hclosed
  · exact .inr (by simpa using hexecuting)

/-- The closing of a runtime starts under the lock of its tenant. -/
theorem Sweep.of_step?_held {w' : Sweep} (h : w.step? p i outcome = some (p', some w'))
    (hheld : w'.lock = .held e) :
    ∃ r, w.closes p outcome = some r ∧ w'.runtime = some r ∧ w'.kind = w.kind := by
  obtain ⟨kind, tenantId, runtime, rest, lock⟩ := w
  cases lock <;> simp only [Sweep.step?] at h
  case enter | leave =>
    split_ifs at h
    cases h
    cases hheld
  case entering | held =>
    cases h
    cases hheld
  case waiting e' =>
    split_ifs at h
    split at h
    · rename_i r hr
      cases h
      exact ⟨r, hr, rfl, rfl⟩
    · cases h
      cases hheld
  case leaving =>
    obtain ⟨-, hnext⟩ := Prod.mk.inj (Option.some.inj h)
    obtain ⟨_, _, _, -, rfl⟩ := Sweep.of_start? hnext
    cases hheld

theorem CallState.of_step?_held {w' : Sweep} (h : CallState.step? p i outcome c = some (p', c'))
    (hw' : c'.sweep? = some w') (hheld : w'.lock = .held e) :
    p'.nextRuntime = p.nextRuntime ∧ ∃ w r, c.sweep? = some w ∧ w.closes p outcome = some r ∧
      w'.runtime = some r ∧ w'.kind = w.kind := by
  have hstart : ∀ kind w, Sweep.start? kind p.runtimes = some w → w.lock = .enter := by
    intro kind w hw
    obtain ⟨_, _, _, -, rfl⟩ := Sweep.of_start? hw
    rfl
  cases c with
  | idle op =>
    cases op <;> simp only [CallState.step?] at h
    case acquire => split at h <;> cases h <;> cases hw'
    case revoke =>
      cases h
      cases hw'
      cases hheld
    case evictIdle =>
      cases hw : Sweep.start? .evict p.runtimes with
      | none =>
        rw [hw] at h
        cases h
        cases hw'
      | some w =>
        rw [hw] at h
        cases h
        cases hw'
        rw [hstart _ _ hw] at hheld
        cases hheld
    case close =>
      cases h
      cases hw'
  | acquire t lock =>
    cases lock <;> simp only [CallState.step?, CallState.acquireStep?] at h
    case enter | leave =>
      split_ifs at h
      cases h
      cases hw'
    case entering | leaving =>
      cases h
      cases hw'
    case held => cases h
    case waiting =>
      split_ifs at h
      split at h <;> cases h <;> cases hw'
  | admitted t e stage =>
    cases stage <;> simp only [CallState.step?, CallState.admittedStep?] at h
    case capacity =>
      split_ifs at h
      · cases h
        cases hw'
      · cases h
        cases hw'
      · split at h
        · rename_i w hw
          cases h
          cases hw'
          rw [hstart _ _ hw] at hheld
          cases hheld
        · cases h
          cases hw'
    case evicting w =>
      split at h
      · cases h
      · rename_i hstep
        cases h
        cases hw'
        obtain ⟨r, hr⟩ := Sweep.of_step?_held hstep hheld
        exact ⟨(Sweep.step?_keeps hstep).next, w, r, rfl, hr⟩
      · split_ifs at h <;> cases h <;> cases hw'
    case creating => split_ifs at h <;> cases h <;> cases hw'
    case discarding =>
      cases h
      cases hw'
  | closing =>
    simp only [CallState.step?] at h
    split_ifs at h <;> cases h <;> cases hw'
  | snapshot =>
    simp only [CallState.step?] at h
    split_ifs at h
    split at h
    · rename_i w hw
      cases h
      cases hw'
      rw [hstart _ _ hw] at hheld
      cases hheld
    · cases h
      cases hw'
  | sweep w =>
    simp only [CallState.step?] at h
    split at h
    · cases h
    · rename_i hstep
      cases h
      cases hw'
      obtain ⟨r, hr⟩ := Sweep.of_step?_held hstep hheld
      exact ⟨(Sweep.step?_keeps hstep).next, w, r, rfl, hr⟩
    · cases h
      cases hw'
  | finished => cases h

/-- What is closed is resident, and an eviction closes what could be evicted. -/
theorem Sweep.of_closes (h : w.closes p outcome = some r) :
    (w.tenantId, r) ∈ p.runtimes ∧ (w.kind = .evict → w.asks p = some r ∧ outcome = true) := by
  obtain ⟨kind, tenantId, runtime, rest, lock⟩ := w
  cases lock <;> simp only [Sweep.closes, reduceCtorEq] at h
  simp only [Sweep.selects] at h
  split at h
  · cases h
  · rename_i hr
    cases h
    exact ⟨mem_of_lookup hr, fun h => nomatch h⟩
  · rename_i r' hr
    split_ifs at h with hsame
    cases h
    refine ⟨mem_of_lookup hr, fun _ => ⟨?_, hsame.2⟩⟩
    simp [Sweep.asks, Sweep.closes, Sweep.selects, hr, hsame.1]
  · rename_i r' hr
    split_ifs at h
    cases h
    exact ⟨mem_of_lookup hr, fun h => nomatch h⟩

/-! The end of the pool -/

/-- The residents that a sweep of `close` has not dealt with yet. -/
def Sweep.left (w : Sweep) : List (String × Option Nat) :=
  match w.lock with
  | .enter | .entering | .waiting _ | .held _ =>
    (w.tenantId, w.runtime) :: w.rest.map fun x => (x.1, some x.2)
  | .leave _ | .leaving _ => w.rest.map fun x => (x.1, some x.2)

/-- What a call of `close` has achieved, unless the closing of a runtime has raised. -/
def CallState.Drains (p : RuntimePool n) (raised : Bool) : CallState → Prop
  | .idle .close | .closing => True
  | .snapshot => p.closed = true
  | .sweep w => w.kind = .close ∧ p.closed = true ∧
      (raised = false → ∀ x ∈ p.runtimes, (x.1, some x.2) ∈ w.left)
  | .finished => p.closed = true ∧ (raised = false → p.runtimes = [])
  | _ => False

/-- A closed pool stays closed, and no runtime is added to it. -/
theorem CallState.Effect.closed (h : CallState.Effect p p' c c') (hclosed : p.closed = true) :
    p'.closed = true ∧ ∀ x ∈ p'.runtimes, x ∈ p.runtimes := by
  cases h with
  | keeps hkeeps => exact ⟨hkeeps.closed.trans hclosed, fun x hx => hkeeps.runtimes.subset hx⟩
  | closes hc hc' hlimit hclosed' hnext hruntimes => exact ⟨hclosed', by simp [hruntimes]⟩
  | creates t e hc hlimit hclosed' hnext hruntimes =>
    refine ⟨hclosed'.trans hclosed, ?_⟩
    obtain ⟨-, hruntimes⟩ | ⟨hopen, -⟩ := hruntimes
    · simp [hruntimes]
    · simp [hopen] at hclosed

/-- What the other calls do does not set a closing back. -/
theorem CallState.Drains.of_effect {raised : Bool} {d d' : CallState} (h : c.Drains p raised)
    (heffect : CallState.Effect p p' d d') : c.Drains p' raised := by
  cases c with
  | idle op =>
    cases op with
    | close => trivial
    | acquire | revoke | evictIdle => exact h.elim
  | acquire | admitted => exact h.elim
  | closing => trivial
  | snapshot => exact (heffect.closed h).1
  | sweep w =>
    obtain ⟨hkind, hclosed, hleft⟩ := h
    obtain ⟨hclosed', hruntimes⟩ := heffect.closed hclosed
    exact ⟨hkind, hclosed', fun hraised x hx => hleft hraised x (hruntimes x hx)⟩
  | finished =>
    obtain ⟨hclosed, hempty⟩ := h
    obtain ⟨hclosed', hruntimes⟩ := heffect.closed hclosed
    refine ⟨hclosed', fun hraised => List.eq_nil_iff_forall_not_mem.mpr fun x hx => ?_⟩
    simpa [hempty hraised] using hruntimes x hx

/-- The runtimes that are left after a step of the sweep, if its closing returned. -/
theorem Sweep.step?_left {w' : Option Sweep} (h : w.step? p i outcome = some (p', w'))
    (hnodup : p.residents.Nodup) (hkind : w.kind = .close)
    (hreturned : (CallState.sweep w).notes outcome = false)
    (hleft : ∀ x ∈ p.runtimes, (x.1, some x.2) ∈ w.left) :
    ∀ x ∈ p'.runtimes, (x.1, some x.2) ∈ (w'.map Sweep.left).getD [] := by
  obtain ⟨kind, tenantId, runtime, rest, lock⟩ := w
  subst hkind
  -- a resident runtime is the one that the dictionary has for its tenant
  have hlookup : ∀ x ∈ p.runtimes, p.runtimes.lookup x.1 = some x.2 := fun x hx =>
    lookup_of_mem hnodup hx
  cases lock <;> simp only [Sweep.step?] at h
  case enter | leave =>
    split_ifs at h
    cases h
    exact hleft
  case entering =>
    cases h
    exact hleft
  case waiting e =>
    split_ifs at h
    split at h
    · rename_i r hr
      cases h
      have hsame : runtime = some r := by
        simp only [Sweep.selects] at hr
        split at hr
        · cases hr
        · simp_all
        · simp_all
        · split_ifs at hr with hruntime
          cases hr
          exact hruntime
      subst hsame
      exact hleft
    · rename_i hnone
      cases h
      intro x hx
      have hmem := hleft x hx
      simp only [Sweep.left, List.mem_cons] at hmem
      obtain heq | hmem := hmem
      · obtain ⟨htenant, hruntime⟩ := Prod.mk.inj heq
        subst htenant
        subst hruntime
        simp [Sweep.selects, hlookup x hx] at hnone
      · exact hmem
  case held e =>
    have houtcome : outcome = true := by simpa [CallState.notes] using hreturned
    subst houtcome
    cases h
    intro x hx
    have hrest : ∀ x ∈ p.runtimes, (x.1, some x.2) ≠ (tenantId, runtime) →
        (x.1, some x.2) ∈ rest.map fun x => (x.1, some x.2) := by
      intro x hx hne
      have hmem := hleft x hx
      simp only [Sweep.left, List.mem_cons] at hmem
      exact hmem.resolve_left hne
    simp only [Option.map_some, Option.getD_some, Sweep.left]
    split at hx
    · obtain ⟨hx, htenant⟩ := List.mem_filter.mp hx
      refine hrest x hx fun heq => ?_
      simp [(Prod.mk.inj heq).1] at htenant
    · rename_i hkept
      refine hrest x hx fun heq => hkept ?_
      obtain ⟨htenant, hruntime⟩ := Prod.mk.inj heq
      simp [Sweep.removes, ← htenant, ← hruntime, hlookup x hx]
  case leaving e =>
    cases h
    intro x hx
    have hmem : (x.1, some x.2) ∈ rest.map fun x => (x.1, some x.2) := hleft x hx
    simp only [Sweep.next?]
    cases rest with
    | nil => exact hmem
    | cons item rest => exact hmem

theorem CallState.Drains.step {raised : Bool} (h : c.Drains p raised)
    (hnodup : p.residents.Nodup) (hstep : CallState.step? p i outcome c = some (p', c')) :
    c'.Drains p' (raised || c.notes outcome) := by
  have heffect := CallState.step?_effect hstep
  cases c with
  | idle op =>
    cases op with
    | close =>
      cases hstep
      trivial
    | acquire | revoke | evictIdle => exact h.elim
  | acquire | admitted => exact h.elim
  | closing =>
    simp only [CallState.step?] at hstep
    split_ifs at hstep with hfree hdone
    · cases hstep
      exact ⟨hdone.1, fun _ => hdone.2⟩
    · cases hstep
      exact rfl
  | snapshot =>
    simp only [CallState.step?] at hstep
    split_ifs at hstep
    split at hstep
    · rename_i w hw
      cases hstep
      obtain ⟨t, r, rest, hruntimes, rfl⟩ := Sweep.of_start? hw
      refine ⟨rfl, h, fun _ x hx => ?_⟩
      rw [hruntimes] at hx
      simpa [Sweep.left, Prod.ext_iff] using hx
    · rename_i hnone
      cases hstep
      refine ⟨h, fun _ => ?_⟩
      change p.runtimes = []
      cases hruntimes : p.runtimes with
      | nil => rfl
      | cons x rest => simp [hruntimes, Sweep.start?] at hnone
  | sweep w =>
    obtain ⟨hkind, hclosed, hleft⟩ := h
    simp only [CallState.step?] at hstep
    split at hstep
    · cases hstep
    · rename_i p₁ w' hsweep
      cases hstep
      refine ⟨(Sweep.kind_of_step? hsweep).trans hkind, (heffect.closed hclosed).1,
        fun hraised => ?_⟩
      obtain ⟨hraised, hnotes⟩ := Bool.or_eq_false_iff.mp hraised
      exact Sweep.step?_left hsweep hnodup hkind hnotes (hleft hraised)
    · rename_i p₁ hsweep
      cases hstep
      refine ⟨(heffect.closed hclosed).1, fun hraised => ?_⟩
      obtain ⟨hraised, hnotes⟩ := Bool.or_eq_false_iff.mp hraised
      have hnone := Sweep.step?_left hsweep hnodup hkind hnotes (hleft hraised)
      rw [CallState.swept_runtimes]
      exact List.eq_nil_iff_forall_not_mem.mpr fun x hx => by simpa using hnone x hx
  | finished => cases hstep

/-! Runs -/

/-- No runtime that an eviction is closing has an open lease that executes. -/
def LeasedPool.EvictsUnleased (s : LeasedPool n) : Prop :=
  ∀ i w e, (s.state.calls i).sweep? = some w → w.lock = .held e → ∃ r, w.runtime = some r ∧
    r < s.state.pool.nextRuntime ∧ (w.kind = .evict → (s.residents r).Unleased)

structure LeasedPool.Inv (limit : Nat) (ops : Fin n → PoolOp) (s : LeasedPool n) : Prop where
  bounded : s.state.Bounded limit
  balanced : ∀ r, ∃ seed, (s.residents r).Balanced seed
  evicts : s.EvictsUnleased
  drains : ∀ i, ops i = .close → (s.state.calls i).Drains s.state.pool (s.raised i)

namespace LeasedPool

variable {limit : Nat} {idleTtlMs : Int} {ops : Fin n → PoolOp} {s s' : LeasedPool n}

theorem inv_initial : (initial limit idleTtlMs ops).Inv limit ops where
  bounded := PoolState.bounded_initial ops
  balanced r := ⟨{ lastUsedAtMs := 0 }, fun k => by simp [initial, total]⟩
  evicts i w e h := by cases h
  drains i h := by
    change (CallState.idle (ops i)).Drains _ _
    rw [h]
    trivial

/-- What happens to a runtime that was handed out. -/
theorem Inv.resident (h : s.Inv limit ops) (runtime : Nat) (event : Resident.Event) :
    ({ s with
      residents := Function.update s.residents runtime ((s.residents runtime).step event) } :
      LeasedPool n).Inv limit ops where
  bounded := h.bounded
  drains := h.drains
  balanced r := by
    by_cases hr : r = runtime
    · subst hr
      obtain ⟨seed, hseed⟩ := h.balanced r
      exact ⟨seed, by simpa using hseed.step event⟩
    · simpa [Function.update_of_ne hr] using h.balanced r
  evicts i w e hw he := by
    obtain ⟨r, hruntime, hlt, hunleased⟩ := h.evicts i w e hw he
    refine ⟨r, hruntime, hlt, fun hkind => ?_⟩
    by_cases hr : r = runtime
    · subst hr
      simpa using (hunleased hkind).step event
    · simpa [Function.update_of_ne hr] using hunleased hkind

/-- A runtime keeps what it has, or is marked unavailable, or is the one that was created. -/
theorem residentsAfter_cases (i : Fin n) (outcome : Bool) (created : Resident)
    (state : PoolState n) (r : Nat) :
    s.residentsAfter i outcome created state r = s.residents r ∨
      s.residentsAfter i outcome created state r = (s.residents r).step .markUnavailable ∨
      (r = s.state.pool.nextRuntime ∧ s.residentsAfter i outcome created state r = created) := by
  unfold residentsAfter
  split
  · by_cases hr : r = s.state.pool.nextRuntime
    · subst hr
      exact .inr (.inr ⟨rfl, Function.update_self _ _ _⟩)
    · exact .inl (Function.update_of_ne hr _ _)
  · cases (s.state.calls i).sweep?.bind (·.closes s.state.pool outcome) with
    | none => exact .inl rfl
    | some r' =>
      by_cases hr : r = r'
      · subst hr
        exact .inr (.inl (Function.update_self _ _ _))
      · exact .inl (Function.update_of_ne hr _ _)

theorem Inv.call {nowMs : Int} {db : Db} {context : TenantContext} (h : s.Inv limit ops)
    (hstep : s.step? (.call i outcome nowMs db context) = some s') : s'.Inv limit ops := by
  obtain ⟨state, hstate, rfl⟩ := Option.map_eq_some_iff.mp hstep
  have hbounded := h.bounded.step hstate
  obtain ⟨⟨p', c'⟩, hcall, rfl⟩ := Option.map_eq_some_iff.mp hstate
  have heffect := CallState.step?_effect hcall
  have hnext : s.state.pool.nextRuntime ≤ p'.nextRuntime := by
    cases heffect with
    | keeps hkeeps => exact hkeeps.next.ge
    | closes _ _ _ _ hnext => exact hnext.ge
    | creates _ _ _ _ _ hnext => omega
  refine ⟨hbounded, fun r => ?_, fun j w e hw he => ?_, fun j hj => ?_⟩
  · -- the counters of a runtime start with its creation
    dsimp only
    obtain ⟨seed, hseed⟩ := h.balanced r
    obtain heq | heq | ⟨-, heq⟩ := s.residentsAfter_cases i (s.answer i outcome nowMs)
      (.create db context nowMs) ⟨p', Function.update s.state.calls i c'⟩ r
    · exact ⟨seed, heq.symm ▸ hseed⟩
    · exact ⟨seed, heq.symm ▸ hseed.step .markUnavailable⟩
    · exact ⟨_, heq.symm ▸ Resident.balanced_create db context nowMs⟩
  · by_cases hji : j = i
    · subst hji
      simp only [Function.update_self] at hw
      obtain ⟨hsame, w₀, r, hw₀, hcloses, hruntime, hkind⟩ := CallState.of_step?_held hcall hw he
      obtain ⟨hmem, hasks⟩ := Sweep.of_closes hcloses
      refine ⟨r, hruntime, (h.bounded.numbered _ hmem).trans_le hnext, fun hevict => ?_⟩
      obtain ⟨hasks, hanswer⟩ := hasks (hkind ▸ hevict)
      obtain ⟨seed, hseed⟩ := h.balanced r
      have hcan : (s.residents r).runtime.canEvict nowMs s.idleTtlMs = true := by
        simpa [answer, hw₀, hasks] using hanswer
      have hafter : s.residentsAfter j (s.answer j outcome nowMs) (.create db context nowMs)
          ⟨p', Function.update s.state.calls j c'⟩ r = (s.residents r).step .markUnavailable := by
        unfold residentsAfter
        rw [if_neg (by simp [hsame]), hw₀, Option.bind_some, hcloses]
        exact Function.update_self _ _ _
      dsimp only
      rw [hafter]
      exact hseed.unleased hcan
    · simp only [Function.update_of_ne hji] at hw
      obtain ⟨r, hruntime, hlt, hunleased⟩ := h.evicts j w e hw he
      refine ⟨r, hruntime, hlt.trans_le hnext, fun hevict => ?_⟩
      dsimp only
      obtain heq | heq | ⟨hnew, -⟩ := s.residentsAfter_cases i (s.answer i outcome nowMs)
        (.create db context nowMs) ⟨p', Function.update s.state.calls i c'⟩ r
      · exact heq.symm ▸ hunleased hevict
      · exact heq.symm ▸ (hunleased hevict).step .markUnavailable
      · exact absurd hnew hlt.ne
  · have hdrains := h.drains j hj
    by_cases hji : j = i
    · subst hji
      have := hdrains.step h.bounded.nodup hcall
      simp only [Function.update_self]
      split
      · rename_i hnotes
        simpa [hnotes] using this
      · rename_i hnotes
        simpa [hnotes] using this
    · have hraised : (if (s.state.calls i).notes (s.answer i outcome nowMs) then
          Function.update s.raised i true else s.raised) j = s.raised j := by
        split <;> simp [Function.update_of_ne hji]
      dsimp only
      rw [hraised, Function.update_of_ne hji]
      exact hdrains.of_effect heffect

theorem Inv.step {event : PoolEvent n} (h : s.Inv limit ops) (hstep : s.step? event = some s') :
    s'.Inv limit ops := by
  cases event with
  | call i outcome nowMs db context => exact h.call hstep
  | resident runtime event =>
    cases hstep
    exact h.resident runtime event

theorem Inv.run {events : List (PoolEvent n)} (h : s.Inv limit ops)
    (hrun : s.run? events = some s') : s'.Inv limit ops := by
  induction events generalizing s with
  | nil =>
    cases hrun
    exact h
  | cons event events ih =>
    obtain ⟨s₁, hstep, hrest⟩ := Option.bind_eq_some_iff.mp hrun
    exact ih (h.step hstep) hrest

end LeasedPool

/-- In every state that the calls of a pool and its leases reach: the residents are within the
limit and one for each tenant; what an eviction is closing has no open lease that executes; no call
is given a runtime once the pool is closed; and after a `close` that did not raise nothing is
resident. -/
theorem pool_within_capacity (limit : Nat) (idleTtlMs : Int) (ops : Fin n → PoolOp)
    {events : List (PoolEvent n)} {s : LeasedPool n}
    (hrun : (LeasedPool.initial limit idleTtlMs ops).run? events = some s) :
    s.state.pool.runtimes.length ≤ limit ∧ s.state.pool.residents.Nodup ∧
    (∀ i w e r, (s.state.calls i).sweep? = some w → w.kind = .evict → w.lock = .held e →
      w.runtime = some r → ∀ l ∈ (s.residents r).leases, l.closed = true ∨ l.executing = false) ∧
    (∀ i outcome r, (s.state.calls i).Returns s.state.pool i outcome r →
      s.state.pool.closed = false) ∧
    ∀ i, ops i = .close → s.state.calls i = .finished → s.raised i = false →
      s.state.pool.runtimes = [] := by
  have h := LeasedPool.inv_initial.run hrun
  refine ⟨h.bounded.within, h.bounded.nodup, ?_, ?_, ?_⟩
  · intro i w e r hw hkind hlock hruntime
    obtain ⟨r', hruntime', -, hunleased⟩ := h.evicts i w e hw hlock
    obtain rfl : r' = r := Option.some.inj (hruntime'.symm.trans hruntime)
    exact (hunleased hkind).leases
  · intro i outcome r hreturns
    generalize hc : s.state.calls i = c at hreturns
    cases hreturns with
    | found hfree hr hopen => exact hopen
    | created houtcome hopen => exact hopen
    | @evicted t e w p' r hstep hroom hr =>
      -- the tenant of an admitted call has no runtime, before or after the eviction
      have habsent := h.bounded.absent i _ _ _ hc
      have hmem := (Sweep.step?_keeps hstep).runtimes.subset (mem_of_lookup hr)
      exact absurd (List.mem_map_of_mem (f := Prod.fst) hmem) habsent
  · intro i hop hfinished hraised
    have hdrains := h.drains i hop
    rw [hfinished] at hdrains
    exact hdrains.2 hraised

/-- A runtime is created and used, and the pool is closed. -/
theorem pool_within_capacity_closed :
    let ops : Fin 2 → PoolOp := fun i => if i = 0 then .acquire "t" else .close
    let call (i : Fin 2) : PoolEvent 2 :=
      .call i true 0 .empty { tenantId := "t", workspaceId := "w" }
    let events :=
      List.replicate 8 (call 0) ++ .resident 0 (.beginRun 1) :: List.replicate 9 (call 1)
    ∃ s, (LeasedPool.initial 1 5 ops).run? events = some s ∧ s.state.calls 1 = .finished ∧
      s.state.pool.runtimes = [] := by
  intro ops call events
  have hrun : ((LeasedPool.initial 1 5 ops).run? events).map
      (fun s => (s.state.calls 1, s.raised 1)) = some (.finished, false) := by
    decide +kernel
  obtain ⟨s, hs, heq⟩ := Option.map_eq_some_iff.mp hrun
  obtain ⟨hfinished, hraised⟩ := Prod.mk.inj heq
  exact ⟨s, hs, hfinished,
    (pool_within_capacity 1 5 ops hs).2.2.2.2 1 (by decide) hfinished hraised⟩

end MultiClaw
