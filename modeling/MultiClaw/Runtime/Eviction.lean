import MultiClaw.Runtime.Models
import MultiClaw.Workflow.Coordinator

/-! When a runtime whose leases are all closed can be evicted. -/
namespace MultiClaw

open Base Transaction

/-- The counters of a runtime. -/
inductive RuntimeCounter where
  | active
  | executing
  | awaitingUser
  | checkpointed
  | tools

namespace RuntimeCounter

def value (t : TenantRuntime) : RuntimeCounter → Nat
  | active => t.activeRunCount
  | executing => t.activeExecutingRunCount
  | awaitingUser => t.awaitingUserRunCount
  | checkpointed => t.checkpointedAwaitingUserRunCount
  | tools => t.activeToolExecutionCount

/-- What one lease adds to a counter. -/
def weight (l : RuntimeExecutionLease) : RuntimeCounter → Nat
  | active => if l.closed then 0 else 1
  | executing => if l.closed then 0 else if l.executing then 1 else 0
  | awaitingUser => if l.closed then 0 else if l.awaitingUser then 1 else 0
  | checkpointed => if l.closed then 0 else if l.checkpointPersisted then 1 else 0
  | tools => if l.closed then 0 else l.activeToolExecutions

def total (leases : List RuntimeExecutionLease) (k : RuntimeCounter) : Nat :=
  (leases.map (k.weight ·)).sum

theorem total_set {leases : List RuntimeExecutionLease} {i : Nat} {l : RuntimeExecutionLease}
    (l' : RuntimeExecutionLease) (hl : leases[i]? = some l) (k : RuntimeCounter) :
    k.total (leases.set i l') + k.weight l = k.total leases + k.weight l' := by
  induction leases generalizing i with
  | nil => simp at hl
  | cons a leases ih =>
    cases i with
    | zero =>
      cases hl
      simp only [total, List.set_cons_zero, List.map_cons, List.sum_cons]
      omega
    | succ i =>
      have := ih hl
      simp only [total, List.set_cons_succ, List.map_cons, List.sum_cons] at this ⊢
      omega

theorem weight_le_total {leases : List RuntimeExecutionLease} {l : RuntimeExecutionLease}
    (hl : l ∈ leases) (k : RuntimeCounter) : k.weight l ≤ k.total leases :=
  List.single_le_sum (fun _ _ => Nat.zero_le _) _ (List.mem_map_of_mem hl)

theorem total_of_closed {leases : List RuntimeExecutionLease} (h : ∀ l ∈ leases, l.closed = true)
    (k : RuntimeCounter) : k.total leases = 0 := by
  refine List.sum_eq_zero fun w hw => ?_
  obtain ⟨l, hl, rfl⟩ := List.mem_map.mp hw
  cases k <;> simp [weight, h l hl]

end RuntimeCounter

open RuntimeCounter

/-- A call of a lease's method. -/
inductive LeaseCall where
  | toolStarted (nowMs : Int)
  | toolFinished (nowMs : Int)
  | awaitingUser (nowMs : Int) (checkpointPersisted : Bool)
  | close (nowMs : Int)

def LeaseCall.method : LeaseCall → RuntimeExecutionLease.Method
  | toolStarted nowMs => RuntimeExecutionLease.markToolExecutionStarted nowMs
  | toolFinished nowMs => RuntimeExecutionLease.markToolExecutionFinished nowMs
  | awaitingUser nowMs persisted => RuntimeExecutionLease.markAwaitingUser nowMs persisted
  | close nowMs => RuntimeExecutionLease.close nowMs

/-- A method moves each counter by what it does to its lease. -/
theorem LeaseCall.balance (call : LeaseCall) {l : RuntimeExecutionLease} {t : TenantRuntime}
    (hle : ∀ k, weight l k ≤ value t k) (k : RuntimeCounter) :
    value (call.method l t).2 k + weight l k = value t k + weight (call.method l t).1 k := by
  have hactive := hle .active
  have hexecuting := hle .executing
  have hawaiting := hle .awaitingUser
  have hcheckpointed := hle .checkpointed
  have htools := hle .tools
  clear hle
  obtain ⟨closed, executing, awaiting, persisted, tools, rfl, hpersisted⟩ := l
  -- a closed lease is left alone by every method
  cases closed with
  | true => cases call <;> simp [method, RuntimeExecutionLease.markToolExecutionStarted,
      RuntimeExecutionLease.markToolExecutionFinished, RuntimeExecutionLease.markAwaitingUser,
      RuntimeExecutionLease.close]
  | false =>
    simp only [weight, value, Bool.false_eq_true, if_false] at *
    cases call with
    | toolStarted nowMs =>
      cases k <;> simp [method, RuntimeExecutionLease.markToolExecutionStarted,
        TenantRuntime.touch]
      omega
    | toolFinished nowMs =>
      by_cases hnone : tools = 0
      · simp [method, RuntimeExecutionLease.markToolExecutionFinished, hnone]
      · cases k <;> simp [method, RuntimeExecutionLease.markToolExecutionFinished, hnone,
          TenantRuntime.touch]
        omega
    | awaitingUser nowMs checkpointed =>
      cases awaiting with
      | true => simp [method, RuntimeExecutionLease.markAwaitingUser]
      | false =>
        cases persisted with
        | true => simp at hpersisted
        | false =>
          cases checkpointed <;> cases k <;>
            simp_all [method, RuntimeExecutionLease.markAwaitingUser, TenantRuntime.touch]
    | close nowMs =>
      cases awaiting with
      | true =>
        cases persisted <;> cases k <;>
          simp_all [method, RuntimeExecutionLease.close, TenantRuntime.touch]
      | false =>
        cases persisted with
        | true => simp at hpersisted
        | false => cases k <;> simp_all [method, RuntimeExecutionLease.close, TenantRuntime.touch]

/-- A runtime with the leases taken from it, beside the database. -/
structure Resident where
  db : Db
  runtime : TenantRuntime
  leases : List RuntimeExecutionLease

namespace Resident

def create (db : Db) (context : TenantContext) (nowMs : Int) : Resident :=
  ⟨db, .create db context nowMs, []⟩

/-- What happens to a resident runtime; the database changes under it in any way. -/
inductive Event where
  | beginRun (nowMs : Int)
  | lease (index : Nat) (call : LeaseCall)
  | touch (nowMs : Int)
  | markUnavailable
  | database (db : Db)

def step (s : Resident) : Event → Resident
  | .beginRun nowMs =>
    match s.runtime.beginRun nowMs with
    | none => s
    | some (runtime, lease) => { s with runtime, leases := s.leases ++ [lease] }
  | .lease index call =>
    match s.leases[index]? with
    | none => s
    | some lease =>
      let (lease, runtime) := call.method lease s.runtime
      { s with runtime, leases := s.leases.set index lease }
  | .touch nowMs => { s with runtime := s.runtime.touch nowMs }
  | .markUnavailable => { s with runtime := s.runtime.markUnavailable }
  | .database db => { s with db }

def run (s : Resident) (events : List Event) : Resident := events.foldl step s

/-- Each counter is its seed and what the open leases add. -/
def Balanced (seed : TenantRuntime) (s : Resident) : Prop :=
  ∀ k, value s.runtime k = value seed k + total s.leases k

variable {seed : TenantRuntime} {s : Resident}

theorem balanced_create (db : Db) (context : TenantContext) (nowMs : Int) :
    Balanced (.create db context nowMs) (create db context nowMs) := by
  intro k
  simp [create, total]

theorem Balanced.step (h : s.Balanced seed) (event : Event) : (s.step event).Balanced seed := by
  intro k
  cases event with
  | beginRun nowMs =>
    simp only [Resident.step, TenantRuntime.beginRun]
    split_ifs
    · have hk := h k
      cases k <;> simp_all [value, total, weight, TenantRuntime.touch] <;> omega
    · exact h k
  | lease index call =>
    simp only [Resident.step]
    split
    · exact h k
    · rename_i lease hlease
      have hle : ∀ k, weight lease k ≤ value s.runtime k := by
        intro k
        have := weight_le_total (List.mem_of_getElem? hlease) k
        have := h k
        omega
      have hbalance := call.balance hle k
      have hset := total_set (call.method lease s.runtime).1 hlease k
      have := h k
      dsimp only
      omega
  | touch nowMs =>
    have hk := h k
    cases k <;> exact hk
  | markUnavailable =>
    have hk := h k
    cases k <;> exact hk
  | database db => exact h k

theorem Balanced.run (h : s.Balanced seed) (events : List Event) :
    (s.run events).Balanced seed := by
  induction events generalizing s with
  | nil => exact h
  | cons event events ih => exact ih (h.step event)

end Resident

/-! The counters that a runtime starts with -/

/-- Every run that an earlier process left in the workspace waits for the user, behind a
checkpoint. -/
def Db.OnlyCheckpointedWaits (db : Db) (context : TenantContext) : Prop :=
  ∀ r ∈ db.runs.rows, Db.inWorkspace context r = true → r.status.isTerminal = false →
    r.status = .awaitingUser ∧ db.hasCheckpoint r = true

theorem getRuntimeCounters_split (db : Db) (context : TenantContext) :
    (db.getRuntimeCounters context).activeRunCount =
      (db.getRuntimeCounters context).activeExecutingRunCount +
        (db.getRuntimeCounters context).awaitingUserRunCount := by
  simp only [Db.getRuntimeCounters, Table.count]
  induction db.runs.rows with
  | nil => rfl
  | cons r rows ih =>
    cases hstatus : r.status <;> cases hin : Db.inWorkspace context r <;>
      simp_all [RunStatus.isTerminal] <;> omega

theorem onlyCheckpointedWaits_iff (db : Db) (context : TenantContext) :
    db.OnlyCheckpointedWaits context ↔
      (db.getRuntimeCounters context).activeExecutingRunCount = 0 ∧
        (db.getRuntimeCounters context).activeRunCount =
          (db.getRuntimeCounters context).checkpointedAwaitingUserRunCount := by
  rw [getRuntimeCounters_split]
  simp only [Db.OnlyCheckpointedWaits, Db.getRuntimeCounters, Table.count]
  induction db.runs.rows with
  | nil => simp
  | cons r rows ih =>
    have hle : rows.countP (fun r => Db.inWorkspace context r && r.status == .awaitingUser &&
        db.hasCheckpoint r) ≤ rows.countP fun r => Db.inWorkspace context r &&
          r.status == .awaitingUser :=
      List.countP_mono_left fun r _ h => by simp_all
    rw [List.forall_mem_cons]
    cases hstatus : r.status <;> cases hin : Db.inWorkspace context r <;>
      cases hcheckpoint : db.hasCheckpoint r <;> simp_all [RunStatus.isTerminal] <;> omega

/-- With all leases closed, what decides about an idle runtime is what it was seeded with. -/
theorem closed_runtime_can_evict_iff (db : Db) (context : TenantContext) (createdMs : Int)
    (events : List Resident.Event) (nowMs idleTtlMs : Int)
    (hclosed : ∀ l ∈ ((Resident.create db context createdMs).run events).leases, l.closed = true)
    (hidle : ((Resident.create db context createdMs).run events).runtime.idleExpired nowMs
      idleTtlMs = true) :
    ((Resident.create db context createdMs).run events).runtime.canEvict nowMs idleTtlMs = true ↔
      db.OnlyCheckpointedWaits context := by
  have hseed := (Resident.balanced_create db context createdMs).run events
  have hvalue : ∀ k, value ((Resident.create db context createdMs).run events).runtime k =
      value (.create db context createdMs) k := by
    intro k
    rw [hseed k, total_of_closed hclosed, Nat.add_zero]
  have hactive := hvalue .active
  have hexecuting := hvalue .executing
  have hcheckpointed := hvalue .checkpointed
  have htools := hvalue .tools
  simp only [value, TenantRuntime.create, TenantRuntime.applyWorkflowCounters]
    at hactive hexecuting hcheckpointed htools
  rw [onlyCheckpointedWaits_iff, TenantRuntime.canEvict, hidle, hactive, hexecuting, hcheckpointed,
    htools]
  have hsplit := getRuntimeCounters_split db context
  have hle : (db.getRuntimeCounters context).checkpointedAwaitingUserRunCount ≤
      (db.getRuntimeCounters context).awaitingUserRunCount :=
    List.countP_mono_left fun r _ h => by simp_all
  simp only [Bool.not_true, Bool.false_eq_true, if_false]
  split_ifs
  · simp
    omega
  · simp
    omega
  · simp
    omega

/-- A run begins, a tool starts, and the lease is closed before the runtime has been idle long. -/
theorem idle_runtime_can_evict :
    let context : TenantContext := { tenantId := "t", workspaceId := "w" }
    let s := (Resident.create .empty context 0).run
      [.beginRun 1, .lease 0 (.toolStarted 2), .lease 0 (.close 3)]
    s.leases.map (·.closed) = [true] ∧ s.runtime.canEvict 10 5 = true := by
  intro context s
  have hclosed : s.leases.map (·.closed) = [true] := by decide
  refine ⟨hclosed, (closed_runtime_can_evict_iff .empty context 0 _ 10 5 ?_ (by decide)).mpr ?_⟩
  · intro l hl
    have := List.mem_map_of_mem (f := (·.closed)) hl
    rw [hclosed] at this
    simpa using this
  · intro r hr
    cases hr

/-- A run that an earlier process left behind keeps the runtime resident after the run has
ended. -/
theorem seeded_runtime_is_kept :
    ¬∀ (db : Db) (context : TenantContext) (createdMs : Int) (events : List Resident.Event)
      (nowMs idleTtlMs : Int),
      (∀ l ∈ ((Resident.create db context createdMs).run events).leases, l.closed = true) →
      (∀ r ∈ ((Resident.create db context createdMs).run events).db.runs.rows,
        r.scope.tenantId = context.tenantId → r.status.isTerminal = true) →
      ((Resident.create db context createdMs).run events).runtime.idleExpired nowMs idleTtlMs =
        true →
      ((Resident.create db context createdMs).run events).runtime.canEvict nowMs idleTtlMs =
        true := by
  intro hall
  let context : TenantContext :=
    { tenantId := "t", workspaceId := "w", sessionId := some "s", runId := some "r" }
  let env : Env := { settings := {}, host := .ascii, now := 0 }
  let left := ((WorkflowCoordinator.startRun context "a").commit env .empty).2
  let ended := ((WorkflowCoordinator.finishRun ⟨context, "a", 1, 1, 20000⟩ .completed).commit env
    left).2
  have := hall left context 0 [.database ended] 10 5 (fun l hl => by cases hl) (by decide)
    (by decide)
  revert this
  decide

end MultiClaw
