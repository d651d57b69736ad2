import MultiClaw.Base.Dicts
import MultiClaw.Mcp.Client

/-! Overlapping calls of remote tools, and the cool-down of the breaker that guards a server. -/
namespace MultiClaw

open Base

/-- A call that was let through and whose outcome is not recorded. `seen` is the number of outcomes
that its server had when it was made. -/
structure PendingCall where
  serverName : String
  toolName : String
  arguments : Members
  startedAt : Nat
  seen : Nat

structure RecordedOutcome where
  serverName : String
  failed : Bool
  recordedAt : Nat
  deriving DecidableEq, Repr

/-- The manager as its threads call it. The requests that reached a server and the outcomes, with
the latest first, are kept for the statements. -/
structure CallSystem where
  manager : MCPClientManager
  now : Nat := 0
  pending : List PendingCall := []
  sent : List ToolRequest := []
  outcomes : List RecordedOutcome := []

inductive CallMove where
  | call (serverName toolName : String) (arguments : Members)
  /-- The pending call at this place ends. -/
  | finish (i : Nat) (connection : Except CallError Unit) (attempts : Nat → Attempt)

/-- What `call_tool` does after the breaker has let it through. -/
def MCPClientManager.perform (manager : MCPClientManager) (host : Host) (world : CallWorld)
    (serverName toolName : String) (arguments : Members) :
    List ToolRequest × Except CallError ToolCallResult :=
  if manager.running then manager.callToolAsync host world serverName toolName arguments
  else ([], .error (.exception "MCP event loop not running. Call start() first."))

theorem MCPClientManager.callTool_eq (manager : MCPClientManager) (host : Host)
    (world : CallWorld) (serverName toolName : String) (arguments : Members) :
    manager.callTool host world serverName toolName arguments =
      if manager.isBlocked world serverName then
        ([], .error (manager.breakerOpen world serverName), manager)
      else
        let (sent, result) := manager.perform host world serverName toolName arguments
        (sent, result, manager.recordCall world serverName result) := by
  unfold callTool perform
  split
  · rfl
  · split <;> rfl

namespace CallSystem

variable (s : CallSystem) (host : Host) (serverName : String)

def breaker? : Option CircuitBreaker := s.manager.breakers.lookup serverName

def isBlockedAt (time : Nat) : Bool := (s.breaker? serverName).any (·.isOpen time)

def outcomesOf : List RecordedOutcome := s.outcomes.filter (·.serverName = serverName)

/-- The failures since the last success of a server. -/
def streak : List RecordedOutcome := (s.outcomesOf serverName).takeWhile (·.failed)

/-- The calls that were let through since the latest outcome of their server. -/
def probes : List PendingCall :=
  s.pending.filter fun c => c.serverName = serverName ∧ c.seen = (s.outcomesOf serverName).length

def worldOf (time : Nat) (c : PendingCall) (connection : Except CallError Unit)
    (attempts : Nat → Attempt) : CallWorld :=
  { startedAt := c.startedAt, endedAt := time, connection, attempts }

/-- What a pending call that ends now has sent, and its result. -/
def ending (time : Nat) (c : PendingCall) (connection : Except CallError Unit)
    (attempts : Nat → Attempt) : List ToolRequest × Except CallError ToolCallResult :=
  s.manager.perform host (worldOf time c connection attempts) c.serverName c.toolName c.arguments

def addPending (time : Nat) (c : PendingCall) : CallSystem :=
  { s with now := time, pending := s.pending ++ [c] }

def recordOutcome (time : Nat) (i : Nat) (c : PendingCall) (world : CallWorld)
    (sent : List ToolRequest) (result : Except CallError ToolCallResult) : CallSystem where
  manager := s.manager.recordCall world c.serverName result
  now := time
  pending := s.pending.eraseIdx i
  sent := s.sent ++ sent
  outcomes := ⟨c.serverName, !result.isOk, time⟩ :: s.outcomes

/-- One move at a time of the clock, which does not run backwards. A call that the breaker refuses
leaves no trace. -/
def step? (time : Nat) (move : CallMove) : Option CallSystem :=
  if time < s.now then none
  else match move with
    | .call serverName toolName arguments =>
      if s.isBlockedAt serverName time then some { s with now := time }
      else
        let seen := (s.outcomesOf serverName).length
        some (s.addPending time ⟨serverName, toolName, arguments, time, seen⟩)
    | .finish i connection attempts =>
      (s.pending[i]?).map fun c =>
        let (sent, result) := s.ending host time c connection attempts
        s.recordOutcome time i c (worldOf time c connection attempts) sent result

def run? (s : CallSystem) : List (Nat × CallMove) → Option CallSystem
  | [] => some s
  | (time, move) :: trace => (s.step? host time move).bind (run? · trace)

/-- The last outcomes of the server, as many as the threshold of its breaker or more, are
failures. -/
def Tripped (b : CircuitBreaker) : Prop :=
  s.streak serverName ≠ [] ∧ b.threshold ≤ (s.streak serverName).length

instance (b : CircuitBreaker) : Decidable (s.Tripped serverName b) :=
  inferInstanceAs (Decidable (_ ∧ _))

/-- While a server cools down, from the latest failure at time `failedAt` on, its calls are refused;
and one probe at most is let through before an outcome. -/
structure CoolsDown (b : CircuitBreaker) (failedAt : Nat) : Prop where
  refuses : ∀ time toolName arguments, s.now ≤ time → time < failedAt + b.cooldown →
    s.step? host time (.call serverName toolName arguments) = some { s with now := time }
  probes_le : (s.probes serverName).length ≤ 1

/-- The cool-downs of all servers. -/
def AllCoolDown : Prop :=
  ∀ serverName b failure, s.breaker? serverName = some b → s.Tripped serverName b →
    (s.streak serverName).head? = some failure →
      s.CoolsDown host serverName b failure.recordedAt

/-- A call that a tripped breaker lets through does not overlap with another one, and no call that
ends while the breaker is tripped fails. -/
def Careful (s : CallSystem) (time : Nat) : CallMove → Prop
  | .call serverName _ _ =>
    s.isBlockedAt serverName time = false → ∀ b ∈ s.breaker? serverName, s.Tripped serverName b →
      ∀ c ∈ s.pending, c.serverName ≠ serverName
  | .finish i connection attempts =>
    ∀ c ∈ s.pending[i]?, (s.ending host time c connection attempts).2.isOk = false →
      ∀ b ∈ s.breaker? c.serverName, ¬s.Tripped c.serverName b

instance (move : CallMove) : Decidable (s.Careful host time move) := by
  unfold Careful
  split <;> infer_instance

/-- Every step of the run meets the condition. -/
def AllCareful (s : CallSystem) : List (Nat × CallMove) → Prop
  | [] => True
  | (time, move) :: trace =>
    s.Careful host time move ∧ ∀ t ∈ s.step? host time move, AllCareful t trace

instance decidableAllCareful (s : CallSystem) (trace : List (Nat × CallMove)) :
    Decidable (s.AllCareful host trace) := by
  induction trace generalizing s with
  | nil => exact instDecidableTrue
  | cons e trace ih => exact instDecidableAnd

end CallSystem

namespace CallSystem

variable {s t : CallSystem} {host : Host} {serverName : String} {time : Nat} {b : CircuitBreaker}

/-! What a step can do -/

theorem step_call {toolName : String} {arguments : Members}
    (h : s.step? host time (.call serverName toolName arguments) = some t) :
    s.now ≤ time ∧
      ((s.isBlockedAt serverName time = true ∧ t = { s with now := time }) ∨
        (s.isBlockedAt serverName time = false ∧
          t = s.addPending time
            ⟨serverName, toolName, arguments, time, (s.outcomesOf serverName).length⟩)) := by
  unfold step? at h
  split at h
  · cases h
  · next htime =>
    refine ⟨by omega, ?_⟩
    dsimp only at h
    split at h
    · next hblocked => exact .inl ⟨hblocked, (Option.some.inj h).symm⟩
    · next hfree => exact .inr ⟨by simpa using hfree, (Option.some.inj h).symm⟩

theorem step_finish {i : Nat} {connection : Except CallError Unit} {attempts : Nat → Attempt}
    (h : s.step? host time (.finish i connection attempts) = some t) :
    ∃ c, s.pending[i]? = some c ∧
      t = s.recordOutcome time i c (worldOf time c connection attempts)
        (s.ending host time c connection attempts).1
        (s.ending host time c connection attempts).2 := by
  unfold step? at h
  split at h
  · cases h
  · obtain ⟨c, hc, rfl⟩ := Option.map_eq_some_iff.mp h
    exact ⟨c, hc, rfl⟩

theorem probes_addPending {c : PendingCall} :
    (s.addPending time c).probes serverName = s.probes serverName ++
      if c.serverName = serverName ∧ c.seen = (s.outcomesOf serverName).length then [c]
      else [] := by
  simp only [probes, addPending, List.filter_append, List.filter_cons, List.filter_nil, outcomesOf]
  exact congrArg _ (if_congr decide_eq_true_iff rfl rfl)

/-! What an outcome changes -/

section Outcome

variable {i : Nat} {c : PendingCall} {world : CallWorld} {sent : List ToolRequest}
  {result : Except CallError ToolCallResult}

theorem breaker?_recordOutcome :
    (s.recordOutcome time i c world sent result).breaker? serverName =
      (s.breaker? serverName).map fun b =>
        if serverName = c.serverName then
          if result.isOk then b.recordSuccess else b.recordFailure world.endedAt
        else b := by
  simp only [breaker?, recordOutcome, MCPClientManager.recordCall]
  induction s.manager.breakers with
  | nil => rfl
  | cons e entries ih =>
    obtain ⟨name, b⟩ := e
    by_cases hname : serverName = name
    · subst hname
      by_cases hserver : serverName = c.serverName <;> simp [hserver]
    · have hkey : (serverName == name) = false := by simpa using hname
      by_cases hserver : name = c.serverName
      · simpa [List.lookup_cons, hkey, hserver ▸ hkey, hserver] using ih
      · simpa [List.lookup_cons, hkey, hserver] using ih

theorem outcomesOf_recordOutcome_self :
    (s.recordOutcome time i c world sent result).outcomesOf c.serverName =
      ⟨c.serverName, !result.isOk, time⟩ :: s.outcomesOf c.serverName := by
  simp [outcomesOf, recordOutcome]

theorem outcomesOf_recordOutcome_ne (h : serverName ≠ c.serverName) :
    (s.recordOutcome time i c world sent result).outcomesOf serverName =
      s.outcomesOf serverName := by
  simp [outcomesOf, recordOutcome, Ne.symm h]

theorem streak_recordOutcome_self :
    (s.recordOutcome time i c world sent result).streak c.serverName =
      if result.isOk then []
      else ⟨c.serverName, true, time⟩ :: s.streak c.serverName := by
  rw [streak, outcomesOf_recordOutcome_self]
  cases result.isOk <;> simp [streak]

end Outcome

/-! The breaker and the outcomes -/

/-- The breaker counts the failures since the last success, and has opened at the latest of them
if they reach the threshold. -/
structure Agrees (s : CallSystem) (serverName : String) (b : CircuitBreaker) : Prop where
  count : b.failureCount = (s.streak serverName).length
  closed : b.openedAt = none → ¬s.Tripped serverName b
  opened : ∀ time, b.openedAt = some time → s.Tripped serverName b ∧
    (s.streak serverName).head?.map (·.recordedAt) = some time

theorem Agrees.isOpen {failure : RecordedOutcome} (h : s.Agrees serverName b)
    (htripped : s.Tripped serverName b) (hfailure : (s.streak serverName).head? = some failure) :
    b.isOpen time = decide (time < failure.recordedAt + b.cooldown) := by
  cases hopened : b.openedAt with
  | none => exact absurd htripped (h.closed hopened)
  | some openedAt =>
    have hat := (h.opened openedAt hopened).2
    rw [hfailure, Option.map_some, Option.some.injEq] at hat
    have hcount : b.threshold ≤ b.failureCount := by
      rw [h.count]
      exact htripped.2
    simp [CircuitBreaker.isOpen, hopened, hat, hcount]

/-- Nothing about the server changes when neither its breaker nor its outcomes do. -/
theorem Agrees.congr (h : s.Agrees serverName b)
    (houtcomes : t.outcomesOf serverName = s.outcomesOf serverName) :
    t.Agrees serverName b := by
  have hstreak : t.streak serverName = s.streak serverName := by rw [streak, houtcomes, streak]
  refine ⟨hstreak ▸ h.count, ?_, ?_⟩
  · simpa only [Tripped, hstreak] using h.closed
  · simpa only [Tripped, hstreak] using h.opened

theorem Agrees.success (hstreak : t.streak serverName = []) :
    t.Agrees serverName b.recordSuccess :=
  ⟨by simp [CircuitBreaker.recordSuccess, hstreak], by simp [Tripped, hstreak],
    by simp [CircuitBreaker.recordSuccess]⟩

theorem Agrees.failure (h : s.Agrees serverName b) (hcalm : ¬s.Tripped serverName b)
    (hstreak : t.streak serverName = ⟨serverName, true, time⟩ :: s.streak serverName) :
    t.Agrees serverName (b.recordFailure time) := by
  have hnone : b.openedAt = none := by
    cases hopened : b.openedAt with
    | none => rfl
    | some openedAt => exact absurd (h.opened openedAt hopened).1 hcalm
  have hlength : (t.streak serverName).length = b.failureCount + 1 := by
    rw [hstreak, List.length_cons, h.count]
  have htripped : t.Tripped serverName (b.recordFailure time) ↔
      b.threshold ≤ b.failureCount + 1 := by
    rw [Tripped, hlength]
    simp [hstreak, CircuitBreaker.recordFailure]
  refine ⟨hlength.symm, ?_, ?_⟩
  · intro hclosed
    rw [htripped]
    simpa [CircuitBreaker.recordFailure, hnone] using hclosed
  · intro openedAt hopened
    simp only [CircuitBreaker.recordFailure, hnone, and_true] at hopened
    split at hopened
    · next hreached =>
      exact ⟨htripped.mpr hreached, by rw [hstreak]; simpa using hopened⟩
    · cases hopened

/-! The invariant of careful runs -/

structure Inv (s : CallSystem) : Prop where
  agrees : ∀ serverName b, s.breaker? serverName = some b → s.Agrees serverName b
  seen_le : ∀ c ∈ s.pending, c.seen ≤ (s.outcomesOf c.serverName).length
  probes_le : ∀ serverName b, s.breaker? serverName = some b → s.Tripped serverName b →
    (s.probes serverName).length ≤ 1

theorem Inv.allCoolDown (h : s.Inv) : s.AllCoolDown host := by
  intro serverName b failure hb htripped hfailure
  refine ⟨?_, h.probes_le serverName b hb htripped⟩
  intro time toolName arguments hnow htime
  have hblocked : s.isBlockedAt serverName time = true := by
    rw [isBlockedAt, hb, Option.any_some, (h.agrees serverName b hb).isOpen htripped hfailure]
    exact decide_eq_true htime
  have hclock : ¬time < s.now := by omega
  simp [step?, hblocked, hclock]

theorem Inv.call {toolName : String} {arguments : Members} (h : s.Inv)
    (hcareful : s.Careful host time (.call serverName toolName arguments))
    (hstep : s.step? host time (.call serverName toolName arguments) = some t) : t.Inv := by
  obtain ⟨-, ⟨-, rfl⟩ | ⟨hfree, rfl⟩⟩ := step_call hstep
  · exact ⟨fun name b hb => (h.agrees name b hb).congr rfl, h.seen_le, h.probes_le⟩
  · refine ⟨fun name b hb => (h.agrees name b hb).congr rfl, ?_, ?_⟩
    · intro c hc
      rcases List.mem_append.mp hc with hc | hc
      · exact h.seen_le c hc
      · obtain rfl := List.mem_singleton.mp hc
        exact le_rfl
    · intro name b hb htripped
      by_cases hname : name = serverName
      · subst hname
        -- nothing of the server is pending, so the new call is its only probe
        have hnone : s.probes name = [] := by
          refine List.filter_eq_nil_iff.mpr fun c hc => ?_
          simp [hcareful hfree b hb htripped c hc]
        rw [probes_addPending, hnone]
        split <;> simp
      · rw [probes_addPending, if_neg (fun hc => hname hc.1.symm), List.append_nil]
        exact h.probes_le name b hb htripped

theorem Inv.finish {i : Nat} {connection : Except CallError Unit} {attempts : Nat → Attempt}
    (h : s.Inv) (hcareful : s.Careful host time (.finish i connection attempts))
    (hstep : s.step? host time (.finish i connection attempts) = some t) : t.Inv := by
  obtain ⟨c, hc, rfl⟩ := step_finish hstep
  refine ⟨?_, ?_, ?_⟩
  · intro name b' hb'
    rw [breaker?_recordOutcome] at hb'
    obtain ⟨b, hb, rfl⟩ := Option.map_eq_some_iff.mp hb'
    by_cases hname : name = c.serverName
    · subst hname
      rw [if_pos rfl]
      split
      · next hok => exact .success (by rw [streak_recordOutcome_self, if_pos hok])
      · next hfailed =>
        have hcalm := hcareful c hc (by simpa using hfailed) b hb
        exact (h.agrees _ b hb).failure hcalm
          (by rw [streak_recordOutcome_self, if_neg hfailed]; rfl)
    · rw [if_neg hname]
      exact (h.agrees name b hb).congr (outcomesOf_recordOutcome_ne hname)
  · intro d hd
    have hseen := h.seen_le d (List.mem_of_mem_eraseIdx hd)
    by_cases hname : d.serverName = c.serverName
    · rw [hname] at hseen ⊢
      rw [outcomesOf_recordOutcome_self, List.length_cons]
      omega
    · rwa [outcomesOf_recordOutcome_ne hname]
  · intro name b' hb' htripped
    by_cases hname : name = c.serverName
    · subst hname
      -- every pending call was made before the new outcome
      rw [probes, List.filter_eq_nil_iff.mpr]
      · exact Nat.zero_le 1
      · intro d hd
        have hseen := h.seen_le d (List.mem_of_mem_eraseIdx hd)
        simp only [decide_eq_true_eq, not_and]
        intro hserver
        rw [hserver] at hseen
        rw [outcomesOf_recordOutcome_self, List.length_cons]
        omega
    · rw [breaker?_recordOutcome] at hb'
      obtain ⟨b, hb, rfl⟩ := Option.map_eq_some_iff.mp hb'
      rw [if_neg hname] at htripped
      have hle := h.probes_le name b hb (by
        simpa only [Tripped, streak, outcomesOf_recordOutcome_ne hname] using htripped)
      refine le_trans ?_ hle
      simp only [probes, outcomesOf_recordOutcome_ne hname]
      exact ((List.eraseIdx_sublist s.pending i).filter _).length_le

theorem Inv.step {move : CallMove} (h : s.Inv) (hcareful : s.Careful host time move)
    (hstep : s.step? host time move = some t) : t.Inv := by
  cases move with
  | call => exact h.call hcareful hstep
  | finish => exact h.finish hcareful hstep

theorem Inv.run {trace : List (Nat × CallMove)} (h : s.Inv) (hcareful : s.AllCareful host trace)
    (hrun : s.run? host trace = some t) : t.Inv := by
  induction trace generalizing s with
  | nil =>
    obtain rfl := Option.some.inj hrun
    exact h
  | cons e trace ih =>
    obtain ⟨u, hstep, hrun⟩ := Option.bind_eq_some_iff.mp hrun
    exact ih (h.step hcareful.1 hstep) (hcareful.2 u hstep) hrun

/-- The breakers as `connect_servers` makes them: nothing has failed. -/
def Fresh (manager : MCPClientManager) : Prop :=
  ∀ e ∈ manager.breakers, e.2.failureCount = 0 ∧ e.2.openedAt = none

theorem inv_fresh {manager : MCPClientManager} (h : Fresh manager) (now : Nat) :
    Inv { manager, now } := by
  refine ⟨?_, by simp, by simp [Tripped, streak, outcomesOf]⟩
  intro name b hb
  obtain ⟨hcount, hopened⟩ : b.failureCount = 0 ∧ b.openedAt = none := h _ (mem_of_lookup hb)
  exact ⟨by simp [hcount, streak, outcomesOf], by simp [Tripped, streak, outcomesOf],
    by simp [hopened]⟩

/-- A breaker keeps its cool-down as long as its probes are alone and succeed. -/
theorem breaker_cools_down {manager : MCPClientManager} (hfresh : Fresh manager) {now : Nat}
    {trace : List (Nat × CallMove)} (hcareful : AllCareful host { manager, now } trace)
    (hrun : run? host { manager, now } trace = some s) :
    s.AllCoolDown host :=
  ((inv_fresh hfresh now).run hcareful hrun).allCoolDown

/-! Three failures open the breaker of a server -/

def sampleBreakers : MCPClientManager where
  running := true
  clients := [("bank", { name := "bank", connected := true })]
  usesSecretRefs := []
  breakers := [("bank", {})]

def sampleCall (time : Nat) : Nat × CallMove := (time, .call "bank" "balance" [])

def sampleFailure (time : Nat) : Nat × CallMove := (time, .finish 0 (.ok ()) fun _ => .noSession)

def sampleOutage : List (Nat × CallMove) :=
  [sampleCall 0, sampleFailure 1, sampleCall 1, sampleFailure 2, sampleCall 2, sampleFailure 3]

theorem breaker_cools_down_outage :
    ∃ s, run? .ascii { manager := sampleBreakers } sampleOutage = some s ∧
      (∃ b, s.breaker? "bank" = some b ∧ s.Tripped "bank" b) ∧ s.AllCoolDown .ascii := by
  have htripped : (run? .ascii { manager := sampleBreakers } sampleOutage).any
      (fun s => (s.breaker? "bank").any fun b => s.Tripped "bank" b) = true := by
    decide +kernel
  obtain ⟨s, hrun, htripped⟩ := (Option.any_eq_true _ _).mp htripped
  obtain ⟨b, hb, htripped⟩ := (Option.any_eq_true _ _).mp htripped
  exact ⟨s, hrun, ⟨b, hb, of_decide_eq_true htripped⟩,
    breaker_cools_down (by simp [Fresh, sampleBreakers]) (by decide +kernel) hrun⟩

/-- The breaker of the server has tripped, but it lets a call through before the time. -/
def letsThroughEarly (s : CallSystem) (serverName : String) (time : Nat) : Bool :=
  (s.breaker? serverName).any fun b => (s.streak serverName).head?.any fun failure =>
    s.Tripped serverName b && s.now ≤ time && time < failure.recordedAt + b.cooldown &&
      !s.isBlockedAt serverName time

theorem not_allCoolDown_of_letsThroughEarly (h : s.letsThroughEarly serverName time = true) :
    ¬s.AllCoolDown host := by
  intro hcool
  obtain ⟨b, hb, h⟩ := (Option.any_eq_true _ _).mp h
  obtain ⟨failure, hfailure, h⟩ := (Option.any_eq_true _ _).mp h
  simp only [Bool.and_eq_true, decide_eq_true_eq, Bool.not_eq_true'] at h
  obtain ⟨⟨⟨htripped, hnow⟩, htime⟩, hfree⟩ := h
  have hrefused := (hcool serverName b failure hb htripped hfailure).refuses time "" [] hnow htime
  have hclock : ¬time < s.now := by omega
  have hlength := congrArg (Option.map fun t : CallSystem => t.pending.length) hrefused
  simp [step?, hclock, hfree, addPending] at hlength

theorem not_allCoolDown_of_probes
    (h : ((s.breaker? serverName).any fun b =>
      s.Tripped serverName b && 1 < (s.probes serverName).length) = true) :
    ¬s.AllCoolDown host := by
  intro hcool
  obtain ⟨b, hb, h⟩ := (Option.any_eq_true _ _).mp h
  simp only [Bool.and_eq_true, decide_eq_true_eq] at h
  obtain ⟨htripped, hprobes⟩ := h
  obtain ⟨failure, hfailure⟩ := Option.ne_none_iff_exists'.mp
    (mt List.head?_eq_none_iff.mp htripped.1)
  have hle := (hcool serverName b failure hb htripped hfailure).probes_le
  omega

/-- A probe that fails does not start a new cool-down; and two probes can be under way at once. -/
theorem failed_probe_not_cooled_down :
    (∃ s, run? .ascii { manager := sampleBreakers }
        (sampleOutage ++ [sampleCall 60003, sampleFailure 60004]) = some s ∧
      ¬s.AllCoolDown .ascii) ∧
    ∃ s, run? .ascii { manager := sampleBreakers }
        (sampleOutage ++ [sampleCall 60003, sampleCall 60004]) = some s ∧
      ¬s.AllCoolDown .ascii := by
  constructor
  · have hearly : (run? .ascii { manager := sampleBreakers }
        (sampleOutage ++ [sampleCall 60003, sampleFailure 60004])).any
        (·.letsThroughEarly "bank" 60005) = true := by decide +kernel
    obtain ⟨s, hrun, hearly⟩ := (Option.any_eq_true _ _).mp hearly
    exact ⟨s, hrun, not_allCoolDown_of_letsThroughEarly hearly⟩
  · have hprobes : (run? .ascii { manager := sampleBreakers }
        (sampleOutage ++ [sampleCall 60003, sampleCall 60004])).any
        (fun s => (s.breaker? "bank").any fun b =>
          s.Tripped "bank" b && 1 < (s.probes "bank").length) = true := by decide +kernel
    obtain ⟨s, hrun, hprobes⟩ := (Option.any_eq_true _ _).mp hprobes
    exact ⟨s, hrun, not_allCoolDown_of_probes hprobes⟩

end CallSystem

end MultiClaw
