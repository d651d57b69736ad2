import MultiClaw.Mcp.ToolAdapter

/-! How many requests one invocation of a remote tool sends. -/
namespace MultiClaw

open Base

variable {host : Host} {client : MCPClient} {toolName : String} {arguments : Members}
  {attempts : Nat → Attempt} {n : Nat} {lastError : Option CallError}

namespace MCPClient

/-- The loop gets to the attempt with this number. -/
def Reaches (client : MCPClient) (host : Host) (toolName : String) (attempts : Nat → Attempt)
    (j : Nat) : Prop :=
  ∀ k < j, client.retries host toolName (attempts k) = true

/-- Two attempts that both reach the wire, with only failures that are retried before the later
one. -/
def Resends (client : MCPClient) (host : Host) (toolName : String) (attempts : Nat → Attempt)
    (limit : Nat) : Prop :=
  ∃ i j, i < j ∧ j < limit ∧ client.Reaches host toolName attempts j ∧
    (attempts i).sent = true ∧ (attempts j).sent = true

theorem reaches_zero : client.Reaches host toolName attempts 0 :=
  fun k hk => absurd hk k.not_lt_zero

theorem reaches_succ {j : Nat} : client.Reaches host toolName attempts (j + 1) ↔
    client.retries host toolName (attempts 0) = true ∧
      client.Reaches host toolName (fun k => attempts (k + 1)) j := by
  constructor
  · intro h
    exact ⟨h 0 j.succ_pos, fun k hk => h (k + 1) (Nat.succ_lt_succ hk)⟩
  · rintro ⟨hfirst, hrest⟩ k hk
    cases k with
    | zero => exact hfirst
    | succ k => exact hrest k (Nat.lt_of_succ_lt_succ hk)

theorem requests_eq_nil {sent : Bool} :
    client.requests toolName arguments sent = [] ↔ sent = false := by
  cases sent <;> simp [requests]

/-- The loop sends nothing when no attempt that it gets to reaches the wire. -/
theorem retryLoop_silent_iff :
    (client.retryLoop host toolName arguments n attempts lastError).1 = [] ↔
      ∀ j < n, client.Reaches host toolName attempts j → (attempts j).sent = false := by
  induction n generalizing attempts lastError with
  | zero => simp [retryLoop]
  | succ n ih =>
    obtain ⟨_, hsent⟩ := client.retryLoop_sent host toolName arguments n attempts lastError
    rw [hsent, List.append_eq_nil_iff, requests_eq_nil]
    constructor
    · rintro ⟨hfirst, hrest⟩ j hj hreach
      cases j with
      | zero => exact hfirst
      | succ j =>
        obtain ⟨hretry, hreach⟩ := reaches_succ.mp hreach
        rw [if_pos hretry, ih] at hrest
        exact hrest j (Nat.lt_of_succ_lt_succ hj) hreach
    · intro h
      refine ⟨h 0 n.succ_pos reaches_zero, ?_⟩
      split
      · next hretry =>
        rw [ih]
        intro j hj hreach
        exact h (j + 1) (Nat.succ_lt_succ hj) (reaches_succ.mpr ⟨hretry, hreach⟩)
      · rfl

theorem resends_of_shift
    (h : client.Resends host toolName (fun k => attempts (k + 1)) n)
    (hretry : client.retries host toolName (attempts 0) = true) :
    client.Resends host toolName attempts (n + 1) := by
  obtain ⟨i, j, hij, hj, hreach, hi, hsent⟩ := h
  exact ⟨i + 1, j + 1, Nat.succ_lt_succ hij, Nat.succ_lt_succ hj,
    reaches_succ.mpr ⟨hretry, hreach⟩, hi, hsent⟩

/-- A loop whose first attempt is retried sends twice if the rest does, or if the first request is
followed by another one. -/
theorem resends_succ_iff : client.Resends host toolName attempts (n + 1) ↔
    client.retries host toolName (attempts 0) = true ∧
      (client.Resends host toolName (fun k => attempts (k + 1)) n ∨
        (attempts 0).sent = true ∧ ∃ j < n,
          client.Reaches host toolName (fun k => attempts (k + 1)) j ∧
            (attempts (j + 1)).sent = true) := by
  constructor
  · rintro ⟨i, j, hij, hj, hreach, hi, hsent⟩
    cases j with
    | zero => exact absurd hij i.not_lt_zero
    | succ j =>
      obtain ⟨hretry, hreach⟩ := reaches_succ.mp hreach
      have hj := Nat.lt_of_succ_lt_succ hj
      cases i with
      | zero => exact ⟨hretry, .inr ⟨hi, j, hj, hreach, hsent⟩⟩
      | succ i => exact ⟨hretry, .inl ⟨i, j, Nat.lt_of_succ_lt_succ hij, hj, hreach, hi, hsent⟩⟩
  · rintro ⟨hretry, hrest | ⟨hi, j, hj, hreach, hsent⟩⟩
    · exact resends_of_shift hrest hretry
    · exact ⟨0, j + 1, j.succ_pos, Nat.succ_lt_succ hj, reaches_succ.mpr ⟨hretry, hreach⟩, hi,
        hsent⟩

theorem retryLoop_length_le_one_iff :
    (client.retryLoop host toolName arguments n attempts lastError).1.length ≤ 1 ↔
      ¬client.Resends host toolName attempts n := by
  induction n generalizing attempts lastError with
  | zero => simp [retryLoop, Resends]
  | succ n ih =>
    obtain ⟨e, hsent⟩ := client.retryLoop_sent host toolName arguments n attempts lastError
    rw [hsent, resends_succ_iff]
    cases hretry : client.retries host toolName (attempts 0) with
    | false => cases (attempts 0).sent <;> simp [requests]
    | true =>
      cases hfirst : (attempts 0).sent with
      | false => simp [requests, ih]
      | true =>
        -- One request is out: the rest has to be silent, and then does not send twice either.
        have hlength : ∀ later : List ToolRequest,
            (client.requests toolName arguments true ++ later).length ≤ 1 ↔ later = [] := by
          simp [requests]
        rw [if_pos rfl, hlength, retryLoop_silent_iff]
        constructor
        · rintro hsilent ⟨-, ⟨i, j, -, hj, hreach, -, hsent⟩ | ⟨-, j, hj, hreach, hsent⟩⟩
          · simp [hsilent j hj hreach] at hsent
          · simp [hsilent j hj hreach] at hsent
        · intro hnot j hj hreach
          by_contra hsent
          exact hnot ⟨rfl, .inr ⟨rfl, j, hj, hreach, by simpa using hsent⟩⟩

end MCPClient

/-- The call gets to a client that resends its request. -/
def MCPClientManager.Resends (manager : MCPClientManager) (host : Host) (world : CallWorld)
    (serverName toolName : String) : Prop :=
  manager.isBlocked world serverName = false ∧ manager.running = true ∧
    ∃ client, manager.clientFor world serverName = .ok client ∧
      client.Resends host toolName world.attempts client.maxRetries

/-- The recovery strategy of a tool plays no part in its retries: an invocation sends one request
at most just when no failure that may have come after the request is retried. -/
theorem sends_at_most_once_iff (library : Pydantic) (info : ToolInfo) (params : Members)
    (host : Host) (manager : MCPClientManager) (world : CallWorld) :
    (((MCPToolBuilder.fromToolInfo library info).build params).execute host manager
        world).1.length ≤ 1 ↔
      ¬manager.Resends host world info.serverName info.originalName := by
  rw [MCPToolInvocation.execute_sent, MCPClientManager.Resends, ← and_assoc]
  change (ite (manager.isBlocked world info.serverName = false ∧ manager.running = true)
    (manager.callToolAsync host world info.serverName info.originalName params).1 []).length ≤ 1 ↔ _
  split
  · next hopen =>
    unfold MCPClientManager.callToolAsync
    cases hclient : manager.clientFor world info.serverName with
    | error e => simp
    | ok client => simp [hopen, MCPClient.callToolWithRetry, MCPClient.retryLoop_length_le_one_iff]
  · next hclosed => simp [hclosed]

/-! A request that times out after it was sent, and is sent again -/

def sampleToolInfo : ToolInfo where
  name := "mcp__bank__transfer"
  serverName := "bank"
  originalName := "transfer"
  description := "Move money"
  inputSchema := ⟨[], by simp⟩
  readOnly := some false
  destructive := some true
  openWorld := some true

def sampleManager : MCPClientManager where
  running := true
  clients := [("bank", { name := "bank", connected := true })]
  usesSecretRefs := [("bank", false)]
  breakers := [("bank", {})]

def sampleSlowServer : CallWorld where
  startedAt := 0
  endedAt := 400000
  connection := .ok ()
  attempts
    | 0 => .timedOut true
    | _ => .answered { content := [.text "done"] }

theorem timed_out_call_sent_again :
    ¬∀ (library : Pydantic) (info : ToolInfo) (params : Members) (host : Host)
      (manager : MCPClientManager) (world : CallWorld),
      (MCPToolBuilder.fromToolInfo library info).recoveryStrategy = .manualUncertain →
        (((MCPToolBuilder.fromToolInfo library info).build params).execute host manager
          world).1.length ≤ 1 := by
  intro h
  have := h .strict sampleToolInfo [] .ascii sampleManager sampleSlowServer (by decide)
  revert this
  decide

end MultiClaw
