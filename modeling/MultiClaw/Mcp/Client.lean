import MultiClaw.Mcp.Schema
import MultiClaw.Storage.Schema

/-! Calls of remote tools: the client of one server, its retries, and the manager of all clients. -/
namespace MultiClaw

open Base

/-- A `tools/call` request on the wire. -/
structure ToolRequest where
  serverName : String
  toolName : String
  arguments : Members

/-- One part of an answer; a part of another kind is kept as its JSON text. -/
inductive ContentItem where
  | text (text : String)
  | resource (text : Option String)
  | other (json : String)
  deriving DecidableEq, Repr

structure ToolCallResult where
  content : List ContentItem
  isError : Bool := false
  externalRequestId : Option String := none
  deriving DecidableEq, Repr

/-- How one attempt goes: whether its request reaches the wire before it fails. An answer that
comes after a timeout is not read. -/
inductive Attempt where
  | noSession
  | timedOut (sent : Bool)
  | failed (sent : Bool) (message : String)
  | answered (result : ToolCallResult)
  deriving DecidableEq, Repr

def Attempt.sent : Attempt → Bool
  | noSession => false
  | timedOut sent | failed sent _ => sent
  | answered _ => true

inductive CallError where
  | timeout (message : String)
  | exception (message : String)
  deriving DecidableEq, Repr

def CallError.message : CallError → String
  | timeout message | exception message => message

structure MCPClient where
  name : String
  connected : Bool
  maxRetries : Nat := 3
  toolCallTimeout : String := "300.0"
  deriving DecidableEq, Repr

/-- The part occurs in the text. -/
def occursIn (part text : String) : Bool := decide (part.toList <:+: text.toList)

/-- The failures that are raised at once. -/
def CallError.isFinal (host : Host) : CallError → Bool
  | timeout _ => false
  | exception message =>
    occursIn "authentication" (host.lower message) ||
      occursIn "unauthorized" (host.lower message) || occursIn "not found" (host.lower message)

namespace MCPClient

variable (client : MCPClient) (host : Host) (toolName : String) (arguments : Members)

def request : ToolRequest := ⟨client.name, toolName, arguments⟩

def requests (sent : Bool) : List ToolRequest :=
  if sent then [client.request toolName arguments] else []

/-- How an attempt ends for its caller. -/
def outcome : Attempt → Except CallError ToolCallResult
  | .noSession => .error (.exception ("Not connected to " ++ client.name))
  | .timedOut _ => .error (.timeout ("Tool call '" ++ toolName ++ "' timed out after " ++
      client.toolCallTimeout ++ "s"))
  | .failed _ message => .error (.exception message)
  | .answered result => .ok result

/-- `call_tool`: the requests that it sends, and its result. -/
def callTool (attempt : Attempt) : List ToolRequest × Except CallError ToolCallResult :=
  (client.requests toolName arguments attempt.sent, client.outcome toolName attempt)

def exhausted (lastError : Option CallError) : CallError :=
  .exception ("Tool call '" ++ toolName ++ "' failed after " ++ toString client.maxRetries ++
    " attempts: " ++ (lastError.map CallError.message).getD "None")

/-- The loop of `call_tool_with_retry`, with `remaining` attempts left. -/
def retryLoop : Nat → (Nat → Attempt) → Option CallError →
    List ToolRequest × Except CallError ToolCallResult
  | 0, _, lastError => ([], .error (client.exhausted toolName lastError))
  | remaining + 1, attempts, _ =>
    match client.callTool toolName arguments (attempts 0) with
    | (sent, .ok result) => (sent, .ok result)
    | (sent, .error e) =>
      if e.isFinal host then (sent, .error e)
      else
        let (later, result) := retryLoop remaining (fun k => attempts (k + 1)) (some e)
        (sent ++ later, result)

def callToolWithRetry (attempts : Nat → Attempt) :
    List ToolRequest × Except CallError ToolCallResult :=
  client.retryLoop host toolName arguments client.maxRetries attempts none

end MCPClient

/-! The requests of the loop -/

namespace MCPClient

variable {client : MCPClient} {host : Host} {toolName : String}

/-- The loop goes on after the attempt. -/
def retries (client : MCPClient) (host : Host) (toolName : String) (attempt : Attempt) : Bool :=
  match client.outcome toolName attempt with
  | .ok _ => false
  | .error e => !e.isFinal host

/-- The requests of the loop are those of its first attempt, and those of the rest where it goes
on. -/
theorem retryLoop_sent (client : MCPClient) (host : Host) (toolName : String)
    (arguments : Members) (n : Nat) (attempts : Nat → Attempt) (lastError : Option CallError) :
    ∃ lastError', (client.retryLoop host toolName arguments (n + 1) attempts lastError).1 =
      client.requests toolName arguments (attempts 0).sent ++
        if client.retries host toolName (attempts 0) then
          (client.retryLoop host toolName arguments n (fun k => attempts (k + 1)) lastError').1
        else [] := by
  cases houtcome : client.outcome toolName (attempts 0) with
  | ok result => exact ⟨none, by simp [retryLoop, retries, callTool, houtcome]⟩
  | error e =>
    refine ⟨some e, ?_⟩
    cases hfinal : e.isFinal host <;> simp [retryLoop, retries, callTool, houtcome, hfinal]

/-- Every request of a call is the same. -/
theorem mem_retryLoop {arguments : Members} {n : Nat} {attempts : Nat → Attempt}
    {lastError : Option CallError} {r : ToolRequest}
    (h : r ∈ (client.retryLoop host toolName arguments n attempts lastError).1) :
    r = client.request toolName arguments := by
  induction n generalizing attempts lastError with
  | zero => simp [retryLoop] at h
  | succ n ih =>
    obtain ⟨_, hsent⟩ := client.retryLoop_sent host toolName arguments n attempts lastError
    rw [hsent] at h
    rcases List.mem_append.mp h with h | h
    · unfold requests at h
      split at h
      · exact List.mem_singleton.mp h
      · cases h
    · split at h
      · exact ih h
      · cases h

end MCPClient

/-! The circuit breaker. Times are milliseconds of a monotonic clock. -/

structure CircuitBreaker where
  threshold : Nat := 3
  cooldown : Nat := 60000
  failureCount : Nat := 0
  openedAt : Option Nat := none
  deriving DecidableEq, Repr

namespace CircuitBreaker

variable (b : CircuitBreaker) (now : Nat)

/-- After the cooldown a breaker lets one call probe the server. -/
def isOpen : Bool :=
  b.threshold ≤ b.failureCount && b.openedAt.any fun opened => now < opened + b.cooldown

def remainingCooldown : Nat :=
  if b.isOpen now then b.openedAt.elim 0 fun opened => opened + b.cooldown - now else 0

def recordFailure : CircuitBreaker :=
  { b with
    failureCount := b.failureCount + 1
    openedAt := if b.threshold ≤ b.failureCount + 1 ∧ b.openedAt = none then some now
      else b.openedAt }

def recordSuccess : CircuitBreaker := { b with failureCount := 0, openedAt := none }

end CircuitBreaker

/-! The manager -/

/-- Each server has a client, or a configuration that refers to secrets and gets a client for
every call. -/
structure MCPClientManager where
  running : Bool
  clients : List (String × MCPClient)
  usesSecretRefs : List (String × Bool)
  breakers : List (String × CircuitBreaker)

/-- What happens around one call: when it begins and ends, whether a client that is made for it
connects, and how the attempts go. -/
structure CallWorld where
  startedAt : Nat
  endedAt : Nat
  connection : Except CallError Unit
  attempts : Nat → Attempt

namespace MCPClientManager

variable (manager : MCPClientManager) (host : Host) (world : CallWorld)
  (serverName toolName : String) (arguments : Members)

/-- The client that a call goes to. -/
def clientFor : Except CallError MCPClient :=
  match (manager.clients.lookup serverName).filter MCPClient.connected with
  | some client => .ok client
  | none =>
    if (manager.usesSecretRefs.lookup serverName).getD false then
      world.connection.map fun _ => { name := serverName, connected := true }
    else .error (.exception ("Server '" ++ serverName ++ "' not connected"))

/-- `_call_tool_async`. -/
def callToolAsync : List ToolRequest × Except CallError ToolCallResult :=
  match manager.clientFor world serverName with
  | .ok client => client.callToolWithRetry host toolName arguments world.attempts
  | .error e => ([], .error e)

def recordCall (result : Except CallError ToolCallResult) : MCPClientManager :=
  { manager with breakers := manager.breakers.map fun (name, b) =>
      if name = serverName then
        (name, if result.isOk then b.recordSuccess else b.recordFailure world.endedAt)
      else (name, b) }

def isBlocked : Bool := (manager.breakers.lookup serverName).any (·.isOpen world.startedAt)

def breakerOpen : CallError :=
  let remaining := (manager.breakers.lookup serverName).elim 0
    (·.remainingCooldown world.startedAt)
  .exception ("Server '" ++ serverName ++ "' circuit breaker open. Retry in ~" ++
    toString (remaining / 1000) ++ "s.")

/-- `call_tool`, run on the event loop of the manager. -/
def callTool : List ToolRequest × Except CallError ToolCallResult × MCPClientManager :=
  if manager.isBlocked world serverName then
    ([], .error (manager.breakerOpen world serverName), manager)
  else if manager.running then
    let (sent, result) := manager.callToolAsync host world serverName toolName arguments
    (sent, result, manager.recordCall world serverName result)
  else
    let result := .error (.exception "MCP event loop not running. Call start() first.")
    ([], result, manager.recordCall world serverName result)

end MCPClientManager

end MultiClaw
