import MultiClaw.Mcp.Schema
import MultiClaw.Storage.Schema

/-! Replies of an OpenAI-style provider: the parser of a whole reply, and that of a stream. -/
namespace MultiClaw.Llm

open Base

/-! Strict validation. A value is taken as it is, or refused. -/

section Strict

variable {α : Type}

def fieldOr (data : Members) (key : String) (default : α) (read : Json → Option α) : Option α :=
  match data.lookup (.text key) with
  | none => some default
  | some value => read value

def requiredField (data : Members) (key : String) (read : Json → Option α) : Option α :=
  (data.lookup (.text key)).bind read

def nullable (read : Json → Option α) : Json → Option (Option α)
  | .null => some none
  | value => (read value).map some

def strictText : Json → Option String
  | .str (.text s) => some s
  | _ => none

def strictNat : Json → Option Nat
  | .int n => if 0 ≤ n then some n.toNat else none
  | _ => none

def strictList (read : Json → Option α) : Json → Option (List α)
  | .arr items => items.mapM read
  | _ => none

def strictObject (read : Members → Option α) : Json → Option α
  | .obj members => read members
  | _ => none

end Strict

/-! Usage -/

structure UsageEnvelope where
  inputTokens : Option Nat
  outputTokens : Option Nat
  promptTokens : Nat
  completionTokens : Nat
  totalTokens : Option Nat
  cacheCreationInputTokens : Nat
  cacheReadInputTokens : Nat
  deriving DecidableEq

def UsageEnvelope.read (data : Members) : Option UsageEnvelope := do
  let inputTokens ← fieldOr data "input_tokens" none (nullable strictNat)
  let outputTokens ← fieldOr data "output_tokens" none (nullable strictNat)
  let promptTokens ← fieldOr data "prompt_tokens" 0 strictNat
  let completionTokens ← fieldOr data "completion_tokens" 0 strictNat
  let totalTokens ← fieldOr data "total_tokens" none (nullable strictNat)
  let cacheCreationInputTokens ← fieldOr data "cache_creation_input_tokens" 0 strictNat
  let cacheReadInputTokens ← fieldOr data "cache_read_input_tokens" 0 strictNat
  return { inputTokens, outputTokens, promptTokens, completionTokens, totalTokens,
           cacheCreationInputTokens, cacheReadInputTokens }

structure Usage where
  inputTokens : Nat
  outputTokens : Nat
  totalTokens : Nat
  deriving DecidableEq, Repr

def normalizeUsage (raw : Members) : Option Usage := do
  let usage ← UsageEnvelope.read raw
  let inputTokens := usage.inputTokens.getD usage.promptTokens +
    (usage.cacheCreationInputTokens + usage.cacheReadInputTokens)
  let outputTokens := usage.outputTokens.getD usage.completionTokens
  return { inputTokens, outputTokens
           totalTokens := usage.totalTokens.getD (inputTokens + outputTokens) }

/-- The usage of an envelope, which is kept as it is given. -/
def readUsage : Json → Option (Option Members) :=
  nullable (strictObject fun raw => (UsageEnvelope.read raw).map fun _ => raw)

/-- `if raw.get("usage")`: an empty dictionary counts as none. -/
def givenUsage (usage : Option Members) : Option Members := usage.filter (!·.isEmpty)

/-! A whole reply -/

structure ToolCallEnvelope where
  id : String
  name : String
  arguments : String
  deriving DecidableEq, Repr

structure MessageEnvelope where
  content : Option String
  role : String
  toolCalls : Option (List ToolCallEnvelope)
  reasoningContent : String
  deriving DecidableEq, Repr

/-- A reply that has passed validation; of its choices only the first is used. -/
structure ResponseEnvelope where
  message : MessageEnvelope
  usage : Option Members

def ToolCallEnvelope.read : Json → Option ToolCallEnvelope :=
  strictObject fun data => do
    let id ← fieldOr data "id" "" strictText
    let (name, arguments) ← requiredField data "function" (strictObject fun function => do
      return (← requiredField function "name" strictText,
        ← requiredField function "arguments" strictText))
    return { id, name, arguments }

def MessageEnvelope.read : Json → Option MessageEnvelope :=
  strictObject fun data => do
    let content ← fieldOr data "content" none (nullable strictText)
    let role ← fieldOr data "role" "assistant" strictText
    let toolCalls ← fieldOr data "tool_calls" none (nullable (strictList ToolCallEnvelope.read))
    let reasoningContent ← fieldOr data "reasoning_content" "" strictText
    return { content, role, toolCalls, reasoningContent }

def ResponseEnvelope.read : Json → Option ResponseEnvelope :=
  strictObject fun data => do
    let messages ← requiredField data "choices" (strictList (strictObject fun choice =>
      requiredField choice "message" MessageEnvelope.read))
    let usage ← fieldOr data "usage" none readUsage
    let message ← messages.head?
    return { message, usage }

structure ToolCall where
  id : String
  name : String
  arguments : Members

structure LLMResponse where
  content : String
  role : String
  toolCalls : List ToolCall
  reasoningContent : String
  usage : Option Usage

/-- How a parser raises: with a `ValueError`, or by its recursion. -/
inductive ParseFailure where
  | value
  | recursion
  deriving DecidableEq, Repr

/-- A value that has passed its envelope; the error of the envelope is a `ValueError`. -/
def validated {α : Type} (read : Json → Option α) (raw : Json) : Except ParseFailure α :=
  (read raw).elim (.error .value) .ok

/-- The arguments of a call: a JSON text of an object. -/
def parseArguments (host : Host) (text : String) : Except ParseFailure Members :=
  match Json.loads host.recursionLimit text with
  | .ok (.obj arguments) => .ok arguments
  | .error .recursion => .error .recursion
  | _ => .error .value

def ToolCallEnvelope.parse (host : Host) (call : ToolCallEnvelope) :
    Except ParseFailure ToolCall :=
  (parseArguments host call.arguments).map fun arguments =>
    { id := call.id, name := call.name, arguments }

/-- `validate_response_payload`, then `parse_response`. -/
def parseResponse (host : Host) (raw : Json) : Except ParseFailure LLMResponse := do
  let envelope ← validated ResponseEnvelope.read raw
  let message := envelope.message
  let toolCalls ← (message.toolCalls.getD []).mapM (ToolCallEnvelope.parse host)
  return {
    content := message.content.getD ""
    role := message.role
    toolCalls
    reasoningContent := message.reasoningContent
    usage := (givenUsage envelope.usage).bind normalizeUsage }

/-! A stream -/

/-- What one chunk tells of the tool call with an index. -/
structure ToolFragment where
  index : Nat
  id : Option String
  name : Option String
  arguments : Option String
  deriving DecidableEq, Repr

structure StreamDelta where
  content : Option String := none
  reasoningContent : Option String := none
  toolCalls : Option (List ToolFragment) := none
  deriving DecidableEq, Repr

/-- A chunk that has passed validation; of its choices only the first is used. -/
structure StreamEnvelope where
  delta : StreamDelta
  usage : Option Members

def ToolFragment.read : Json → Option ToolFragment :=
  strictObject fun data => do
    let index ← fieldOr data "index" 0 strictNat
    let id ← fieldOr data "id" none (nullable strictText)
    let function ← fieldOr data "function" none (nullable (strictObject fun function => do
      return (← fieldOr function "name" none (nullable strictText),
        ← fieldOr function "arguments" none (nullable strictText))))
    return { index, id, name := function.bind Prod.fst, arguments := function.bind Prod.snd }

def StreamDelta.read : Json → Option StreamDelta :=
  strictObject fun data => do
    let content ← fieldOr data "content" none (nullable strictText)
    let reasoningContent ← fieldOr data "reasoning_content" none (nullable strictText)
    let toolCalls ← fieldOr data "tool_calls" none (nullable (strictList ToolFragment.read))
    return { content, reasoningContent, toolCalls }

def StreamEnvelope.read : Json → Option StreamEnvelope :=
  strictObject fun data => do
    let deltas ← fieldOr data "choices" [] (strictList (strictObject fun choice =>
      fieldOr choice "delta" {} StreamDelta.read))
    let usage ← fieldOr data "usage" none readUsage
    return { delta := deltas.head?.getD {}, usage }

structure ToolEntry where
  id : String := ""
  name : String := ""
  arguments : String := ""
  deriving DecidableEq, Repr

structure StreamState where
  toolCalls : List (Nat × ToolEntry) := []
  reasoningContent : String := ""

inductive StreamEvent where
  | usage (usage : Usage)
  | reasoning (content : String)
  | token (content : String)
  | toolCalls (calls : List ToolCall) (reasoningContent : String)

/-- A text that is there and not empty. -/
def givenText (text : Option String) : Option String := text.filter (· ≠ "")

def ToolEntry.add (entry : ToolEntry) (fragment : ToolFragment) : ToolEntry where
  id := (givenText fragment.id).getD entry.id
  name := (givenText fragment.name).getD entry.name
  arguments := entry.arguments ++ fragment.arguments.getD ""

/-- `state.tool_calls.setdefault(…)`, and the changes to the entry. -/
def addFragment : List (Nat × ToolEntry) → ToolFragment → List (Nat × ToolEntry)
  | [], fragment => [(fragment.index, ToolEntry.add {} fragment)]
  | (index, entry) :: entries, fragment =>
    if fragment.index = index then (index, entry.add fragment) :: entries
    else (index, entry) :: addFragment entries fragment

namespace StreamState

def addDelta (state : StreamState) (delta : StreamDelta) : StreamState where
  toolCalls := (delta.toolCalls.getD []).foldl addFragment state.toolCalls
  reasoningContent := state.reasoningContent ++ delta.reasoningContent.getD ""

end StreamState

def StreamEnvelope.events (chunk : StreamEnvelope) : List StreamEvent :=
  (((givenUsage chunk.usage).bind normalizeUsage).map .usage).toList ++
    ((givenText chunk.delta.reasoningContent).map .reasoning).toList ++
    ((givenText chunk.delta.content).map .token).toList

def parseStreamEvents (raw : Json) (state : StreamState) :
    Except ParseFailure (List StreamEvent × StreamState) :=
  (validated StreamEnvelope.read raw).map fun chunk =>
    (chunk.events, state.addDelta chunk.delta)

/-- One call at the end of a stream. Without arguments a call has the empty dictionary. -/
def ToolEntry.finish (host : Host) (entry : ToolEntry) : Except ParseFailure ToolCall := do
  let arguments ← if entry.arguments = "" then .ok [] else parseArguments host entry.arguments
  if entry.name = "" then .error .value
  else return { id := entry.id, name := entry.name, arguments }

/-- The calls in the order of their indices. -/
def StreamState.finish (host : Host) (state : StreamState) :
    Except ParseFailure (List StreamEvent) :=
  if state.toolCalls.isEmpty then .ok []
  else do
    let entries := state.toolCalls.mergeSort (·.1 ≤ ·.1)
    let calls ← entries.mapM fun entry => entry.2.finish host
    return [.toolCalls calls state.reasoningContent]

/-- The parser of a stream, as the router drives it. -/
structure StreamAdapter (σ : Type) where
  start : σ
  parseStreamEvents : Json → σ → Except ParseFailure (List StreamEvent × σ)
  finish : σ → Except ParseFailure (List StreamEvent)

/-- The events of a stream from its first chunk to its end. -/
def StreamAdapter.streamEvents {σ : Type} (adapter : StreamAdapter σ) :
    List Json → σ → Except ParseFailure (List StreamEvent)
  | [], state => adapter.finish state
  | raw :: chunks, state => do
    let (events, state) ← adapter.parseStreamEvents raw state
    return events ++ (← adapter.streamEvents chunks state)

def OpenAIAdapter (host : Host) : StreamAdapter StreamState where
  start := {}
  parseStreamEvents := parseStreamEvents
  finish := StreamState.finish host

end MultiClaw.Llm
