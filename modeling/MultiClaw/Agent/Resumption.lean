import MultiClaw.Agent.Context
import MultiClaw.Tools.Scheduler

/-! The conversation that a recovered run of the chat goes on from. -/
namespace MultiClaw

open Base Transaction

/-- A message of the rebuilt conversation: a turn of the chat, an assistant message with one tool
call, or the result of a tool. -/
inductive ResumedMessage where
  | chat (message : Message)
  | toolCall (id name : String) (arguments : Json)
  | toolResult (toolCallId content : String)

/-- A tool result as it is read back. -/
structure PersistedToolResult where
  content : String
  toolCallId : String
  toolName : String
  deriving DecidableEq, Repr

/-- The messages of one tool call; the call needs an id. -/
def toolExchange (toolCallId toolName : String) (arguments : Json) (content : String) :
    List ResumedMessage :=
  [.toolCall (if toolCallId = "" then "call_0" else toolCallId) toolName arguments,
    .toolResult toolCallId content]

/-- What `json.loads` raises. -/
def raiseLoads (malformed : String) : Json.LoadsError → WorkflowError
  | .malformed => .value malformed
  | .intTooLong => .value "Exceeds the limit (4300 digits) for integer string conversion"
  | .recursion | .outOfFuel => .recursion

/-- `resume_recovery`, up to the first call of the model. -/
def MultiClawAgent.resumeRecovery (systemPrompt : String) (context : TenantContext)
    (recovered : Option (PersistedToolResult × String)) : Tx (List ResumedMessage) := do
  let env ← ask
  let chatEntries := (← MemoryRepository.recent context 500 "chat_message").reverse
  let messages := .chat (ContextBuilder.systemMessage systemPrompt) ::
    (chatEntries.filter fun e => isUserOrAssistant e.role).map fun e => .chat e.message
  match recovered with
  | none => return messages
  | some (result, inputJson) =>
    let arguments ← ofExcept ((Json.loads env.host.recursionLimit inputJson).mapError
      (raiseLoads "persisted tool input is not valid JSON"))
    return messages ++ toolExchange result.toolCallId result.toolName arguments result.content

/-! Reading a tool result -/

/-- The entry that a reference names: 1 to 64 letters, digits and dashes behind the scheme. -/
def entryId? (resultRef : String) : Option String :=
  let id := resultRef.toList.drop 9
  if resultRef.toList.take 9 = "memory://".toList ∧ 1 ≤ id.length ∧ id.length ≤ 64 ∧
      (id.all fun c => c.isAlphanum || c == '-') = true then some (String.ofList id)
  else none

/-- The stored entry that a reference names in the session of a context. -/
def Db.toolEntry (db : Db) (context : TenantContext) (resultRef : String) : Option MemoryRow :=
  (entryId? resultRef).bind fun id => db.memory.find? fun m =>
    m.tenantId == context.tenantId && m.workspaceId == context.workspaceId && m.id == id &&
      m.sessionId == context.sessionId

def loadMetadata (host : Host) (metadataJson : String) :
    Except WorkflowError (List (PyStr × Json)) :=
  if metadataJson = "" then .ok []
  else match Json.loads host.recursionLimit metadataJson with
    | .ok (.obj members) => .ok members
    | .ok _ => .error (.value "metadata is no dictionary")
    | .error e => .error (raiseLoads "metadata is not valid JSON" e)

/-- `str` of a member without the spaces around it; `str` of other values than texts is a
parameter. -/
def metadataText (host : Host) (str : Json → String) (metadata : List (PyStr × Json))
    (key : String) : String :=
  CoreToolScheduler.stripSpace host (match metadata.lookup (.text key) with
    | none => ""
    | some (.str (.text s)) => s
    | some v => str v)

/-- `load_tool_result` for an execution. -/
def loadToolResult (host : Host) (str : Json → String) (db : Db) (context : TenantContext)
    (execution : ExecutionRow) (resultRef expectedDigest : String) :
    Except WorkflowError PersistedToolResult :=
  if entryId? resultRef = none then .error (.value "unsupported result_ref")
  else match db.toolEntry context resultRef with
    | none => .error (.value "tool result entry not found")
    | some entry => do
      let metadata ← loadMetadata host entry.metadataJson
      let toolCallId := metadataText host str metadata "tool_call_id"
      let toolName := metadataText host str metadata "tool_name"
      let executionId := metadataText host str metadata "execution_id"
      let resultStatus := metadataText host str metadata "result_status"
      if entry.type ≠ "tool_result" ∨ entry.role ≠ "tool" then
        throw (.value "tool result entry has invalid type or role")
      else if toolCallId = "" ∨ toolName = "" ∨ executionId = "" ∨ resultStatus = "" then
        throw (.value "tool result metadata is incomplete")
      else if executionId ≠ execution.executionId then
        throw (.value "tool result execution_id mismatch")
      else if toolCallId ≠ execution.toolCallId then
        throw (.value "tool result tool_call_id mismatch")
      else if toolName ≠ execution.toolName then
        throw (.value "tool result tool_name mismatch")
      else if sha256Hex entry.content ≠ expectedDigest then
        throw (.value "tool result digest mismatch")
      else return ⟨entry.content, toolCallId, toolName⟩

def validatedExecutionInput (host : Host) (inputPayloadJson expectedHash : String) :
    Except WorkflowError String := do
  let value ← decodeJsonObject host inputPayloadJson
  rejectSecretFields host (.obj value)
  let canonical ← canonicalJson (.obj value)
  if sha256Hex canonical ≠ expectedHash then
    throw (.value "persisted tool input hash mismatch")
  else if inputPayloadJson ≠ canonical then
    throw (.value "persisted tool input is not canonical")
  else return canonical

namespace RuntimeRecoveryContinuationService

/-- The tool result to resume from: the one that was passed, or else the one that the latest
checkpoint observed. -/
def recoveredResult (str : Json → String) (context : TenantContext)
    (recovered : Option (PersistedToolResult × String)) :
    Tx (Option (PersistedToolResult × String)) := do
  let env ← ask
  let db ← get
  match recovered, db.getLatestCheckpoint context with
  | some r, _ => return some r
  | none, none => return none
  | none, some checkpoint =>
    let payload ← ofExcept (decodeCheckpoint env.host checkpoint)
    if payload.phase ≠ .executionResultObserved then return none
    else match db.getExecution context ((payload.text "execution_id").getD "") with
      | none => return none
      | some execution =>
        let inputJson ← ofExcept
          (validatedExecutionInput env.host execution.inputPayloadJson execution.inputHash)
        let result ← ofExcept (loadToolResult env.host str db context execution
          ((payload.text "result_ref").getD "") ((payload.text "result_digest").getD ""))
        return some (result, inputJson)

/-- `resume` of a run without a plan: the messages that the model is called with first. -/
def resume (str : Json → String) (systemPrompt : String) (context : TenantContext)
    (lease : RunLease) (recovered : Option (PersistedToolResult × String)) :
    Tx (List ResumedMessage) := do
  let recovered ← recoveredResult str context recovered
  if ((← get).getRun context).any (·.status = .resuming) then
    let _ ← WorkflowCoordinator.transitionRun lease .running
  MultiClawAgent.resumeRecovery systemPrompt context recovered

end RuntimeRecoveryContinuationService

end MultiClaw
