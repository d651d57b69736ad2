import MultiClaw.Storage.Memory

/-! How the chat route stores a message and how the context of a model call is built. -/
namespace MultiClaw

open Base Transaction

/-- The columns by which entries are ordered, newest last. -/
def MemoryRow.key (m : MemoryRow) : Nat ×ₗ Nat ×ₗ String :=
  toLex (m.createdAt, toLex (m.turnIndex, m.id))

/-- The entries of one type in the session of a context, newest first. -/
def Db.loadRows (db : Db) (context : TenantContext) (entryType : String) : List MemoryRow :=
  (db.memory.filter fun m => m.tenantId == context.tenantId &&
    m.workspaceId == context.workspaceId && m.type == entryType &&
    m.sessionId == context.sessionId).insertionSort fun a b => b.key ≤ a.key

def MemoryRepository.recent (context : TenantContext) (limit : Nat) (entryType : String) :
    Tx (List MemoryRow) := do
  if entryType = "chat_message" ∧ context.sessionId = none then
    throw (.value "session_id is required for chat_message queries")
  else pure (((← get).loadRows context entryType).take limit)

/-- The chat route stores the message before the agent runs. -/
def storeUserTurn (context : TenantContext) (id message : String) : Tx MemoryRow := do
  let recentMessages ← MemoryRepository.recent context 1 "chat_message"
  let userTurnIndex := match recentMessages with
    | latest :: _ => latest.turnIndex + 1
    | [] => 1
  MemoryRepository.save context
    { id, content := message, type := "chat_message", role := "user"
      sessionId := context.sessionId, turnIndex := userTurnIndex }

/-- A message for the model, and the stored entry that it shows, if it shows one. -/
structure Message where
  role : String
  content : String
  source : Option String := none
  deriving DecidableEq, Repr

def MemoryRow.message (m : MemoryRow) : Message := ⟨m.role, m.content, some m.id⟩

structure ContextRequest where
  systemPrompt : String
  userInput : String
  context : TenantContext
  contextWindowLimit : Nat
  skillPrompts : List (String × String) := []
  projectInstructions : List (String × String) := []

/-- The settings of a builder. `l1Share` is `int(tokens * l1_ratio)`, `anchor` the message with the
date, and `relevantMemory` the text that fits a budget, empty if there is none. -/
structure ContextBuilder where
  recentTurns : Nat
  progressiveEnabled : Bool
  responseReserveTokens : Nat
  l1Share : Nat → Nat
  anchor : String
  relevantMemory : Nat → String

def estimateTokens (text : String) : Nat := if text = "" then 0 else (text.length + 3) / 4

def isUserOrAssistant (role : String) : Bool := role == "user" || role == "assistant"

namespace ContextBuilder

variable (builder : ContextBuilder) (request : ContextRequest)

def systemMessage (content : String) : Message := ⟨"system", content, none⟩

def projectInstructionMessages : List Message :=
  request.projectInstructions.map fun (name, body) =>
    systemMessage ("Project instructions (" ++ name ++ "):\n" ++ body)

def recentChatEntries (context : TenantContext) : Tx (List MemoryRow) := do
  let recentEntries ← MemoryRepository.recent context (builder.recentTurns * 4) "chat_message"
  pure ((recentEntries.reverse.filter fun e => isUserOrAssistant e.role).take
    (builder.recentTurns * 2))

/-- The text of the relevant memory, if there is any. -/
def relevantMessages (text : String) : List Message :=
  if text = "" then [] else [systemMessage text]

def buildLegacy : Tx (List Message) := do
  let recentEntries ← builder.recentChatEntries request.context
  pure (systemMessage request.systemPrompt :: projectInstructionMessages request ++
    [systemMessage builder.anchor] ++ request.skillPrompts.map (systemMessage ·.2) ++
    recentEntries.map (·.message) ++
    relevantMessages (builder.relevantMemory request.contextWindowLimit) ++
    [⟨"user", request.userInput, none⟩])

/-- The skill prompts that fit, each after the ones before it, and the tokens that they use. -/
def fitSkills (budget : Nat) : List (String × String) → Nat → List Message × Nat
  | [], used => ([], used)
  | (_, body) :: skills, used =>
    if budget < used + estimateTokens body then fitSkills budget skills used
    else
      let (messages, used) := fitSkills budget skills (used + estimateTokens body)
      (systemMessage body :: messages, used)

/-- The newest entries, up to the first one that does not fit. -/
def fitEntries (budget : Nat) : List MemoryRow → Nat → List MemoryRow × Nat
  | [], used => ([], used)
  | entry :: entries, used =>
    if budget < used + estimateTokens entry.content then ([], used)
    else
      let (selected, used) := fitEntries budget entries (used + estimateTokens entry.content)
      (entry :: selected, used)

def fitL1Messages (skillPrompts : List (String × String)) (recentEntries : List MemoryRow)
    (budget : Nat) : List Message × Nat :=
  let (messages, used) := fitSkills budget skillPrompts 0
  let (selectedNewest, used) := fitEntries budget recentEntries.reverse used
  (messages ++ selectedNewest.reverse.map (·.message), used)

/-- The tokens of the messages that are always sent. -/
def fixedTokens : Nat :=
  estimateTokens request.systemPrompt +
    ((projectInstructionMessages request).map fun m => estimateTokens m.content).sum +
    estimateTokens request.userInput

def availableTokens : Nat := request.contextWindowLimit - builder.responseReserveTokens

/-- The date is sent if it fits. -/
def anchorFits : Bool :=
  fixedTokens request + estimateTokens builder.anchor ≤ builder.availableTokens request

def l0Tokens : Nat :=
  if builder.anchorFits request then fixedTokens request + estimateTokens builder.anchor
  else fixedTokens request

def l1Budget : Nat := builder.l1Share (builder.availableTokens request - builder.l0Tokens request)

def buildProgressive : Tx (List Message) := do
  let recentEntries ← builder.recentChatEntries request.context
  let (l1Messages, l1Tokens) :=
    fitL1Messages request.skillPrompts recentEntries (builder.l1Budget request)
  let remainingAfterL1 := builder.availableTokens request - builder.l0Tokens request - l1Tokens
  pure (systemMessage request.systemPrompt :: projectInstructionMessages request ++
    (if builder.anchorFits request then [systemMessage builder.anchor] else []) ++
    l1Messages ++ relevantMessages (builder.relevantMemory remainingAfterL1) ++
    [⟨"user", request.userInput, none⟩])

def build : Tx (List Message) :=
  if builder.progressiveEnabled then builder.buildProgressive request
  else builder.buildLegacy request

end ContextBuilder

end MultiClaw
