import MultiClaw.Mcp.Client
import MultiClaw.Tools.Scheduler

/-! Remote tools as tools of the agent: their builders and one invocation. -/
namespace MultiClaw

open Base

/-- A discovered tool; a hint may be absent. -/
structure ToolInfo where
  name : String
  serverName : String
  originalName : String
  description : String
  inputSchema : InputSchema
  readOnly : Option Bool
  destructive : Option Bool
  openWorld : Option Bool

/-- `_is_read_only_tool_info`. -/
def ToolInfo.isReadOnly (info : ToolInfo) : Bool :=
  info.readOnly == some true && info.destructive == some false && info.openWorld == some false

/-- The parts of an answer, one below the other. -/
def extractText (content : List ContentItem) : String :=
  "\n".intercalate (content.map fun
    | .text text => text
    | .resource text => text.getD ""
    | .other json => json)

structure MCPToolInvocation where
  serverName : String
  toolName : String
  params : Members

def MCPToolInvocation.execute (invocation : MCPToolInvocation) (host : Host)
    (manager : MCPClientManager) (world : CallWorld) :
    List ToolRequest × ToolExecutionResult × MCPClientManager :=
  let (sent, result, manager) :=
    manager.callTool host world invocation.serverName invocation.toolName invocation.params
  match result with
  | .error e => (sent, { status := .error, content := e.message }, manager)
  | .ok result =>
    (sent, { status := if result.isError then .error else .success
             content := extractText result.content
             externalRequestId := result.externalRequestId }, manager)

/-- An invocation sends the requests of its call, if the server is not cut off. -/
theorem MCPToolInvocation.execute_sent (invocation : MCPToolInvocation) (host : Host)
    (manager : MCPClientManager) (world : CallWorld) :
    (invocation.execute host manager world).1 =
      if manager.isBlocked world invocation.serverName = false ∧ manager.running = true then
        (manager.callToolAsync host world invocation.serverName invocation.toolName
          invocation.params).1
      else [] := by
  have hcall : (invocation.execute host manager world).1 =
      (manager.callTool host world invocation.serverName invocation.toolName
        invocation.params).1 := by
    unfold execute
    dsimp only
    split <;> rfl
  rw [hcall, MCPClientManager.callTool]
  cases manager.isBlocked world invocation.serverName <;> cases manager.running <;> simp

structure MCPToolBuilder where
  name : String
  serverName : String
  originalName : String
  description : String
  parametersSchema : ParamsModel
  readOnly : Bool

namespace MCPToolBuilder

def fromToolInfo (library : Pydantic) (info : ToolInfo) : MCPToolBuilder where
  name := info.name
  serverName := info.serverName
  originalName := info.originalName
  description := info.description
  parametersSchema := MultiClaw.parametersSchema library info.inputSchema
  readOnly := info.isReadOnly

variable (builder : MCPToolBuilder)

def recoveryStrategy : RecoveryStrategy :=
  if builder.readOnly then .readOnlyReplay else .manualUncertain

def validate (library : Pydantic) (params : Members) : Option Members :=
  builder.parametersSchema.validate library params

def build (params : Members) : MCPToolInvocation :=
  ⟨builder.serverName, builder.originalName, params⟩

end MCPToolBuilder

end MultiClaw
