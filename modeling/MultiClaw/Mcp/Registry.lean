import MultiClaw.Base.Dicts
import MultiClaw.Mcp.ToolAdapter

/-! The names under which the tools of remote servers are registered. -/
namespace MultiClaw

open Base

/-- A tool as a server announces it; the hints may be missing, or single ones of them. -/
structure RemoteTool where
  name : String
  description : Option String
  inputSchema : InputSchema
  hints : Option (Option Bool × Option Bool × Option Bool)

section Names

variable (host : Host)

/-- `_sanitize` and `_sanitize_mcp_namespace`. -/
def sanitizeName (name : String) : String :=
  String.ofList (name.toList.map fun c =>
    if host.isAlnum c || c == '_' || c == '-' then c else '_')

def mcpNamespace (serverName : String) : String := "mcp__" ++ sanitizeName host serverName ++ "__"

def mcpToolName (serverName toolName : String) : String :=
  mcpNamespace host serverName ++ sanitizeName host toolName

def truncate (text : String) (maxLen : Nat) : String :=
  if text.length ≤ maxLen then text
  else String.ofList (text.toList.take (maxLen - 13)) ++ "… [truncated]"

/-- `_build_tool_infos`. -/
def buildToolInfos (serverName : String) (tools : List RemoteTool) : List ToolInfo :=
  tools.map fun tool =>
    let (readOnly, destructive, openWorld) :=
      tool.hints.getD (some false, some true, some true)
    { name := mcpToolName host serverName tool.name
      serverName
      originalName := tool.name
      description := truncate (tool.description.getD "") 2048
      inputSchema := tool.inputSchema
      readOnly, destructive, openWorld }

end Names

def startsWith (name start : String) : Bool := start.toList.isPrefixOf name.toList

/-- Which tools of a server are wanted, by the starts of their names. -/
structure ToolFilter where
  includes : List String
  excludes : List String
  deriving DecidableEq

def matchesToolFilter (filter : Option ToolFilter) (toolName : String) : Bool :=
  match filter with
  | none => true
  | some f =>
    (f.includes.isEmpty || f.includes.any (startsWith toolName)) &&
      !f.excludes.any (startsWith toolName)

/-- `_build_mcp_adapters`. -/
def buildMcpAdapters (host : Host) (library : Pydantic) (serverName : String)
    (tools : List ToolInfo) (filter : Option ToolFilter) : List MCPToolBuilder :=
  (tools.filter fun tool => matchesToolFilter filter tool.originalName).map fun tool =>
    let adapter := MCPToolBuilder.fromToolInfo library tool
    if startsWith adapter.name (mcpNamespace host serverName) then adapter
    else
      { adapter with
        name := mcpNamespace host serverName ++ sanitizeName host tool.originalName }

/-! The registry -/

inductive RegisteredTool where
  | native (name : String)
  | remote (builder : MCPToolBuilder)

/-- The tools by their names; a name that is set again has the new tool only. -/
structure ToolRegistry where
  tools : List (String × RegisteredTool) := []

namespace ToolRegistry

def get (registry : ToolRegistry) (name : String) : Option RegisteredTool :=
  registry.tools.lookup name

def set (registry : ToolRegistry) (builder : MCPToolBuilder) : ToolRegistry :=
  ⟨(builder.name, .remote builder) :: registry.tools.filter (·.1 ≠ builder.name)⟩

def dropNamespace (registry : ToolRegistry) (start : String) : ToolRegistry :=
  ⟨registry.tools.filter fun entry => !startsWith entry.1 start⟩

def replaceNamespace (registry : ToolRegistry) (start : String) (builders : List MCPToolBuilder) :
    ToolRegistry :=
  builders.foldl set (registry.dropNamespace start)

end ToolRegistry

/-- The registry, and the tools that each server has announced last. -/
structure RegistryState where
  registry : ToolRegistry
  announced : List (String × List RemoteTool) := []

/-- What the servers of a workspace have in common: how names and schemas are read, and the filter
of each server. -/
structure RegistryWorld where
  host : Host
  library : Pydantic
  filters : List (String × ToolFilter)

namespace RegistryWorld

variable (world : RegistryWorld)

def wanted (serverName : String) (tool : RemoteTool) : Bool :=
  matchesToolFilter (world.filters.lookup serverName) tool.name

def adapters (serverName : String) (tools : List RemoteTool) : List MCPToolBuilder :=
  buildMcpAdapters world.host world.library serverName
    (buildToolInfos world.host serverName tools) (world.filters.lookup serverName)

end RegistryWorld

namespace RegistryState

variable (world : RegistryWorld) (s : RegistryState)

/-- `_replace_server_namespace`, when the tools of a server are discovered or refreshed. -/
def refresh (serverName : String) (tools : List RemoteTool) : RegistryState where
  registry := s.registry.replaceNamespace (mcpNamespace world.host serverName)
    (world.adapters serverName tools)
  announced := (serverName, tools) :: s.announced

def run (s : RegistryState) (trace : List (String × List RemoteTool)) : RegistryState :=
  trace.foldl (fun s move => s.refresh world move.1 move.2) s

/-- Every wanted tool that a server has announced is registered under its name. -/
def AllRegistered : Prop :=
  ∀ serverName tools, s.announced.lookup serverName = some tools → ∀ tool ∈ tools,
    world.wanted serverName tool = true → ∃ builder,
      s.registry.get (mcpToolName world.host serverName tool.name) = some (.remote builder) ∧
        builder.serverName = serverName ∧ builder.originalName = tool.name

/-- The tools of other servers are registered as before. -/
def KeepsOthers (t : RegistryState) (serverName : String) : Prop :=
  ∀ name builder, s.registry.get name = some (.remote builder) →
    builder.serverName ≠ serverName → t.registry.get name = some (.remote builder)

/-- The wanted tools of the server have different names after they are sanitized, and no name that
is registered for another server starts like those of this one. -/
def Careful (serverName : String) (tools : List RemoteTool) : Prop :=
  (∀ tool ∈ tools, ∀ other ∈ tools, world.wanted serverName tool = true →
    world.wanted serverName other = true →
    sanitizeName world.host tool.name = sanitizeName world.host other.name →
      tool.name = other.name) ∧
  ∀ name builder, s.registry.get name = some (.remote builder) →
    builder.serverName ≠ serverName → startsWith name (mcpNamespace world.host serverName) = false

/-- Every step of the run meets the condition. -/
def AllCareful (s : RegistryState) : List (String × List RemoteTool) → Prop
  | [] => True
  | (serverName, tools) :: trace =>
    s.Careful world serverName tools ∧ AllCareful (s.refresh world serverName tools) trace

end RegistryState

/-! Names -/

section Lemmas

variable {host : Host} {world : RegistryWorld} {serverName : String} {tools : List RemoteTool}
  {name : String} {builder : MCPToolBuilder} {registry : ToolRegistry}

theorem startsWith_append (a b : String) : startsWith (a ++ b) a = true := by
  simp [startsWith]

theorem mcpToolName_inj {toolName toolName' : String}
    (h : mcpToolName host serverName toolName = mcpToolName host serverName toolName') :
    sanitizeName host toolName = sanitizeName host toolName' := by
  have hlist := congrArg String.toList h
  rw [mcpToolName, mcpToolName, String.toList_append, String.toList_append] at hlist
  exact String.toList_inj.mp (List.append_cancel_left hlist)

/-- The adapters of a server are those of its wanted tools, each under the name of its tool. -/
theorem RegistryWorld.mem_adapters (h : builder ∈ world.adapters serverName tools) :
    ∃ tool ∈ tools, world.wanted serverName tool = true ∧
      builder.name = mcpToolName world.host serverName tool.name ∧
      builder.serverName = serverName ∧ builder.originalName = tool.name := by
  obtain ⟨info, hinfo, rfl⟩ := List.mem_map.mp h
  obtain ⟨hinfo, hwanted⟩ := List.mem_filter.mp hinfo
  obtain ⟨tool, htool, rfl⟩ := List.mem_map.mp hinfo
  refine ⟨tool, htool, hwanted, ?_⟩
  have hstart : startsWith (mcpToolName world.host serverName tool.name)
      (mcpNamespace world.host serverName) = true := startsWith_append _ _
  simp [MCPToolBuilder.fromToolInfo, hstart]

theorem RegistryWorld.exists_adapter {tool : RemoteTool} (htool : tool ∈ tools)
    (hwanted : world.wanted serverName tool = true) : ∃ builder ∈ world.adapters serverName tools,
      builder.name = mcpToolName world.host serverName tool.name := by
  have hstart : startsWith (mcpToolName world.host serverName tool.name)
      (mcpNamespace world.host serverName) = true := startsWith_append _ _
  refine ⟨_, List.mem_map.mpr ⟨_, List.mem_filter.mpr ⟨List.mem_map.mpr ⟨tool, htool, rfl⟩,
    hwanted⟩, rfl⟩, ?_⟩
  simp [MCPToolBuilder.fromToolInfo, hstart]

/-! The registry -/

theorem lookup_filter_name {α : Type} (l : List (String × α)) (p : String → Bool) :
    (l.filter fun e => p e.1).lookup name = if p name then l.lookup name else none := by
  induction l with
  | nil => simp
  | cons e l ih =>
    obtain ⟨key, value⟩ := e
    by_cases hkey : name = key
    · subst hkey
      by_cases hp : p name = true
      · simp [hp]
      · simpa [hp] using ih
    · have hbeq : (name == key) = false := by simpa using hkey
      by_cases hp : p key = true <;> simp [hp, List.lookup_cons, hbeq, ih]

namespace ToolRegistry

theorem get_set : (registry.set builder).get name =
    if name = builder.name then some (.remote builder) else registry.get name := by
  unfold get set
  by_cases hname : name = builder.name
  · simp [hname]
  · rw [List.lookup_cons, beq_false_of_ne hname, if_neg hname,
      lookup_filter_name registry.tools fun key => key ≠ builder.name]
    simp [hname]

theorem get_dropNamespace {start : String} : (registry.dropNamespace start).get name =
    if startsWith name start then none else registry.get name := by
  rw [get, dropNamespace, lookup_filter_name registry.tools fun key => !startsWith key start, get]
  cases startsWith name start <;> simp

theorem get_foldl_set {builders : List MCPToolBuilder} :
    (builders.foldl set registry).get name =
      ((builders.reverse.find? (·.name = name)).map .remote).or (registry.get name) := by
  induction builders generalizing registry with
  | nil => simp
  | cons b builders ih =>
    rw [List.foldl_cons, ih, List.reverse_cons, List.find?_append, get_set]
    cases builders.reverse.find? (·.name = name) with
    | some c => simp
    | none => by_cases hname : name = b.name <;> simp [hname, eq_comm]

/-- The last of the new builders with the name, or what is registered outside of the namespace. -/
theorem get_replaceNamespace {start : String} {builders : List MCPToolBuilder} :
    (registry.replaceNamespace start builders).get name =
      ((builders.reverse.find? (·.name = name)).map .remote).or
        (if startsWith name start then none else registry.get name) := by
  rw [replaceNamespace, get_foldl_set, get_dropNamespace]

end ToolRegistry

end Lemmas

/-! Runs of refreshes -/

namespace RegistryState

variable {world : RegistryWorld} {s : RegistryState} {serverName name : String}
  {tools : List RemoteTool} {builder : MCPToolBuilder}

/-- A name is registered after a refresh for an adapter of the server, or as before. -/
theorem get_refresh_cases
    (h : (s.refresh world serverName tools).registry.get name = some (.remote builder)) :
    (builder ∈ world.adapters serverName tools ∧ builder.name = name) ∨
      s.registry.get name = some (.remote builder) := by
  rw [refresh, ToolRegistry.get_replaceNamespace] at h
  cases hfind : (world.adapters serverName tools).reverse.find? (·.name = name) with
  | some b =>
    rw [hfind, Option.map_some, Option.some_or, Option.some.injEq, RegisteredTool.remote.injEq] at h
    subst h
    exact .inl ⟨List.mem_reverse.mp (List.mem_of_find?_eq_some hfind),
      by simpa using List.find?_some hfind⟩
  | none =>
    rw [hfind, Option.map_none, Option.none_or] at h
    split at h
    · cases h
    · exact .inr h

theorem Careful.keepsOthers (h : s.Careful world serverName tools) :
    s.KeepsOthers (s.refresh world serverName tools) serverName := by
  intro name builder hget hother
  have hstart := h.2 name builder hget hother
  have hfind : (world.adapters serverName tools).reverse.find? (·.name = name) = none := by
    refine List.find?_eq_none.mpr fun b hb => ?_
    obtain ⟨tool, -, -, hname, -, -⟩ := RegistryWorld.mem_adapters (List.mem_reverse.mp hb)
    intro heq
    have hb' : b.name = name := by simpa using heq
    rw [← hb', hname, mcpToolName, startsWith_append] at hstart
    cases hstart
  rw [refresh, ToolRegistry.get_replaceNamespace, hfind, Option.map_none, Option.none_or, hstart]
  exact hget

theorem Careful.registered {tool : RemoteTool} (h : s.Careful world serverName tools)
    (htool : tool ∈ tools) (hwanted : world.wanted serverName tool = true) :
    ∃ builder, (s.refresh world serverName tools).registry.get
        (mcpToolName world.host serverName tool.name) = some (.remote builder) ∧
      builder.serverName = serverName ∧ builder.originalName = tool.name := by
  obtain ⟨b, hb, hbname⟩ := RegistryWorld.exists_adapter htool hwanted
  cases hfind : (world.adapters serverName tools).reverse.find?
      (·.name = mcpToolName world.host serverName tool.name) with
  | none =>
    have := List.find?_eq_none.mp hfind b (List.mem_reverse.mpr hb)
    simp [hbname] at this
  | some last =>
    obtain ⟨other, hother, hotherWanted, hname, hserver, horiginal⟩ :=
      RegistryWorld.mem_adapters (List.mem_reverse.mp (List.mem_of_find?_eq_some hfind))
    have hlast : last.name = mcpToolName world.host serverName tool.name := by
      simpa using List.find?_some hfind
    have hsanitized := mcpToolName_inj (hlast.symm.trans hname)
    refine ⟨last, ?_, hserver, ?_⟩
    · rw [refresh, ToolRegistry.get_replaceNamespace, hfind]
      rfl
    · rw [horiginal]
      exact (h.1 tool htool other hother hwanted hotherWanted hsanitized).symm

/-- The announced tools are registered, and every remote tool under the name of its pair. -/
structure Inv (world : RegistryWorld) (s : RegistryState) : Prop where
  registered : s.AllRegistered world
  named : ∀ name builder, s.registry.get name = some (.remote builder) →
    name = mcpToolName world.host builder.serverName builder.originalName

theorem Inv.refresh (h : s.Inv world) (hcareful : s.Careful world serverName tools) :
    (s.refresh world serverName tools).Inv world := by
  refine ⟨?_, ?_⟩
  · intro server tools' hannounced tool htool hwanted
    by_cases hserver : server = serverName
    · subst hserver
      rw [RegistryState.refresh, List.lookup_cons_self, Option.some.injEq] at hannounced
      subst hannounced
      exact hcareful.registered htool hwanted
    · rw [RegistryState.refresh, List.lookup_cons, beq_false_of_ne hserver] at hannounced
      obtain ⟨builder, hget, rfl, horiginal⟩ := h.registered server tools' hannounced tool htool
        hwanted
      exact ⟨builder, hcareful.keepsOthers _ builder hget hserver, rfl, horiginal⟩
  · intro name builder hget
    rcases get_refresh_cases hget with ⟨hmem, rfl⟩ | hget
    · obtain ⟨tool, -, -, hname, hserver, horiginal⟩ := RegistryWorld.mem_adapters hmem
      rw [hname, hserver, horiginal]
    · exact h.named name builder hget

theorem Inv.run {trace : List (String × List RemoteTool)} (h : s.Inv world)
    (hcareful : s.AllCareful world trace) : (s.run world trace).Inv world := by
  induction trace generalizing s with
  | nil => exact h
  | cons move trace ih => exact ih (h.refresh hcareful.1) hcareful.2

/-- Every client of the manager is kept under its own name. -/
def ClientsNamed (manager : MCPClientManager) : Prop :=
  ∀ e ∈ manager.clients, e.2.name = e.1

theorem name_clientFor {manager : MCPClientManager} {callWorld : CallWorld} {client : MCPClient}
    (hnamed : ClientsNamed manager)
    (h : manager.clientFor callWorld serverName = .ok client) : client.name = serverName := by
  unfold MCPClientManager.clientFor at h
  split at h
  · next c hclient =>
    obtain rfl := Except.ok.inj h
    exact hnamed _ (mem_of_lookup (Option.eq_some_of_filter_eq_some hclient))
  · split at h
    · cases hconnection : callWorld.connection with
      | error e =>
        rw [hconnection] at h
        cases h
      | ok u =>
        rw [hconnection] at h
        obtain rfl := Except.ok.inj h
        rfl
    · cases h

/-- Every request of a call goes to the server and the tool of its builder. -/
theorem mem_execute_sent {host : Host} {manager : MCPClientManager} {callWorld : CallWorld}
    {params : Members} {r : ToolRequest} (hnamed : ClientsNamed manager)
    (h : r ∈ ((builder.build params).execute host manager callWorld).1) :
    r = ⟨builder.serverName, builder.originalName, params⟩ := by
  rw [MCPToolInvocation.execute_sent] at h
  split at h
  · unfold MCPClientManager.callToolAsync at h
    split at h
    · next client hclient =>
      rw [MCPClient.mem_retryLoop h, MCPClient.request, name_clientFor hnamed hclient]
      rfl
    · cases h
  · cases h

/-- Different pairs have different names, every name reaches its pair, and a refresh of one server
leaves the tools of the others registered. -/
structure NotShadowed (world : RegistryWorld) (s : RegistryState) : Prop where
  registered : s.AllRegistered world
  distinct : ∀ server server' tools tools', s.announced.lookup server = some tools →
    s.announced.lookup server' = some tools' → ∀ tool ∈ tools, ∀ tool' ∈ tools',
    world.wanted server tool = true → world.wanted server' tool' = true →
    mcpToolName world.host server tool.name = mcpToolName world.host server' tool'.name →
      server = server' ∧ tool.name = tool'.name
  reaches : ∀ name builder, s.registry.get name = some (.remote builder) →
    name = mcpToolName world.host builder.serverName builder.originalName ∧
    ∀ manager callWorld params, ClientsNamed manager →
      ∀ r ∈ ((builder.build params).execute world.host manager callWorld).1,
        r = ⟨builder.serverName, builder.originalName, params⟩
  keepsOthers : ∀ serverName tools, s.Careful world serverName tools →
    s.KeepsOthers (s.refresh world serverName tools) serverName

theorem Inv.notShadowed (h : s.Inv world) : s.NotShadowed world := by
  refine ⟨h.registered, ?_, ?_, fun _ _ hcareful => hcareful.keepsOthers⟩
  · intro server server' tools tools' hannounced hannounced' tool htool tool' htool' hwanted
      hwanted' hname
    obtain ⟨builder, hget, rfl, horiginal⟩ :=
      h.registered server tools hannounced tool htool hwanted
    obtain ⟨builder', hget', rfl, horiginal'⟩ :=
      h.registered server' tools' hannounced' tool' htool' hwanted'
    rw [hname, hget', Option.some.injEq, RegisteredTool.remote.injEq] at hget
    subst hget
    exact ⟨rfl, horiginal.symm.trans horiginal'⟩
  · intro name builder hget
    exact ⟨h.named name builder hget, fun _ _ _ hnamed _ hr => mem_execute_sent hnamed hr⟩

/-- A registry without remote tools. -/
def Fresh (s : RegistryState) : Prop :=
  s.announced = [] ∧ ∀ name builder, s.registry.get name ≠ some (.remote builder)

theorem mcp_tools_not_shadowed {trace : List (String × List RemoteTool)} (hfresh : s.Fresh)
    (hcareful : s.AllCareful world trace) : (s.run world trace).NotShadowed world := by
  have hinv : s.Inv world :=
    ⟨fun server tools hannounced => by simp [hfresh.1] at hannounced,
      fun name builder hget => absurd hget (hfresh.2 name builder)⟩
  exact (hinv.run hcareful).notShadowed

/-! Servers whose names do and do not keep apart -/

def sampleWorld : RegistryWorld := ⟨.ascii, .strict, []⟩

theorem sampleTool_distinct : ∀ properties,
    ([] : Members).lookup (.text "properties") = some (.obj properties) →
      (properties.map Prod.fst).Nodup := by simp

def sampleTool (name : String) : RemoteTool := ⟨name, none, ⟨[], sampleTool_distinct⟩, none⟩

def sampleEmpty : RegistryState := ⟨{}, []⟩

theorem sampleEmpty_fresh : sampleEmpty.Fresh := ⟨rfl, fun _ _ h => nomatch h⟩

theorem mcp_tools_not_shadowed_sample :
    (sampleEmpty.run sampleWorld
      [("bank", [sampleTool "transfer"]), ("mail", [sampleTool "send"])]).NotShadowed
        sampleWorld := by
  refine mcp_tools_not_shadowed sampleEmpty_fresh ⟨⟨?_, ?_⟩, ⟨?_, ?_⟩, trivial⟩
  · simp
  · exact fun _ _ h => nomatch h
  · simp
  · intro name builder hget _
    rcases get_refresh_cases hget with ⟨hmem, rfl⟩ | hget
    · obtain ⟨tool, htool, -, hname, -, -⟩ := RegistryWorld.mem_adapters hmem
      obtain rfl := List.mem_singleton.mp htool
      rw [hname]
      decide
    · exact absurd hget (sampleEmpty_fresh.2 name builder)

/-- A refresh of `a` removes the tool of `a__b`; and of two tools whose names are sanitized alike
only the last one is registered. -/
theorem similar_names_shadow :
    ¬(sampleEmpty.run sampleWorld [("a__b", [sampleTool "x"]), ("a", [])]).AllRegistered
        sampleWorld ∧
      ¬(sampleEmpty.run sampleWorld [("s", [sampleTool "x.y", sampleTool "x_y"])]).AllRegistered
        sampleWorld := by
  constructor
  · intro h
    obtain ⟨builder, hget, -⟩ := h "a__b" [sampleTool "x"] rfl (sampleTool "x") (by simp) rfl
    have hnone : ((sampleEmpty.run sampleWorld [("a__b", [sampleTool "x"]), ("a", [])]).registry.get
        (mcpToolName sampleWorld.host "a__b" (sampleTool "x").name)).isSome = false := by decide
    rw [hget] at hnone
    cases hnone
  · intro h
    obtain ⟨builder, hget, -, horiginal⟩ := h "s" [sampleTool "x.y", sampleTool "x_y"] rfl
      (sampleTool "x.y") (by simp) rfl
    have hlast : ((sampleEmpty.run sampleWorld
        [("s", [sampleTool "x.y", sampleTool "x_y"])]).registry.get
          (mcpToolName sampleWorld.host "s" (sampleTool "x.y").name)).map (fun
            | .remote b => b.originalName
            | .native name => name) = some "x_y" := by decide
    rw [hget] at hlast
    have hname : (sampleTool "x.y").name = "x_y" := horiginal.symm.trans (Option.some.inj hlast)
    revert hname
    decide

end RegistryState

end MultiClaw
