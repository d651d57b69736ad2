import MultiClaw.Base.JsonStyle
import MultiClaw.Mcp.Schema
import MultiClaw.Storage.Schema

/-! The configuration of remote servers: templates of environment variables, and its parser. -/
namespace MultiClaw

open Base

/-- The variables of the process, by the code points of their names. -/
abbrev Environ := List Nat → Option (List Nat)

inductive ConfigTrust where
  | trustedOperator
  | workspaceUntrusted
  deriving DecidableEq, Repr

inductive ConfigSource where
  | explicitPath
  | autoHome
  | autoWorkspace
  deriving DecidableEq, Repr

/-- Why one server is left out: a `ValueError` with its text, a field that the model of a local
server refuses, at this place, or an operation that the data does not support. -/
inductive ConfigError where
  | value (message : String)
  | invalidConfigKey (loc : List PyStr)
  | undetermined (data : Members)
  | keyError (key : String)
  | attributeError
  deriving Repr

/-! Templates -/

/-- A match of `\$\{([^}]+)\}` at the front: the name, and the code points behind it. -/
def templateAt : List Nat → Option (List Nat × List Nat)
  | 0x24 :: 0x7b :: rest =>
    match rest.dropWhile (· ≠ 0x7d) with
    | _ :: behind =>
      let name := rest.takeWhile (· ≠ 0x7d)
      if name = [] then none else some (name, behind)
    | [] => none
  | _ => none

theorem templateAt_length {points name behind : List Nat}
    (h : templateAt points = some (name, behind)) : behind.length < points.length := by
  unfold templateAt at h
  split at h
  · next rest =>
    split at h
    · next last behind' hdrop =>
      dsimp only at h
      split at h
      · cases h
      · cases h
        have := (List.dropWhile_sublist (· ≠ 0x7d) (l := rest)).length_le
        rw [hdrop] at this
        simp only [List.length_cons] at this ⊢
        omega
    · cases h
  · cases h

inductive Segment where
  | point (n : Nat)
  | template (name : List Nat)
  deriving DecidableEq, Repr

/-- A text as the matches of the pattern from left to right, and what stands between them. -/
def segments (points : List Nat) : List Segment :=
  match points with
  | [] => []
  | n :: rest =>
    match _h : templateAt (n :: rest) with
    | some (name, behind) => .template name :: segments behind
    | none => .point n :: segments rest
termination_by points.length
decreasing_by
  · exact templateAt_length (by assumption)
  · simp

/-- `_ENV_VAR_PATTERN.search`. -/
def hasTemplate : List Nat → Bool
  | [] => false
  | n :: rest => (templateAt (n :: rest)).isSome || hasTemplate rest

/-- The text of a segment: a variable that is not set stays as it is. -/
def Segment.expand (environ : Environ) : Segment → List Nat
  | point n => [n]
  | template name => (environ name).getD ([0x24, 0x7b] ++ name ++ [0x7d])

def expandStr (environ : Environ) (s : PyStr) : PyStr :=
  .ofCodePoints ((segments s.points).flatMap (Segment.expand environ))

mutual

/-- `_expand_env_vars`: keys are not expanded. -/
def expandEnvVars (environ : Environ) : Json → Json
  | .str s => .str (expandStr environ s)
  | .obj members => .obj (expandMembers environ members)
  | .arr items => .arr (expandItems environ items)
  | .null => .null
  | .bool b => .bool b
  | .int n => .int n
  | .float x => .float x

def expandMembers (environ : Environ) : Members → Members
  | [] => []
  | (key, value) :: members => (key, expandEnvVars environ value) :: expandMembers environ members

def expandItems (environ : Environ) : List Json → List Json
  | [] => []
  | item :: items => expandEnvVars environ item :: expandItems environ items

end

mutual

def containsEnvTemplate : Json → Bool
  | .str s => hasTemplate s.points
  | .obj members => membersContainTemplate members
  | .arr items => itemsContainTemplate items
  | .null | .bool _ | .int _ | .float _ => false

def membersContainTemplate : Members → Bool
  | [] => false
  | (key, value) :: members =>
    hasTemplate key.points || containsEnvTemplate value || membersContainTemplate members

def itemsContainTemplate : List Json → Bool
  | [] => false
  | item :: items => containsEnvTemplate item || itemsContainTemplate items

end

def rejectUntrustedTemplates (serverData : Json) : Except ConfigError Unit :=
  if containsEnvTemplate serverData then
    .error (.value "workspace_untrusted config cannot use $\x7b...\x7d expansion")
  else .ok ()

/-! References to secrets in the environment of a local server -/

def Segment.name? : Segment → Option (List Nat)
  | point _ => none
  | template name => some name

/-- The text of a name in a message. -/
def pointsText (points : List Nat) : String := String.ofList (points.map Char.ofNat)

def sandboxEnvAllowlist (serverData : Members) : Option (List (List Nat)) :=
  let raw : Option Json := (serverData.lookup (PyStr.text "sandbox_env_allowlist")).or
    (serverData.lookup (PyStr.text "sandboxEnvAllowlist"))
  match raw with
  | some (.arr entries) => some (entries.filterMap fun
    | .str s => some s.points
    | _ => none)
  | _ => none

/-- One entry of `env`. A value with templates is one whole reference to the variable that it sets,
which the allowlist names. -/
def validateEnvEntry (allowlist : Option (List (List Nat))) (destKey : PyStr) :
    Json → Except ConfigError Unit
  | .str value =>
    let names := (segments value.points).filterMap Segment.name?
    if names = [] then .ok ()
    else match templateAt value.points with
      | some (sourceKey, []) =>
        if destKey.points ≠ sourceKey then
          .error (.value ("invalid secret env expansion for " ++ pointsText destKey.points ++
            ": destination must match source " ++ pointsText sourceKey))
        else if (allowlist.getD []).contains sourceKey then .ok ()
        else .error (.value ("invalid secret env expansion for " ++ pointsText sourceKey ++
          ": sandbox_env_allowlist entry required"))
      | _ => .error (.value ("invalid secret env expansion for " ++ pointsText destKey.points ++
          ": exact whole-value reference required"))
  | _ => .ok ()

def validateRawStdioEnvExpansions : Json → Except ConfigError Unit
  | .obj serverData =>
    if (serverData.lookup (.text "command")).isNone then .ok ()
    else match serverData.lookup (.text "env") with
      | some (.obj rawEnv) =>
        rawEnv.forM fun (destKey, value) =>
          validateEnvEntry (sandboxEnvAllowlist serverData) destKey value
      | _ => .ok ()
  | _ => .ok ()

/-! Parsing -/

structure OAuthConfig where
  clientId : Json
  clientSecret : Json
  authUrl : Json
  tokenUrl : Json
  scopes : Json
  callbackPort : Json
  metadataUrl : Json

structure StdioServerConfig where
  command : String
  args : List String
  env : List (String × String)
  cwd : Option String
  sandboxNetwork : String
  sandboxWorkspace : String
  sandboxAllowSubprocesses : Bool
  sandboxEnvAllowlist : List String
  sandboxReadOnlyPaths : List String

inductive ServerConfig where
  | sse (url headers : Json)
  | http (url headers : Json) (oauth : Option OAuthConfig)
  | ws (url headers : Json)
  | stdio (config : StdioServerConfig)

def isTruthy : Json → Bool
  | .null => false
  | .bool b => b
  | .int n => n ≠ 0
  | .float (.finite _ mantissa _) => mantissa ≠ 0
  | .float _ => true
  | .str s => s.points ≠ []
  | .arr items => !items.isEmpty
  | .obj members => !members.isEmpty

def getOr (data : Members) (key : String) (default : Json) : Json :=
  (data.lookup (.text key)).getD default

/-- `data.get(a) or data.get(b) or …`. -/
def firstTruthy (data : Members) : List String → Json
  | [] => .null
  | [key] => getOr data key .null
  | key :: keys =>
    if isTruthy (getOr data key .null) then getOr data key .null else firstTruthy data keys

def parseOAuth : Json → Except ConfigError OAuthConfig
  | .obj data => .ok {
      clientId := firstTruthy data ["clientId", "client_id"]
      clientSecret := firstTruthy data ["clientSecret", "client_secret"]
      authUrl := firstTruthy data ["authUrl", "auth_url", "authorization_endpoint"]
      tokenUrl := firstTruthy data ["tokenUrl", "token_url", "token_endpoint"]
      scopes := getOr data "scopes" (.arr [])
      callbackPort := getOr data "callbackPort" (getOr data "callback_port" (.int 8085))
      metadataUrl := firstTruthy data ["metadataUrl", "metadata_url", "authServerMetadataUrl"] }
  | _ => .error .attributeError

/-! The model of a local server. A field is looked up under the first of its names that is given. -/

def givenField (data : Members) (names : List String) : Option Json :=
  names.findSome? fun name => data.lookup (.text name)

def strictStr (loc : List PyStr) : Json → Except ConfigError String
  | .str (.text s) => .ok s
  | _ => .error (.invalidConfigKey loc)

/-- A list of texts; nothing, or null, is the empty list. -/
def strictTexts (field : String) : Option Json → Except ConfigError (List String)
  | none | some .null => .ok []
  | some (.arr items) =>
    items.zipIdx.mapM fun (item, i) => strictStr [.text field, .text (toString i)] item
  | some _ => .error (.invalidConfigKey [.text field])

def strictEnv : Option Json → Except ConfigError (List (String × String))
  | none | some .null => .ok []
  | some (.obj members) => members.mapM fun (key, value) => do
    let name ← strictStr [.text "env", key, .text "[key]"] (.str key)
    return (name, ← strictStr [.text "env", key] value)
  | some _ => .error (.invalidConfigKey [.text "env"])

def literalText (field : String) (choices : List String) (default : String) :
    Option Json → Except ConfigError String
  | none => .ok default
  | some (.str (.text s)) =>
    if s ∈ choices then .ok s else .error (.invalidConfigKey [.text field])
  | some _ => .error (.invalidConfigKey [.text field])

def parseStdio (data : Members) : Except ConfigError StdioServerConfig := do
  let command ← strictStr [.text "command"] (getOr data "command" .null)
  let args ← strictTexts "args" (data.lookup (.text "args"))
  let env ← strictEnv (data.lookup (.text "env"))
  let cwd ← match data.lookup (.text "cwd") with
    | none | some .null => .ok none
    | some value => (strictStr [.text "cwd"] value).map some
  let sandboxNetwork ← literalText "sandbox_network" ["disabled", "inherit"] "disabled"
    (givenField data ["sandbox_network", "sandboxNetwork"])
  let sandboxWorkspace ← literalText "sandbox_workspace" ["ro", "rw"] "ro"
    (givenField data ["sandbox_workspace", "sandboxWorkspace"])
  let sandboxAllowSubprocesses ←
    match givenField data ["sandbox_allow_subprocesses", "sandboxAllowSubprocesses"] with
    | none => .ok false
    | some (.bool b) => .ok b
    | some _ => .error (.invalidConfigKey [.text "sandbox_allow_subprocesses"])
  let sandboxEnvAllowlist ← strictTexts "sandbox_env_allowlist"
    (givenField data ["sandbox_env_allowlist", "sandboxEnvAllowlist"])
  let sandboxReadOnlyPaths ← strictTexts "sandbox_read_only_paths"
    (givenField data ["sandbox_read_only_paths", "sandboxReadOnlyPaths"])
  return { command, args, env, cwd, sandboxNetwork, sandboxWorkspace, sandboxAllowSubprocesses,
           sandboxEnvAllowlist, sandboxReadOnlyPaths }

/-- The address and the headers of a remote server. -/
def addressOf (data : Members) : Except ConfigError (Json × Json) :=
  match data.lookup (.text "url") with
  | some url => .ok (url, getOr data "headers" (.obj []))
  | none => .error (.keyError "url")

def parseHttp (data : Members) : Except ConfigError ServerConfig := do
  let oauthData := getOr data "oauth" .null
  let oauth ← if isTruthy oauthData then (parseOAuth oauthData).map some else .ok none
  let (url, headers) ← addressOf data
  return .http url headers oauth

/-- `data.get("type", "").lower()`. -/
def transportType (host : Host) (data : Members) : Except ConfigError (Option String) :=
  match getOr data "type" (.str (.text "")) with
  | .str (.text s) => .ok (some (host.lower s))
  | .str (.lone _) => .ok none
  | _ => .error .attributeError

def parseServerConfig (host : Host) : Json → Except ConfigError ServerConfig
  | .obj data => do
    let transport ← transportType host data
    if transport = some "sse" then do
      let (url, headers) ← addressOf data
      return .sse url headers
    else if transport = some "http" then parseHttp data
    else if transport = some "ws" then do
      let (url, headers) ← addressOf data
      return .ws url headers
    else if (data.lookup (.text "command")).isSome then (parseStdio data).map .stdio
    else if (data.lookup (.text "url")).isSome then parseHttp data
    else .error (.undetermined data)
  | _ => .error .attributeError

/-! Loading a file -/

structure LoadedServer where
  config : ServerConfig
  configSource : ConfigSource
  configTrust : ConfigTrust

inductive ConfigFileError where
  | json (error : Json.LoadsError)
  | attributeError
  deriving DecidableEq, Repr

def loadServer (host : Host) (environ : Environ) (trust : ConfigTrust) (source : ConfigSource)
    (serverData : Json) : Except ConfigError LoadedServer := do
  if trust = .workspaceUntrusted then rejectUntrustedTemplates serverData else .ok ()
  validateRawStdioEnvExpansions serverData
  let config ← parseServerConfig host (expandEnvVars environ serverData)
  return { config, configSource := source, configTrust := trust }

/-- `raw.get("mcpServers", raw.get("servers", {}))`. -/
def serversOf : Json → Except ConfigFileError Members
  | .obj raw =>
    match getOr raw "mcpServers" (getOr raw "servers" (.obj [])) with
    | .obj servers => .ok servers
    | _ => .error .attributeError
  | _ => .error .attributeError

/-- What becomes of every server of a file: its configuration, or the reason that is logged. -/
def loadOutcomes (host : Host) (environ : Environ) (trust : ConfigTrust) (source : ConfigSource)
    (text : String) :
    Except ConfigFileError (List (PyStr × Except ConfigError LoadedServer)) := do
  let raw ← (Json.loads host.recursionLimit text).mapError .json
  let servers ← serversOf raw
  return servers.map fun (name, serverData) =>
    (name, loadServer host environ trust source serverData)

/-- `_load_from_file`: the servers that could be parsed. -/
def loadFromFile (host : Host) (environ : Environ) (trust : ConfigTrust) (source : ConfigSource)
    (text : String) : Except ConfigFileError (List (PyStr × LoadedServer)) :=
  (loadOutcomes host environ trust source text).map fun outcomes =>
    outcomes.filterMap fun (name, outcome) => outcome.toOption.map (name, ·)

/-! What the detector passes, the expander leaves alone -/

section Environ

variable {environ environ' : Environ}

theorem segments_of_not_hasTemplate {points : List Nat} (h : hasTemplate points = false) :
    segments points = points.map .point := by
  induction points with
  | nil => rw [segments, List.map_nil]
  | cons n rest ih =>
    rw [hasTemplate, Bool.or_eq_false_iff, Option.isSome_eq_false_iff, Option.isNone_iff_eq_none]
      at h
    rw [segments, List.map_cons]
    split
    · next hsome =>
      rw [h.1] at hsome
      cases hsome
    · rw [ih h.2]

theorem expandStr_congr {s : PyStr} (h : hasTemplate s.points = false) :
    expandStr environ s = expandStr environ' s := by
  simp only [expandStr, segments_of_not_hasTemplate h, List.flatMap_map, Segment.expand]

mutual

theorem expandEnvVars_congr : ∀ {v : Json}, containsEnvTemplate v = false →
    expandEnvVars environ v = expandEnvVars environ' v
  | .str _, h => by
    rw [containsEnvTemplate] at h
    rw [expandEnvVars, expandEnvVars, expandStr_congr h]
  | .obj _, h => by
    rw [containsEnvTemplate] at h
    rw [expandEnvVars, expandEnvVars, expandMembers_congr h]
  | .arr _, h => by
    rw [containsEnvTemplate] at h
    rw [expandEnvVars, expandEnvVars, expandItems_congr h]
  | .null, _ | .bool _, _ | .int _, _ | .float _, _ => by rw [expandEnvVars, expandEnvVars]

theorem expandMembers_congr : ∀ {members : Members}, membersContainTemplate members = false →
    expandMembers environ members = expandMembers environ' members
  | [], _ => rfl
  | (_, _) :: _, h => by
    rw [membersContainTemplate, Bool.or_eq_false_iff, Bool.or_eq_false_iff] at h
    rw [expandMembers, expandMembers, expandEnvVars_congr h.1.2, expandMembers_congr h.2]

theorem expandItems_congr : ∀ {items : List Json}, itemsContainTemplate items = false →
    expandItems environ items = expandItems environ' items
  | [], _ => rfl
  | _ :: _, h => by
    rw [itemsContainTemplate, Bool.or_eq_false_iff] at h
    rw [expandItems, expandItems, expandEnvVars_congr h.1, expandItems_congr h.2]

end

theorem loadServer_untrusted (environ environ' : Environ) {host : Host} {source : ConfigSource}
    {serverData : Json} :
    loadServer host environ .workspaceUntrusted source serverData =
      loadServer host environ' .workspaceUntrusted source serverData := by
  cases h : containsEnvTemplate serverData with
  | true => simp [loadServer, rejectUntrustedTemplates, h, bind, Except.bind]
  | false => rw [loadServer, loadServer, expandEnvVars_congr h]

/-- An untrusted file is parsed alike in every environment: each server with the same result, or
with the same refusal. -/
theorem untrusted_config_ignores_environ (host : Host) (environ environ' : Environ)
    (source : ConfigSource) (text : String) :
    loadOutcomes host environ .workspaceUntrusted source text =
        loadOutcomes host environ' .workspaceUntrusted source text ∧
      loadFromFile host environ .workspaceUntrusted source text =
        loadFromFile host environ' .workspaceUntrusted source text := by
  have houtcomes : loadOutcomes host environ .workspaceUntrusted source text =
      loadOutcomes host environ' .workspaceUntrusted source text := by
    simp only [loadOutcomes, loadServer_untrusted environ environ']
  exact ⟨houtcomes, by rw [loadFromFile, loadFromFile, houtcomes]⟩

end Environ

end MultiClaw
