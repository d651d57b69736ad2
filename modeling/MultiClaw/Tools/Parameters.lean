import MultiClaw.Mcp.Schema

/-! The parameter models of the native tools, and how their builders validate arguments. -/
namespace MultiClaw

open Base

/-- The types of single values. -/
def PyType.isScalar : PyType → Bool
  | .str | .int | .float | .bool => true
  | .list | .dict => false

/-- A field with a single value. A default is not validated. -/
structure ScalarField where
  name : String
  type : PyType
  nullable : Bool := false
  holds : Json → Bool := fun _ => true
  default : Option Json := none
  isScalar : type.isScalar = true := by decide

inductive ParamField where
  | scalar (field : ScalarField)
  /-- A list of texts, empty by default. -/
  | texts (name : String) (atMost : Nat)
  /-- A list of records, which ignore members that they do not know. -/
  | records (name : String) (fields : List ScalarField) (atLeast atMost : Nat)

/-- A parameter model. It ignores members that no field names, or forbids them; `after` is what is
checked after the fields. -/
structure ParamsSchema where
  fields : List ParamField
  forbidsExtra : Bool := false
  after : Members → Bool := fun _ => true

/-! Validation -/

section Validate

variable (library : Pydantic)

/-- A member of the instance: what is made of the given value, or the default. -/
def readField (name : String) (default : Option Json) (take : Json → Option Json)
    (args : Members) : Option (PyStr × Json) :=
  ((args.lookup (.text name)).elim default take).map fun w => (.text name, w)

def ScalarField.take (f : ScalarField) (v : Json) : Option Json :=
  match f.nullable, v with
  | true, .null => some .null
  | _, v => (library.validateField f.type v).filter f.holds

def ScalarField.read (args : Members) (f : ScalarField) : Option (PyStr × Json) :=
  readField f.name f.default (f.take library) args

/-- One record of a list. -/
def takeRecord (fields : List ScalarField) : Json → Option Json
  | .obj members => (fields.mapM (ScalarField.read library members)).map .obj
  | _ => none

namespace ParamField

def name : ParamField → String
  | scalar f => f.name
  | texts name _ | records name _ _ _ => name

def default : ParamField → Option Json
  | scalar f => f.default
  | texts .. => some (.arr [])
  | records .. => none

def take : ParamField → Json → Option Json
  | scalar f, v => f.take library v
  | texts _ atMost, .arr items =>
    if items.length ≤ atMost then (items.mapM (library.validateField .str)).map .arr else none
  | records _ fields atLeast atMost, .arr items =>
    if atLeast ≤ items.length ∧ items.length ≤ atMost then
      (items.mapM (takeRecord library fields)).map .arr
    else none
  | _, _ => none

def read (args : Members) (f : ParamField) : Option (PyStr × Json) :=
  readField f.name f.default (f.take library) args

end ParamField

namespace ParamsSchema

/-- The instance of a model, as `model_dump` prints it. -/
def validate (schema : ParamsSchema) (args : Members) : Option Members :=
  if schema.forbidsExtra && args.any (fun m => schema.fields.all fun f => m.1 ≠ .text f.name) then
    none
  else (schema.fields.mapM (ParamField.read library args)).filter schema.after

end ParamsSchema

end Validate

/-! Constraints -/

def jsonText? : Json → Option String
  | .str (.text s) => some s
  | _ => none

def lengthWithin (lo hi : Nat) (v : Json) : Bool :=
  (jsonText? v).any fun s => lo ≤ s.length && s.length ≤ hi

def intAtLeast (lo : Int) : Json → Bool
  | .int n => lo ≤ n
  | _ => false

def oneOfTexts (texts : List String) (v : Json) : Bool := (jsonText? v).any (· ∈ texts)

/-- A number is greater than a natural number. -/
def exceeds (n : Nat) : Json → Bool
  | .int k => (n : Int) < k
  | .float (.finite false mantissa (.ofNat e)) => n < mantissa * 2 ^ e
  | .float (.finite false mantissa (.negSucc e)) => n * 2 ^ (e + 1) < mantissa
  | .float (.infinity false) => true
  | .bool b => n == 0 && b
  | _ => false

def isNumber : Json → Bool
  | .int _ | .float _ | .bool _ => true
  | _ => false

/-! The models of the native tools -/

namespace ParamsSchema

def required (name : String) : ParamField := .scalar { name, type := .str }

def text (name : String) (lo hi : Nat) : ParamField :=
  .scalar { name, type := .str, holds := lengthWithin lo hi }

def optionalText (name : String) : ParamField :=
  .scalar { name, type := .str, nullable := true, default := some .null }

def defaultText (name value : String) : ParamField :=
  .scalar { name, type := .str, default := some (.str (.text value)) }

def defaultInt (name : String) (lo value : Int) : ParamField :=
  .scalar { name, type := .int, holds := intAtLeast lo, default := some (.int value) }

def flag (name : String) : ParamField :=
  .scalar { name, type := .bool, default := some (.bool false) }

def findDirParams : ParamsSchema where
  fields := [required "pattern", optionalText "path", defaultInt "max_depth" 0 5]

def grepParams : ParamsSchema where
  fields := [required "pattern", optionalText "path", optionalText "include",
    defaultInt "context" 0 0, flag "case_sensitive", defaultText "output_mode" "content"]

def globParams : ParamsSchema where
  fields := [required "pattern", optionalText "path"]

def codeExecParams : ParamsSchema where
  fields := [required "code",
    .scalar { name := "timeout", type := .float, nullable := true, holds := exceeds 0
              default := some .null }]

def webFetchParams : ParamsSchema where
  fields := [required "url", defaultText "mode" "auto"]

def readFileParams : ParamsSchema where
  fields := [required "file_path", defaultInt "offset" 1 1, defaultInt "limit" 1 2000]

def shellParams : ParamsSchema where
  fields := [required "command",
    .scalar { name := "timeout", type := .float, nullable := true, default := some .null },
    optionalText "cwd"]

def listDirParams : ParamsSchema where
  fields := [defaultText "dir_path" ".", flag "recursive"]

def webSearchParams : ParamsSchema where
  fields := [required "query", defaultInt "max_results" 1 5, optionalText "engine"]

def writeFileParams : ParamsSchema where
  fields := [required "file_path", required "content"]

def editFileParams : ParamsSchema where
  fields := [required "file_path", required "old_string", required "new_string",
    flag "replace_all"]

def undoEditParams : ParamsSchema where
  fields := [required "file_path"]

/-- The number of items of a list member. -/
def itemCount (values : Members) (name : String) : Nat :=
  match values.lookup (.text name) with
  | some (.arr items) => items.length
  | _ => 0

def delegatedTask : List ScalarField :=
  [{ name := "title", type := .str, holds := lengthWithin 1 80 },
    { name := "objective", type := .str, holds := lengthWithin 1 2000 },
    { name := "model", type := .str, nullable := true, holds := lengthWithin 1 255
      default := some .null }]

/-- The builder also checks the configured number of tasks. -/
def delegateTasksParams (subagentMaxTasks : Nat) : ParamsSchema where
  fields := [.records "tasks" delegatedTask 1 3]
  after values := itemCount values "tasks" ≤ subagentMaxTasks

def profile : ScalarField :=
  { name := "profile", type := .str, holds := oneOfTexts ["reader", "writer"]
    default := some (.str (.text "reader")) }

def agentRequest : ParamsSchema where
  fields := [text "goal" 1 12000,
    .scalar { name := "context", type := .str, holds := lengthWithin 0 16000
              default := some (.str (.text "")) },
    .scalar profile,
    .scalar { name := "model", type := .str, nullable := true, holds := lengthWithin 1 255
              default := some .null },
    .scalar { name := "project_path", type := .str, holds := lengthWithin 1 1000
              default := some (.str (.text ".")) },
    .scalar { name := "instructions", type := .str, holds := lengthWithin 0 8000
              default := some (.str (.text "")) }]
  forbidsExtra := true

def jobId : ParamsSchema where
  fields := [text "job_id" 36 36]

def jobMessage : ParamsSchema where
  fields := [text "job_id" 36 36, text "message" 1 8000]

/-- The default of the timeout is an integer. -/
def jobWait : ParamsSchema where
  fields := [text "job_id" 36 36,
    .scalar { name := "timeout", type := .float, holds := fun v => exceeds 0 v && !exceeds 25 v
              default := some (.int 20) }]

def memberRequest : List ScalarField :=
  [{ name := "name", type := .str
     holds := fun v => lengthWithin 1 80 v && (jsonText? v).any fun s =>
       s.toList.all fun c => c.isAlphanum || c == '_' || c == '-' },
    { name := "role", type := .str, holds := oneOfTexts ["leader", "member"]
      default := some (.str (.text "member")) },
    profile,
    { name := "model", type := .str, nullable := true, holds := lengthWithin 0 255
      default := some .null },
    { name := "instructions", type := .str, holds := lengthWithin 0 8000
      default := some (.str (.text "")) }]

/-- The texts of a member in the records of a list. -/
def recordTexts (values : Members) (list name : String) : List (Option String) :=
  match values.lookup (.text list) with
  | some (.arr items) => items.map fun
    | .obj members => (members.lookup (.text name)).bind jsonText?
    | _ => none
  | _ => []

/-- The names of the members differ, and one of them leads. -/
def teamRequest : ParamsSchema where
  fields := [text "objective" 1 12000, .records "members" memberRequest 2 6,
    .scalar { name := "project_path", type := .str, holds := lengthWithin 1 1000
              default := some (.str (.text ".")) }]
  after values := (recordTexts values "members" "name").Nodup &&
    (recordTexts values "members" "role").count (some "leader") == 1

def teamId : ParamsSchema where
  fields := [text "team_id" 36 36]

def teamMessage : ParamsSchema where
  fields := [text "content" 1 8000, optionalText "recipient_id"]

def teamTask : ParamsSchema where
  fields := [text "title" 1 160, text "objective" 1 12000, .texts "depends_on" 20,
    optionalText "assigned_member_id"]

def empty : ParamsSchema where
  fields := []

/-- The native tools with their models, but for the web search. -/
def native (subagentMaxTasks : Nat) : List (String × ParamsSchema) :=
  [("find_dir", findDirParams), ("grep", grepParams), ("glob", globParams),
    ("code_exec", codeExecParams), ("web_fetch", webFetchParams), ("read_file", readFileParams),
    ("shell", shellParams), ("list_dir", listDirParams), ("write_file", writeFileParams),
    ("edit_file", editFileParams), ("undo_edit", undoEditParams),
    ("delegate_tasks", delegateTasksParams subagentMaxTasks), ("spawn_agent", agentRequest),
    ("agent_status", jobId), ("agent_message", jobMessage), ("agent_cancel", jobId),
    ("agent_wait", jobWait), ("create_team", teamRequest), ("team_status", teamId),
    ("team_board", empty), ("team_inbox", empty), ("team_message", teamMessage),
    ("team_create_task", teamTask), ("team_changes", jobId)]

end ParamsSchema

/-- How the builder of a tool validates: by the model of a native tool, as the web search does, or
by the model that the schema of a remote tool is compiled to. -/
inductive ToolParams where
  | typed (schema : ParamsSchema)
  | webSearch
  | remote (schema : InputSchema)

/-- The number of results, or five, is cut down to five; what is no number cannot be compared. -/
def capResults (args : Members) : Option Members :=
  match args.lookup (.text "max_results") with
  | none => some (args ++ [(.text "max_results", .int 5)])
  | some v =>
    if isNumber v then
      some (args.map fun m =>
        if m.1 == .text "max_results" then (m.1, if exceeds 5 v then .int 5 else v) else m)
    else none

def ToolParams.validate (library : Pydantic) (params : ToolParams) (args : Members) :
    Option Members :=
  match params with
  | typed schema => schema.validate library args
  | webSearch => (capResults args).bind (ParamsSchema.webSearchParams.validate library)
  | remote schema => (parametersSchema library schema).validate library args

end MultiClaw
