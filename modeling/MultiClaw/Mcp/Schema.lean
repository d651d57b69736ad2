import MultiClaw.Base.Json

/-! The models that tool input schemas are compiled to, and what they make of an argument object. -/
namespace MultiClaw

open Base

/-- The members of a dictionary. A key is looked up, so that their order does not matter. -/
abbrev Members := List (PyStr × Json)

/-- Equality of dictionaries. -/
def SameDict (a b : Members) : Prop := ∀ key, a.lookup key = b.lookup key

/-- The input schema of a tool: a JSON object that declares every property once. -/
structure InputSchema where
  members : Members
  distinct : ∀ properties, members.lookup (.text "properties") = some (.obj properties) →
    (properties.map Prod.fst).Nodup

inductive PyType where
  | str
  | int
  | float
  | bool
  | list
  | dict
  deriving DecidableEq, Repr

/-- The value has the type already. A string with an unpaired surrogate is not valid text. -/
def PyType.exact : PyType → Json → Bool
  | .str, .str (.text _) | .int, .int _ | .float, .float _ | .bool, .bool _ | .list, .arr _
  | .dict, .obj _ => true
  | _, _ => false

/-- What is taken from the validation library: which names a field may have, and how a value of
another type is converted. A converted value has the type of its field. -/
structure Pydantic where
  allowsField : String → Bool
  coerce : PyType → Json → Option Json
  allowsField_underscore : ∀ name : String, name.toList.head? = some '_' → allowsField name = false
  coerce_exact : ∀ t v w, coerce t v = some w → t.exact w = true

/-- A library that converts nothing. -/
def Pydantic.strict : Pydantic where
  allowsField name := name.toList.head? ≠ some '_'
  coerce _ _ := none
  allowsField_underscore name h := by simp [h]
  coerce_exact t v w h := by cases h

def Pydantic.validateField (library : Pydantic) (t : PyType) (v : Json) : Option Json :=
  if t.exact v then some v else library.coerce t v

structure ModelField where
  name : String
  type : PyType
  required : Bool
  deriving DecidableEq

/-- A compiled model: its fields, and whether it keeps members that no field names. -/
structure ParamsModel where
  fields : List ModelField
  extra : Bool

/-- `MCPParams` without fields: every argument is ignored. -/
def ParamsModel.empty : ParamsModel := ⟨[], false⟩

def ParamsModel.passthrough : ParamsModel := ⟨[], true⟩

/-- The exceptions that compiling a schema ends in. -/
inductive SchemaError where
  | attribute
  | type
  | name
  deriving DecidableEq

/-! Compiling -/

/-- `_JSON_TYPE_MAP`. -/
def jsonTypeMap : List (String × PyType) :=
  [("string", .str), ("integer", .int), ("number", .float), ("boolean", .bool), ("array", .list),
    ("object", .dict)]

def typeOf (prop : Members) : Json := (prop.lookup (.text "type")).getD (.str (.text "string"))

/-- `_json_type_to_python`. -/
def jsonTypeToPython (prop : Members) : PyType :=
  match typeOf prop with
  | .str (.text "array") => .list
  | .str (.text "object") => .dict
  | .str (.text name) => (jsonTypeMap.lookup name).getD .str
  | _ => .str

/-- `_is_simple_schema`. A list of types cannot be looked up in the map. -/
def isSimpleSchema : Json → Except SchemaError Bool
  | .obj prop =>
    match typeOf prop with
    | .str (.text name) =>
      .ok (name ≠ "object" && name ≠ "array" && (jsonTypeMap.lookup name).isSome)
    | .arr _ | .obj _ => .error .type
    | _ => .ok false
  | _ => .error .attribute

/-- `all` stops at the first property that is not simple. -/
def allSimple : List Json → Except SchemaError Bool
  | [] => .ok true
  | prop :: props =>
    match isSimpleSchema prop with
    | .ok true => allSimple props
    | .ok false => .ok false
    | .error e => .error e

/-- `set` of the required names; a list must not hold lists or dictionaries. -/
def requiredNames : Json → Except SchemaError (List PyStr)
  | .arr items =>
    if items.any fun | .arr _ | .obj _ => true | _ => false then .error .type
    else .ok (items.filterMap fun | .str s => some s | _ => none)
  | .str (.text s) => .ok (s.toList.map fun c => .text (String.singleton c))
  | .str (.lone ns) => .ok (ns.map fun n => .ofCodePoints [n])
  | .obj members => .ok (members.map Prod.fst)
  | _ => .error .type

def modelField (required : List PyStr) : PyStr × Json → Option ModelField
  | (.text name, .obj prop) => some ⟨name, jsonTypeToPython prop, .text name ∈ required⟩
  | _ => none

/-- `create_model` refuses a name that a field may not have. -/
def createModel (library : Pydantic) (required : List PyStr) (properties : Members) :
    Except SchemaError ParamsModel :=
  match properties.mapM (modelField required) with
  | some fields =>
    if fields.all (library.allowsField ·.name) then .ok ⟨fields, false⟩ else .error .name
  | none => .error .name

/-- The values that count as false. -/
def isFalsy : Json → Bool
  | .null | .bool false | .int 0 | .float (.finite _ 0 _) | .str (.text "") | .arr [] | .obj [] =>
    true
  | _ => false

/-- `_json_schema_to_pydantic`. -/
def jsonSchemaToPydantic (library : Pydantic) (schema : InputSchema) :
    Except SchemaError ParamsModel := do
  let required ← requiredNames ((schema.members.lookup (.text "required")).getD (.arr []))
  match (schema.members.lookup (.text "properties")).getD (.obj []) with
  | .obj [] => return .empty
  | .obj properties =>
    if ← allSimple (properties.map Prod.snd) then createModel library required properties
    else return .passthrough
  | value => if isFalsy value then return .empty else throw .attribute

/-- The schema of a tool: a schema that cannot be compiled is replaced by an empty one. -/
def parametersSchema (library : Pydantic) (inputSchema : InputSchema) : ParamsModel :=
  match jsonSchemaToPydantic library inputSchema with
  | .ok model => model
  | .error _ => .empty

/-! Instances -/

/-- The value of a field: given, or the default of an optional one. -/
def ModelField.validate (library : Pydantic) (args : Members) (f : ModelField) :
    Option (PyStr × Json) :=
  match args.lookup (.text f.name) with
  | some v => (library.validateField f.type v).map fun w => (.text f.name, w)
  | none => if f.required then none else some (.text f.name, .null)

/-- The members that no field names. -/
def ParamsModel.extraOf (model : ParamsModel) (args : Members) : Members :=
  args.filter fun m => model.fields.all fun f => m.1 ≠ .text f.name

def isText : PyStr → Bool
  | .text _ => true
  | .lone _ => false

/-- The instance of a model, as `model_dump` prints it. -/
def ParamsModel.validate (library : Pydantic) (model : ParamsModel) (args : Members) :
    Option Members :=
  if model.extra && !(args.all (isText ·.1)) then none
  else
    (model.fields.mapM (ModelField.validate library args)).map fun values =>
      if model.extra then values ++ model.extraOf args else values

end MultiClaw
