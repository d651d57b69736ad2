import MultiClaw.Base.Json
import MultiClaw.Base.Sha256
import MultiClaw.Storage.Schema

/-! Checkpoint payloads: the schema of each phase, encoding, and decoding of stored rows. -/
namespace MultiClaw

open Base

/-- What a payload field accepts. String enums are choices among their values. -/
inductive FieldKind where
  | text (minLength maxLength : Nat)
  | uuid
  | sha256
  | optionalText (minLength maxLength : Nat)
  | strictInt (ge le : Option Int)
  | choice (values : List String)
  | literalInt (n : Int)
  | none
  deriving DecidableEq

structure Field where
  name : String
  kind : FieldKind
  default : Option Json := .none

def isHex (c : Char) : Bool := (Json.hexValue c).isSome

def isLowerHex (c : Char) : Bool := isHex c && !c.isUpper

/-- `UUID_PATTERN`. -/
def isUuid (s : String) : Bool :=
  s.length == 36 && (s.toList.zipIdx.all fun (c, i) =>
    if i == 8 || i == 13 || i == 18 || i == 23 then c == '-' else isHex c)

/-- `SHA256_PATTERN`. -/
def isSha256 (s : String) : Bool := s.length == 64 && s.toList.all isLowerHex

def FieldKind.accepts : FieldKind → Json → Bool
  | text lo hi, .str (.text s) => lo ≤ s.length && s.length ≤ hi
  | uuid, .str (.text s) => isUuid s
  | sha256, .str (.text s) => isSha256 s
  | optionalText _ _, .null => true
  | optionalText lo hi, .str (.text s) => lo ≤ s.length && s.length ≤ hi
  | strictInt ge le, .int n => ge.all (· ≤ n) && le.all (n ≤ ·)
  | choice values, .str (.text s) => values.contains s
  | literalInt m, .int n => m == n
  | none, .null => true
  | _, _ => false

def uuidField (name : String) : Field := ⟨name, .text 36 36, .none⟩

def uuidPatternField (name : String) : Field := ⟨name, .uuid, .none⟩

def cursorTextField (name : String) : Field := ⟨name, .text 1 255, .none⟩

def digestField (name : String) : Field := ⟨name, .text 64 64, .none⟩

def nextStepField (step : String) : Field :=
  ⟨"next_step", .choice [step], some (.str (.text step))⟩

/-- The fields of `PHASE_PAYLOADS`, without `schema_version` and `cursor`, which all have. -/
def CheckpointPhase.ownFields : CheckpointPhase → List Field
  | runStarted =>
    [uuidField "tenant_id", uuidField "workspace_id", uuidField "session_id", uuidField "run_id",
      ⟨"started_at_ms", .strictInt .none .none, .none⟩, cursorTextField "model_cursor",
      nextStepField "model_inference"]
  | planAwaitingApproval =>
    [uuidPatternField "run_id", uuidPatternField "plan_id",
      ⟨"plan_version", .strictInt (some 1) .none, .none⟩, ⟨"plan_digest", .sha256, .none⟩,
      cursorTextField "decision_cursor", nextStepField "plan_decision"]
  | planStepReady =>
    [uuidPatternField "run_id", uuidPatternField "plan_id",
      ⟨"plan_version", .strictInt (some 1) .none, .none⟩, ⟨"plan_digest", .sha256, .none⟩,
      uuidPatternField "step_id", uuidPatternField "step_run_id",
      ⟨"attempt", .strictInt (some 1) (some 20), .none⟩,
      ⟨"execution_cursor",
        .choice ["dispatch_step", "continue_step", "select_next", "final_summary"], .none⟩,
      nextStepField "plan_step_execution"]
  | planReplanRequired =>
    [uuidPatternField "run_id", uuidPatternField "plan_id",
      ⟨"plan_version", .strictInt (some 1) .none, .none⟩, ⟨"plan_digest", .sha256, .none⟩,
      uuidPatternField "failed_step_run_id", ⟨"failure_digest", .sha256, .none⟩,
      ⟨"revision_cursor", .choice ["generate_revision"], some (.str (.text "generate_revision"))⟩,
      nextStepField "plan_revision"]
  | modelOutputCommitted =>
    [uuidField "run_id", ⟨"message_id", .text 1 128, .none⟩, digestField "output_digest",
      cursorTextField "model_cursor", nextStepField "tool_plan_or_terminal"]
  | awaitingApproval =>
    [uuidField "run_id", uuidField "approval_id", ⟨"tool_call_id", .text 1 128, .none⟩,
      ⟨"approval_expires_at_ms", .strictInt .none .none, .none⟩, cursorTextField "resume_cursor",
      nextStepField "approval_resolution"]
  | executionDispatching =>
    [uuidField "run_id", uuidField "execution_id", ⟨"tool_call_id", .text 1 128, .none⟩,
      ⟨"recovery_strategy", .choice (RecoveryStrategy.all.map (·.value)), .none⟩,
      digestField "input_hash", ⟨"input_ref", .text 1 255, .none⟩,
      ⟨"idempotency_key", .optionalText 1 128, some .null⟩, cursorTextField "dispatch_cursor",
      nextStepField "execution_observation"]
  | executionResultObserved =>
    [uuidField "run_id", uuidField "execution_id",
      ⟨"result_status", .choice (ExecutionStatus.all.map (·.value)), .none⟩,
      digestField "result_digest", ⟨"result_ref", .text 1 255, .none⟩,
      ⟨"external_request_id", .optionalText 1 255, some .null⟩, cursorTextField "resume_cursor",
      nextStepField "continue_or_terminal"]
  | runTerminal =>
    [uuidField "run_id", ⟨"terminal_status", .choice (RunStatus.all.map (·.value)), .none⟩,
      ⟨"finished_at_ms", .strictInt .none .none, .none⟩, digestField "final_digest",
      ⟨"next_step", .none, some .null⟩]

def CheckpointPhase.fields (phase : CheckpointPhase) : List Field :=
  ⟨"schema_version", .literalInt 1, some (.int 1)⟩ :: phase.ownFields ++
    [if phase = runTerminal then ⟨"cursor", .none, some .null⟩ else cursorTextField "cursor"]

/-- The field that `cursor` must repeat. -/
def CheckpointPhase.cursorSource : CheckpointPhase → Option String
  | runStarted | modelOutputCommitted => some "model_cursor"
  | planAwaitingApproval => some "decision_cursor"
  | planStepReady => some "execution_cursor"
  | planReplanRequired => some "revision_cursor"
  | awaitingApproval | executionResultObserved => some "resume_cursor"
  | executionDispatching => some "dispatch_cursor"
  | runTerminal => .none

abbrev FieldValues := List (String × Json)

def FieldValues.text (values : FieldValues) (name : String) : Option String :=
  match values.lookup name with
  | some (.str (.text s)) => some s
  | _ => .none

/-- The model validators that run after the fields were accepted. -/
def CheckpointPhase.consistent (phase : CheckpointPhase) (values : FieldValues) : Bool :=
  (match phase.cursorSource with
    | some source => values.text "cursor" == values.text source
    | .none => true) &&
  (phase != executionDispatching ||
    values.text "recovery_strategy" != some RecoveryStrategy.idempotentRetry.value ||
    (values.text "idempotency_key").any (· != "")) &&
  (phase != runTerminal ||
    ((RunStatus.all.filter (·.isTerminal)).map (·.value)).any
      fun s => values.text "terminal_status" == some s)

/-- Whether values fill the fields of a phase, in their order, each with a value it accepts. -/
def CheckpointPhase.fits (fields : List Field) (values : FieldValues) : Bool :=
  match fields, values with
  | [], [] => true
  | f :: fields, (name, v) :: values => f.name == name && f.kind.accepts v && fits fields values
  | _, _ => false

/-- A payload that its phase's model accepts. -/
structure CheckpointPayload where
  phase : CheckpointPhase
  values : FieldValues
  fits : CheckpointPhase.fits phase.fields values = true
  consistent : phase.consistent values = true

namespace CheckpointPayload

variable (payload : CheckpointPayload)

def text (name : String) : Option String := payload.values.text name

def toJson : Json := .obj (payload.values.map fun m => (.text m.1, m.2))

end CheckpointPayload

/-- The value of a field in a dictionary, or its default. -/
def Field.read (f : Field) (data : List (PyStr × Json)) : Option (String × Json) :=
  match data.lookup (.text f.name) with
  | some v => some (f.name, v)
  | .none => f.default.map fun v => (f.name, v)

/-- `PHASE_PAYLOADS[phase].model_validate`, which forbids extra keys. -/
def CheckpointPhase.modelValidate (phase : CheckpointPhase) (data : List (PyStr × Json)) :
    Option CheckpointPayload :=
  if data.all fun m => phase.fields.any fun f => m.1 == .text f.name then
    match phase.fields.mapM (·.read data) with
    | .none => .none
    | some values =>
      if h : CheckpointPhase.fits phase.fields values = true ∧ phase.consistent values = true then
        some ⟨phase, values, h.1, h.2⟩
      else .none
  else .none

/-! Encoding -/

def hexDigits (width n : Nat) : List Char :=
  (List.range width).map fun i => Json.hexDigit (n / 16 ^ (width - 1 - i) % 16)

/-- `repr` of a string. -/
def pyRepr (host : Host) (s : PyStr) : String :=
  let points := match s with
    | .text s => s.toList.map Char.toNat
    | .lone points => points
  let quote := if points.contains '\''.toNat && !points.contains '"'.toNat then '"' else '\''
  let escape := fun n : Nat =>
    if n == quote.toNat || n == '\\'.toNat then ['\\', Char.ofNat n]
    else if n == '\n'.toNat then ['\\', 'n']
    else if n == '\r'.toNat then ['\\', 'r']
    else if n == '\t'.toNat then ['\\', 't']
    else if n.isValidChar ∧ host.isPrintable (Char.ofNat n) then [Char.ofNat n]
    else if n < 0x100 then '\\' :: 'x' :: hexDigits 2 n
    else if n < 0x10000 then '\\' :: 'u' :: hexDigits 4 n
    else '\\' :: 'U' :: hexDigits 8 n
  String.ofList (quote :: points.flatMap escape ++ [quote])

def secretKeyMarkers : List String := ["secret", "token", "password", "apikey", "authorization"]

/-- Whether one list occurs in another as a contiguous block. -/
def hasBlock (block : List Char) : List Char → Bool
  | [] => block.isEmpty
  | c :: cs => block.isPrefixOf (c :: cs) || hasBlock block cs

def normalizeKey (host : Host) (key : PyStr) : List Char :=
  let letters := match key with
    | .text s => s
    -- an unpaired surrogate is neither a letter nor a digit
    | .lone points => String.ofList ((points.filter fun n => decide n.isValidChar).map Char.ofNat)
  (host.lower letters).toList.filter host.isAlnum

def isSecretKey (host : Host) (key : PyStr) : Bool :=
  secretKeyMarkers.any fun m => hasBlock m.toList (normalizeKey host key)

mutual

/-- The first object key in a value that looks like the name of a secret. -/
def secretField? (host : Host) : Json → Option PyStr
  | .obj members => secretMember? host members
  | .arr items => secretItem? host items
  | _ => .none

def secretMember? (host : Host) : List (PyStr × Json) → Option PyStr
  | [] => .none
  | (k, v) :: ms =>
    if isSecretKey host k then some k
    else (secretField? host v).or (secretMember? host ms)

def secretItem? (host : Host) : List Json → Option PyStr
  | [] => .none
  | v :: vs => (secretField? host v).or (secretItem? host vs)

end

def rejectSecretFields (host : Host) (value : Json) : Except WorkflowError Unit :=
  match secretField? host value with
  | some key =>
    .error (.corruptCheckpoint ("checkpoint payload contains forbidden key " ++ pyRepr host key))
  | .none => .ok ()

def utf8Length (s : String) : Nat := s.utf8ByteSize

def sha256Hex (s : String) : String := Sha256.hexdigest s.toUTF8.data.toList

def canonicalJson (value : Json) : Except WorkflowError String :=
  match value.dumps with
  | some text => .ok text
  | .none => .error (.value "value has no canonical JSON")

structure EncodedCheckpointPayload where
  payloadJson : String
  payloadHash : String
  schemaVersion : Int
  deriving DecidableEq

def encodeCheckpointPayload (host : Host) (payload : CheckpointPayload) (maxBytes : Nat) :
    Except WorkflowError EncodedCheckpointPayload := do
  rejectSecretFields host payload.toJson
  let encoded ← canonicalJson payload.toJson
  if maxBytes < utf8Length encoded then throw (.checkpointTooLarge maxBytes (utf8Length encoded))
  else return ⟨encoded, sha256Hex encoded, 1⟩

/-! Decoding -/

def parsePhase (host : Host) (value : String) : Except WorkflowError CheckpointPhase :=
  match CheckpointPhase.all.find? fun phase => phase.value == value with
  | some phase => .ok phase
  | .none =>
    .error (.incompatibleCheckpoint ("unsupported checkpoint phase " ++ pyRepr host (.text value)))

/-- `validate_phase_payload` on a dictionary with string keys. -/
def validatePhasePayload (phase : CheckpointPhase) (data : FieldValues) :
    Except WorkflowError CheckpointPayload :=
  match phase.modelValidate (data.map fun m => (.text m.1, m.2)) with
  | some payload => .ok payload
  | .none => .error (.corruptCheckpoint "checkpoint payload does not match phase schema")

def decodeJsonObject (host : Host) (payloadJson : String) :
    Except WorkflowError (List (PyStr × Json)) :=
  match Json.loads host.recursionLimit payloadJson with
  | .ok (.obj members) => .ok members
  | .ok _ => .error (.corruptCheckpoint "checkpoint payload_json must decode to an object")
  | .error .malformed => .error (.corruptCheckpoint "checkpoint payload_json is not valid JSON")
  | .error .intTooLong =>
    .error (.value "Exceeds the limit (4300 digits) for integer string conversion")
  | .error .recursion => .error .recursion
  | .error .outOfFuel => .error .recursion

/-- Equality with `1` across the number types. -/
def isOne : Json → Bool
  | .int n => n == 1
  | .bool b => b
  | .float x => x.isOne
  | _ => false

def validateCheckpointScope (checkpoint : CheckpointRow) (payload : CheckpointPayload) :
    Except WorkflowError Unit :=
  if payload.text "run_id" ≠ some checkpoint.scope.runId then
    .error (.corruptCheckpoint "checkpoint payload run_id does not match row scope")
  else match payload.phase with
    | .runStarted =>
      if payload.text "tenant_id" ≠ some checkpoint.scope.tenantId then
        .error (.corruptCheckpoint "checkpoint payload tenant_id does not match row scope")
      else if payload.text "workspace_id" ≠ some checkpoint.scope.workspaceId then
        .error (.corruptCheckpoint "checkpoint payload workspace_id does not match row scope")
      else if payload.text "session_id" ≠ some checkpoint.scope.sessionId then
        .error (.corruptCheckpoint "checkpoint payload session_id does not match row scope")
      else .ok ()
    | .awaitingApproval =>
      if checkpoint.approvalId ≠ payload.text "approval_id" then
        .error (.corruptCheckpoint "checkpoint approval_id does not match payload")
      else .ok ()
    | .executionDispatching | .executionResultObserved =>
      if checkpoint.executionId ≠ payload.text "execution_id" then
        .error (.corruptCheckpoint "checkpoint execution_id does not match payload")
      else .ok ()
    | _ => .ok ()

def decodeCheckpoint (host : Host) (checkpoint : CheckpointRow) :
    Except WorkflowError CheckpointPayload := do
  if checkpoint.schemaVersion ≠ 1 then
    throw (.incompatibleCheckpoint
      ("unsupported checkpoint schema_version " ++ toString checkpoint.schemaVersion))
  else
    let data ← decodeJsonObject host checkpoint.payloadJson
    if (data.lookup (.text "schema_version")).all (!isOne ·) then
      throw (.corruptCheckpoint "checkpoint schema version does not match payload")
    else
      let phase ← parsePhase host checkpoint.phase
      match phase.modelValidate data with
      | .none => throw (.corruptCheckpoint "checkpoint payload does not match phase schema")
      | some payload =>
        let encoded ← canonicalJson payload.toJson
        if sha256Hex encoded ≠ checkpoint.payloadHash then
          throw (.corruptCheckpoint "checkpoint payload hash mismatch")
        else
          rejectSecretFields host payload.toJson
          validateCheckpointScope checkpoint payload
          return payload

end MultiClaw
