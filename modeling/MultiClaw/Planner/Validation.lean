import MultiClaw.Base.Regex
import MultiClaw.Workflow.Checkpoint

/-! Validation of plan drafts: their dependency graph, their size, and text that looks like a
credential. -/
namespace MultiClaw

open Base

def maxPlanContentBytes : Nat := 262144

namespace SecretPattern

open Regex

variable (host : Host)

/-- Letters that match regardless of case also match the few letters outside ASCII that Unicode
folds with them. -/
def ignoreCase (p : Char → Bool) (c : Char) : Bool :=
  p c || p c.toLower || p c.toUpper ||
    (c.toNat == 0x130 || c.toNat == 0x131) && p 'i' || c.toNat == 0x17f && p 's' ||
    c.toNat == 0x212a && p 'k'

def word (s : String) : Regex := literal (fun a b => ignoreCase (· == a) b) s

def space : Regex := char host.isSpace

def notSpace : Regex := char fun c => !host.isSpace c

def boundary : Regex := wordBoundary fun c => host.isAlnum c || c == '_'

def dash : Regex := char fun c => c == '_' || c == '-'

def secretAssignmentName : Regex :=
  oneOf [seq (word "api") (seq (optional dash) (word "key")),
    seq (word "access") (seq (optional dash) (word "token")),
    seq (word "refresh") (seq (optional dash) (word "token")), word "password", word "secret"]

def secretName : Regex := alt (word "authorization") secretAssignmentName

/-- From a quote to the next one that is not escaped, or to the end of the text. -/
def quoted (quote : Char) : Regex :=
  let anything := char fun _ => true
  seq (char (· == quote))
    (alt (seq (star (alt (seq (char (· == '\\')) anything)
        (char fun c => c != quote && c != '\\'))) (char (· == quote)))
      (seq (star anything) atEnd))

def quotedAssignmentValue : Regex := alt (quoted '"') (quoted '\'')

def assignmentValue : Regex := alt quotedAssignmentValue (plus (notSpace host))

def assignmentSign : Regex :=
  seq (star (space host)) (seq (char fun c => c == ':' || c == '=') (star (space host)))

def authorizationScheme : Regex :=
  oneOf [word "basic", word "bearer", word "digest", word "token", word "negotiate"]

def authorizationAssignment : Regex :=
  seq (word "authorization") (seq (assignmentSign host) (alt quotedAssignmentValue
    (seq authorizationScheme (seq (plus (space host)) (assignmentValue host)))))

def secretAssignment : Regex :=
  seq secretAssignmentName (seq (assignmentSign host) (assignmentValue host))

def bearerTokenChar : Regex :=
  char (ignoreCase fun c => c.isAlphanum || "._~+/=-".toList.contains c)

def standaloneBearer : Regex :=
  seq (boundary host) (seq (word "bearer") (seq (plus (space host))
    (seq (followedBy (seq (times 8 bearerTokenChar) (seq (star bearerTokenChar)
      (notFollowedBy bearerTokenChar)))) (plus bearerTokenChar))))

def tokenPrefix : Regex :=
  seq (boundary host) (seq
    (oneOf [seq (word "sk") dash, seq (word "ghp") dash, word "github_pat_"])
    (plus (char (ignoreCase fun c => c.isAlphanum || c == '_' || c == '-'))))

def secretValue : Regex :=
  oneOf [authorizationAssignment host, secretAssignment host, standaloneBearer host,
    tokenPrefix host]

end SecretPattern

mutual

def rejectCredentials (host : Host) : Json → Except String Unit
  | .obj members => rejectMemberCredentials host members
  | .arr items => rejectItemCredentials host items
  | .str (.text s) =>
    if (SecretPattern.secretValue host).search s then
      .error "Plan contains credential-shaped content"
    else .ok ()
  | _ => .ok ()

def rejectMemberCredentials (host : Host) : List (PyStr × Json) → Except String Unit
  | [] => .ok ()
  | (key, item) :: members => do
    match key with
    | .text k =>
      if SecretPattern.secretName.search k then .error "Plan contains credential-shaped field"
      else .ok ()
    | .lone _ => .ok ()
    rejectCredentials host item
    rejectMemberCredentials host members

def rejectItemCredentials (host : Host) : List Json → Except String Unit
  | [] => .ok ()
  | item :: items => do
    rejectCredentials host item
    rejectItemCredentials host items

end

def jsonString (s : String) : Json := .str (.text s)

/-! The members of an object stand in the order in which they are printed. -/

def ValidatedPlanStep.toJson (s : ValidatedPlanStep) : Json :=
  .obj [(.text "depends_on", .arr (s.dependsOn.map jsonString)),
    (.text "description", jsonString s.description),
    (.text "expected_outcome", jsonString s.expectedOutcome),
    (.text "logical_step_key", jsonString s.logicalStepKey),
    (.text "max_attempts", .int s.maxAttempts), (.text "ordinal", .int s.ordinal),
    (.text "title", jsonString s.title)]

def ValidatedPlanDraft.toJson (d : ValidatedPlanDraft) : Json :=
  .obj [(.text "constraints", .arr (d.constraints.map jsonString)),
    (.text "generation_reason", jsonString d.generationReason),
    (.text "objective", jsonString d.objective), (.text "steps", .arr (d.steps.map (·.toJson)))]

/-- A plan has only strings and small numbers, which always have a canonical text. -/
def canonicalPlanText (plan : ValidatedPlanDraft) : String := plan.toJson.dumps.getD ""

def planContentDigest (plan : ValidatedPlanDraft) : String := sha256Hex (canonicalPlanText plan)

def stepDefinitionDigest (s : PlanDraftStep) : String :=
  sha256Hex ((Json.obj [(.text "description", jsonString s.description),
    (.text "expected_outcome", jsonString s.expectedOutcome),
    (.text "logical_step_key", jsonString s.logicalStepKey),
    (.text "max_attempts", .int s.maxAttempts), (.text "title", jsonString s.title)]).dumps.getD "")

/-! The dependency graph -/

namespace PlanDraft

def keys (d : PlanDraft) : List String := d.steps.map (·.logicalStepKey)

/-- The place of a step in the draft. -/
def original (d : PlanDraft) (key : String) : Nat := d.keys.idxOf key

/-- The steps that depend on a step, in their order in the draft. -/
def outgoing (d : PlanDraft) (key : String) : List String :=
  (d.steps.filter (key ∈ ·.dependsOn)).map (·.logicalStepKey)

def byKey? (d : PlanDraft) (key : String) : Option PlanDraftStep :=
  d.steps.find? (·.logicalStepKey == key)

end PlanDraft

def checkDependency (d : PlanDraft) (s : PlanDraftStep) (dependency : String) :
    Except String Unit :=
  if dependency = s.logicalStepKey then .error "self dependency"
  else if dependency ∉ d.keys then .error ("missing dependency " ++ dependency)
  else .ok ()

def checkStep (d : PlanDraft) (maxAttempts : Nat) (s : PlanDraftStep) : Except String Unit :=
  if maxAttempts < s.maxAttempts then .error "step max_attempts exceeds configured limit"
  else if ¬s.dependsOn.Nodup then .error "duplicate dependency"
  else s.dependsOn.forM (checkDependency d s)

/-- The state of the topological sort. -/
structure PlanSort where
  ready : List String
  ordered : List String := []
  indegree : String → Nat
  depth : String → Nat := fun _ => 1

/-- Count down a child of the step that was ordered last. -/
def PlanSort.visit (d : PlanDraft) (maxDepth : Nat) (key : String) (s : PlanSort) (child : String) :
    Except String PlanSort :=
  let depth := max (s.depth child) (s.depth key + 1)
  if min maxDepth 10 < depth then .error "dependency depth exceeds configured limit"
  else
    let indegree := s.indegree child - 1
    .ok { s with
      depth := Function.update s.depth child depth
      indegree := Function.update s.indegree child indegree
      ready := if indegree = 0 then
          (s.ready ++ [child]).insertionSort fun a b => d.original a ≤ d.original b
        else s.ready }

/-- Each step becomes ready at most once, so there are no more rounds than steps. -/
def PlanSort.run (d : PlanDraft) (maxDepth : Nat) : Nat → PlanSort → Except String PlanSort
  | 0, s => .ok s
  | n + 1, s =>
    match s.ready with
    | [] => .ok s
    | key :: ready => do
      let s ← (d.outgoing key).foldlM (PlanSort.visit d maxDepth key)
        { s with ready, ordered := s.ordered ++ [key] }
      PlanSort.run d maxDepth n s

def PlanDraft.sorted (d : PlanDraft) (maxDepth : Nat) : Except String (List String) := do
  let s ← PlanSort.run d maxDepth d.steps.length
    { ready := (d.steps.filter (·.dependsOn.isEmpty)).map (·.logicalStepKey)
      indegree := fun key => ((d.byKey? key).map (·.dependsOn.length)).getD 0 }
  if s.ordered.length ≠ d.steps.length then .error "Plan dependency cycle"
  else return s.ordered

def PlanDraft.arrange (d : PlanDraft) (ordered : List String) : ValidatedPlanDraft :=
  { objective := d.objective, constraints := d.constraints, generationReason := d.generationReason
    steps := (ordered.filterMap d.byKey?).zipIdx.map fun (s, i) =>
      { s with
        dependsOn := s.dependsOn.insertionSort fun a b => ordered.idxOf a ≤ ordered.idxOf b
        ordinal := i + 1 } }

def requirePositiveInt (value : Nat) (name : String) : Except String Unit :=
  if value = 0 then .error (name ++ " must be a positive integer") else .ok ()

def validatePlanDraft (host : Host) (d : PlanDraft) (maxSteps maxDepth maxAttempts : Nat)
    (maxContentBytes : Nat := maxPlanContentBytes) : Except String ValidatedPlanDraft := do
  requirePositiveInt maxSteps "max_steps"
  requirePositiveInt maxDepth "max_depth"
  requirePositiveInt maxAttempts "max_attempts"
  requirePositiveInt maxContentBytes "max_content_bytes"
  if min maxSteps 20 < d.steps.length then .error "Plan exceeds configured step limit"
  if ¬d.keys.Nodup then .error "duplicate logical_step_key"
  d.steps.forM (checkStep d maxAttempts)
  let validated := d.arrange (← d.sorted maxDepth)
  rejectCredentials host validated.toJson
  let contentLimit := min maxContentBytes maxPlanContentBytes
  if contentLimit < utf8Length (canonicalPlanText validated) then
    .error ("Plan content exceeds " ++ toString contentLimit ++ " bytes")
  return validated

end MultiClaw
