import MultiClaw.Base.Lines
import MultiClaw.Storage.Schema
import MultiClaw.Tools.Files

/-! The edit_file tool, its four ways to find a text, and the history that undo_edit reads. -/
namespace MultiClaw.EditFile

open Base

/-- A part of a text, by its start and its end. -/
abbrev Span := Nat × Nat

/-! The matchers -/

/-- `content.find(needle, start)`. -/
def find (content needle : List Char) (start : Nat) : Option Nat :=
  (List.range' start (content.length + 1 - start)).find? fun i => needle <+: content.drop i

theorem find_bounds {content needle : List Char} {start found : Nat}
    (h : find content needle start = some found) : start ≤ found ∧ found ≤ content.length := by
  have := List.mem_range'_1.mp (List.mem_of_find?_eq_some h)
  omega

def matchExactFrom (content needle : List Char) (start : Nat) : List Span :=
  match h : find content needle start with
  | none => []
  | some found =>
    (found, found + needle.length) :: matchExactFrom content needle (found + 1)
  termination_by content.length + 1 - start
  decreasing_by
    have := find_bounds h
    omega

def matchExact (content needle : List Char) : List Span := matchExactFrom content needle 0

/-- The windows of so many lines of the content that pass a test. -/
def matchLines (content : List Char) (count : Nat) (test : List (List Char) → Bool) : List Span :=
  let lines := splitLines content
  (List.range (lines.length + 1 - count)).filterMap fun index =>
    let window := (lines.drop index).take count
    let start := (lines.take index).flatten.length
    if test window then some (start, start + window.flatten.length) else none

variable (host : Host)

def matchLineTrimmed (content needle : List Char) : List Span :=
  let needleLines := (bareLines needle).map (strip host.isSpace)
  matchLines content needleLines.length fun window =>
    window.map (strip host.isSpace) = needleLines

/-- Every run of spaces as one blank; the flag says that a run has begun. -/
def collapseSpaces : Bool → List Char → List Char
  | _, [] => []
  | inRun, c :: cs =>
    if host.isSpace c then
      if inRun then collapseSpaces true cs else ' ' :: collapseSpaces true cs
    else c :: collapseSpaces false cs

def normalize (text : List Char) : List Char :=
  strip host.isSpace (collapseSpaces host false text)

def matchWhitespaceNormalized (content needle : List Char) : List Span :=
  if normalize host needle = [] then []
  else matchLines content (bareLines needle).length fun window =>
    normalize host window.flatten = normalize host needle

def indentOf (line : List Char) : Nat := (line.takeWhile host.isSpace).length

def dedent (indent : Nat) (line : List Char) : List Char :=
  if indent ≤ line.length then line.drop indent else line

/-- `line.rstrip("\r\n")`. -/
def rstripBreaks (line : List Char) : List Char :=
  (line.reverse.dropWhile (['\r', '\n'].contains ·)).reverse

def matchIndentationFlexible (content needle : List Char) : List Span :=
  let needleLines := bareLines needle
  if needleLines = [] then []
  else
    let full := needleLines.filter (strip host.isSpace · ≠ [])
    let minIndent := (full.map (indentOf host)).min?.getD 0
    let dedentedNeedle := needleLines.map (dedent minIndent)
    matchLines content dedentedNeedle.length fun window =>
      match window.map rstripBreaks with
      | [] => false
      | first :: rest =>
        strip host.isSpace first ≠ [] &&
          (first :: rest).map (dedent (indentOf host first)) = dedentedNeedle.map rstripBreaks

inductive Strategy where
  | exact
  | trimmed
  | whitespaceNormalized
  | indentationFlexible
  deriving DecidableEq, Repr

def Strategy.name : Strategy → String
  | exact => "exact"
  | trimmed => "trimmed"
  | whitespaceNormalized => "whitespace_normalized"
  | indentationFlexible => "indentation_flexible"

/-- The strategies in the order in which they are tried. -/
def strategies : List Strategy := [.exact, .trimmed, .whitespaceNormalized, .indentationFlexible]

def Strategy.spans (content needle : List Char) : Strategy → List Span
  | exact => matchExact content needle
  | trimmed => matchLineTrimmed host content needle
  | whitespaceNormalized => matchWhitespaceNormalized host content needle
  | indentationFlexible => matchIndentationFlexible host content needle

/-- The first strategy that finds anything. -/
def chosen (content needle : List Char) : Option Strategy :=
  strategies.find? fun strategy => strategy.spans host content needle ≠ []

/-! The replacement -/

structure EditFileParams where
  filePath : String
  oldString : List Char
  newString : List Char
  replaceAll : Bool := false
  deriving DecidableEq

/-- `content[:start] + new + content[end:]`. -/
def splice (new content : List Char) (span : Span) : List Char :=
  content.take span.1 ++ new ++ content.drop span.2

/-- The spans are replaced from the last to the first, each at its offsets in the old content. -/
def spliceAll (new content : List Char) (spans : List Span) : List Char :=
  spans.foldr (fun span updated => splice new updated span) content

def describeMatchLocation (content : List Char) (span : Span) : String :=
  let lineNumber := (content.take span.1).count '\n' + 1
  let lineContent := match (bareLines content)[lineNumber - 1]? with
    | some line => strip host.isSpace line
    | none => []
  s!"  Line {lineNumber}: " ++ String.ofList (lineContent.take 80)

def describeMatchLocations (content : List Char) (spans : List Span) : String :=
  "\n".intercalate (spans.map (describeMatchLocation host content))

def findAndReplace (params : EditFileParams) (content : List Char) : Except String (List Char) :=
  match chosen host content params.oldString with
  | none => .error ("No match found for old_string in the file.\n" ++
      "Ensure the text exactly matches what's in the file, including whitespace and indentation.")
  | some strategy =>
    let spans := strategy.spans host content params.oldString
    if params.replaceAll then .ok (spliceAll params.newString content spans)
    else match spans with
      | [span] => .ok (splice params.newString content span)
      | _ => .error (s!"Found {spans.length} matches (strategy: {strategy.name}). " ++
          "Provide more context to uniquely identify the target.\nMatches at:\n" ++
          describeMatchLocations host content spans)

/-! The calls -/

/-- What the tool is built with. -/
structure EditTools where
  host : Host
  resolvePath : String → String
  generateDiff : List Char → List Char → String → String
  maxHistory : Nat := 10

/-- The files, and the builder's history of every path, the oldest content first. -/
structure EditState where
  files : Files
  history : String → List (List Char) := fun _ => []

abbrev Result := Except String String

def readText (file : FileContent) (io : FileIo) : Except String (List Char) :=
  match io.readError, file with
  | some e, _ => .error s!"Error reading file: {e}"
  | none, .undecodable _ _ => .error "Cannot edit binary or non-UTF-8 file."
  | none, .text cs => .ok (universalNewlines cs)

def pushHistory (maxHistory : Nat) (entries : List (List Char)) (content : List Char) :
    List (List Char) :=
  let pushed := entries ++ [content]
  if pushed.length > maxHistory then pushed.tail else pushed

def createFile (path : String) (content : List Char) (io : FileIo) (s : EditState) :
    Result × EditState :=
  let s' := { s with files := s.files.write path content io.write }
  match io.write with
  | .done => (.ok s!"Created new file: {path}", s')
  | .failed _ e => (.error s!"Error creating file: {e}", s')

def execute (tools : EditTools) (params : EditFileParams) (io : FileIo) (s : EditState) :
    Result × EditState :=
  let path := tools.resolvePath params.filePath
  match io.policyError, s.files path with
  | some e, _ => (.error e, s)
  | none, none =>
    if params.oldString = [] then createFile path params.newString io s
    else (.error s!"File not found: {path}", s)
  | none, some file =>
    if params.oldString = params.newString then
      (.error "old_string and new_string are identical.", s)
    else match readText file io with
      | .error e => (.error e, s)
      | .ok content =>
        match findAndReplace tools.host params content with
        | .error e => (.error e, s)
        | .ok newContent =>
          -- the history grows before the write, and keeps the entry if the write fails
          let entries := pushHistory tools.maxHistory (s.history path) content
          let s' : EditState :=
            { files := s.files.write path newContent io.write
              history := Function.update s.history path entries }
          match io.write with
          | .failed _ e => (.error s!"Error writing file: {e}", s')
          | .done => (.ok (s!"Edited {path}\n" ++ tools.generateDiff content newContent path), s')

def undo (tools : EditTools) (filePath : String) (io : FileIo) (s : EditState) :
    Result × EditState :=
  let path := tools.resolvePath filePath
  match (s.history path).getLast? with
  | none => (.error s!"No edit history for: {path}", s)
  | some previous =>
    let s' : EditState :=
      { files := s.files.write path previous io.write
        history := Function.update s.history path (s.history path).dropLast }
    match io.write with
    | .failed _ e => (.error s!"Error restoring file: {e}", s')
    | .done => (.ok s!"Reverted {path} to previous state.", s')

end MultiClaw.EditFile
