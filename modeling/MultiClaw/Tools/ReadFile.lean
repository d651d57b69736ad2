import MultiClaw.Base.Lines
import MultiClaw.Storage.Schema
import MultiClaw.Tools.Files

/-! The read_file tool, and its pages as the hints lead through them. -/
namespace MultiClaw.ReadFile

open Base

structure ReadTools where
  host : Host
  isSpace_of_isLineBreak : ∀ c, isLineBreak c = true → host.isSpace c = true

structure ReadFileParams where
  offset : Nat := 1
  limit : Nat := 2000
  offset_pos : 1 ≤ offset := by decide
  limit_pos : 1 ≤ limit := by decide

/-- A file in UTF-8, or one in another encoding, whose first lines may pass for UTF-8. -/
inductive Decoding where
  | utf8 (text : List Char)
  | other (size : Nat) (early : List (List Char)) (text : List Char)

/-- What a path leads to. -/
inductive FileView where
  | denied (error : String)
  | absent (suggestion : Option String)
  | notRegular
  | binary
  | unreadable (error : String)
  | regular (decoding : Decoding)

def streamThreshold : Nat := 10 * 1024 * 1024

def Decoding.size : Decoding → Nat
  | utf8 text => (encodeText text).length
  | other size _ _ => size

def Decoding.text : Decoding → List Char
  | utf8 text => text
  | other _ _ text => text

/-- The lines that a handle yields: they end at a line feed, and at nothing else. -/
def handleLines : List Char → List (List Char)
  | [] => []
  | c :: cs => if c = '\n' then [c] :: handleLines cs else consLine c (handleLines cs)

variable (tools : ReadTools)

def numberedRow (width : Nat) (row : List Char × Nat) : List Char :=
  (Nat.toDigits 10 row.2).leftpad width ' ' ++ '\t' :: row.1.rdropWhile tools.host.isSpace

def addLineNumbers (offset : Nat) (lines : List (List Char)) : List Char :=
  let width := (Nat.toDigits 10 (offset + lines.length)).length
  ['\n'].intercalate ((lines.zipIdx offset).map (numberedRow tools width))

/-- The text of a page and the number of lines of the file. -/
abbrev Page := List Char × Nat

def sliceLines (params : ReadFileParams) (allLines : List (List Char)) : Page :=
  let total := allLines.length
  let start := params.offset - 1
  if start ≥ total then ([], total)
  else
    let stop := min total (start + params.limit)
    (addLineNumbers tools params.offset ((allLines.take stop).drop start), total)

def readStandard (params : ReadFileParams) (decoding : Decoding) : Page :=
  sliceLines tools params (splitLines (universalNewlines decoding.text))

/-- One pass over a handle, from the lines and the count of an earlier one. -/
def streamPass (params : ReadFileParams) (acc : List (List Char) × Nat)
    (input : List (List Char)) : List (List Char) × Nat :=
  input.zipIdx.foldl (fun acc entry =>
    (if params.offset - 1 ≤ entry.2 ∧ acc.1.length < params.limit then acc.1 ++ [entry.1]
      else acc.1, acc.2 + 1)) acc

def readStreaming (params : ReadFileParams) (decoding : Decoding) : Page :=
  let (lines, total) := match decoding with
    | .utf8 text => streamPass params ([], 0) (handleLines (universalNewlines text))
    -- the second pass goes on with what the first one had collected
    | .other _ early text => streamPass params (streamPass params ([], 0) early)
        (handleLines (universalNewlines text))
  (addLineNumbers tools params.offset lines, total)

structure ReadOutput where
  path : String
  offset : Nat
  endLine : Nat
  totalLines : Nat
  content : List Char
  deriving DecidableEq

def ReadOutput.hint (output : ReadOutput) : Option Nat :=
  if output.endLine < output.totalLines then some (output.endLine + 1) else none

def execute (path : String) (view : FileView) (params : ReadFileParams) :
    Except String ReadOutput :=
  match view with
  | .denied e => .error e
  | .absent none => .error s!"File not found: {path}"
  | .absent (some suggestion) => .error s!"File not found: {path}\nDid you mean: {suggestion}?"
  | .notRegular => .error s!"Not a regular file: {path}"
  | .binary => .error (s!"Cannot read binary file: {path}\n" ++
      "Use appropriate tools for binary file formats.")
  | .unreadable e => .error s!"Error reading file: {e}"
  | .regular decoding =>
    let (content, total) :=
      if decoding.size ≥ streamThreshold then readStreaming tools params decoding
      else readStandard tools params decoding
    let shown := (splitLines content).length
    .ok ⟨path, params.offset, params.offset + shown - 1, total, content⟩

/-- The pages that the hints lead to, if they end within so many calls. -/
def followHints (path : String) (view : FileView) : Nat → ReadFileParams → Option (List ReadOutput)
  | 0, _ => none
  | calls + 1, params =>
    match execute tools path view params with
    | .error _ => none
    | .ok output =>
      match output.hint with
      | none => some [output]
      | some next =>
        if h : 1 ≤ next then
          (output :: ·) <$> followHints path view calls
            { params with offset := next, offset_pos := h }
        else none

end MultiClaw.ReadFile
