import MultiClaw.Base.Lines
import MultiClaw.Storage.Schema

/-! The glob and grep tools, through each of their backends. -/
namespace MultiClaw.Search

open Base

/-- A file below the searched directory. -/
structure TreeFile where
  components : List (List Char)
  text : List Char
  mtime : Nat
  components_ne_nil : components ≠ []
  names : ∀ name ∈ components, name ≠ [] ∧ '/' ∉ name
  deriving DecidableEq

/-- Its path, relative to the directory. -/
def TreeFile.path (file : TreeFile) : List Char := ['/'].intercalate file.components

/-- The directory's own components, and its files in the order of a walk. -/
structure Tree where
  root : List (List Char)
  files : List TreeFile

structure Report where
  header : String
  entries : List (List Char)
  deriving DecidableEq

abbrev Result := Except String Report

/-! The output of the programs -/

/-- A line that a program shows of a file, or one between two groups of them. -/
inductive Shown where
  | found (number : Nat) (text : List Char)
  | context (number : Nat) (text : List Char)
  | separator
  deriving DecidableEq

inductive OutputLine where
  | entry (path suffix : List Char)
  | separator
  deriving DecidableEq

def foundSuffix (number : Nat) (text : List Char) : List Char :=
  ':' :: Nat.toDigits 10 number ++ ':' :: text

def contextSuffix (number : Nat) (text : List Char) : List Char :=
  '-' :: Nat.toDigits 10 number ++ '-' :: text

def Shown.line (path : List Char) : Shown → OutputLine
  | found number text => .entry path (foundSuffix number text)
  | context number text => .entry path (contextSuffix number text)
  | separator => .separator

def OutputLine.text : OutputLine → List Char
  | entry path suffix => '.' :: '/' :: (path ++ suffix)
  | separator => ['-', '-']

/-- A run of rg or grep over a tree: what it has searched, and what it has found there. -/
structure ProgramRun (tree : Tree) where
  code : Int
  stderr : String
  files : List TreeFile
  count : TreeFile → Nat
  shown : TreeFile → List Shown
  mem_tree : ∀ file ∈ files, file ∈ tree.files
  shown_of_count : ∀ file, count file = 0 → shown file = []

/-- The standard output as text mode reads it. -/
def stdout (lines : List OutputLine) : List Char :=
  universalNewlines (lines.flatMap fun line => line.text ++ ['\n'])

/-- `[line.lstrip("./") for line in stdout.splitlines() if line.strip()]`. -/
def outputEntries (host : Host) (out : List Char) : List (List Char) :=
  ((bareLines out).filter (strip host.isSpace · ≠ [])).map (·.dropWhile (['.', '/'].contains ·))

/-! glob -/

def maxGlobResults : Nat := 100

def formatFiles (files : List (List Char)) : Report :=
  if files = [] then ⟨"No files matched.", []⟩
  else
    let shown := files.take maxGlobResults
    let header := s!"Found {shown.length} file(s)"
    ⟨if files.length > maxGlobResults then
        header ++ s!" (truncated to {maxGlobResults}, use a more specific pattern)" else header,
      shown⟩

variable {tree : Tree} (host : Host)

def globRipgrep (run : ProgramRun tree) : Result :=
  if run.code ≠ 0 ∧ run.code ≠ 1 then .error s!"ripgrep error: {run.stderr}"
  else .ok (formatFiles (outputEntries host
    (stdout (run.files.map fun file => .entry file.path []))))

/-- The pattern for `Path.glob`. -/
def pythonPattern (pattern : List Char) : List Char :=
  if ¬ ['*', '*', '/'] <+: pattern ∧ '/' ∉ pattern then ['*', '*', '/'] ++ pattern else pattern

def globPython (globs : List Char → TreeFile → Bool) (tree : Tree) (pattern : List Char) : Result :=
  let found := tree.files.filter fun file =>
    globs (pythonPattern pattern) file && !(tree.root ++ file.components).contains ".git".toList
  let sorted := found.mergeSort fun a b => b.mtime ≤ a.mtime
  .ok (formatFiles (sorted.map (·.path)))

def glob (globs : List Char → TreeFile → Bool) (tree : Tree) (pattern : List Char)
    (rg : Option (ProgramRun tree)) : Result :=
  match rg.map (globRipgrep host) with
  | some (.ok report) => .ok report
  | _ => globPython globs tree pattern

/-! grep -/

def maxGrepResults : Nat := 100
def maxGrepLineLength : Nat := 500

structure GrepParams where
  outputMode : String := "content"
  /-- The file's name passes the include patterns. -/
  included : List Char → Bool := fun _ => true

/-- The compiled pattern. -/
structure Pattern where
  search : List Char → Bool
  findall : List Char → Nat

def noMatches : Report := ⟨"No matches found.", []⟩

def formatLines (outputMode : String) (lines : List (List Char)) : Report :=
  if lines = [] then noMatches
  else
    let shown := lines.take maxGrepResults
    let header :=
      if outputMode = "files_with_matches" then s!"Found {shown.length} file(s) with matches"
      else if outputMode = "count" then s!"{shown.length} file(s) with matches"
      else s!"Found {shown.length} match(es)"
    ⟨if lines.length > maxGrepResults then header ++ s!" (limited to {maxGrepResults})" else header,
      shown⟩

/-- What the programs print; with `-c` grep prints a line for every file, rg for those found. -/
def programLines (run : ProgramRun tree) (outputMode : String) (countsAll : Bool) :
    List OutputLine :=
  let found := run.files.filter (run.count · ≠ 0)
  if outputMode = "files_with_matches" then found.map fun file => .entry file.path []
  else if outputMode = "count" then
    (if countsAll then run.files else found).map fun file =>
      .entry file.path (':' :: Nat.toDigits 10 (run.count file))
  else found.flatMap fun file => (run.shown file).map (Shown.line file.path)

def grepProgram (name : String) (countsAll : Bool) (params : GrepParams) (run : ProgramRun tree) :
    Result :=
  if run.code = 2 then .error s!"{name} error: {run.stderr}"
  else if run.code = 1 then .ok noMatches
  else .ok (formatLines params.outputMode (outputEntries host
    (stdout (programLines run params.outputMode countsAll))))

def vcsDirs : List (List Char) := [".git".toList, ".svn".toList, ".hg".toList]

/-- The walk does not enter hidden directories. -/
def walkFiles (tree : Tree) : List TreeFile :=
  tree.files.filter fun file => file.components.dropLast.all fun name =>
    !vcsDirs.contains name && !(['.'].isPrefixOf name)

def searchedFiles (params : GrepParams) (tree : Tree) : List TreeFile :=
  (walkFiles tree).filter fun file => params.included (file.components.getLastD [])

def countEntries (pattern : Pattern) (files : List TreeFile) : List (List Char) :=
  (files.filter (pattern.findall ·.text > 0)).map fun file =>
    file.path ++ ':' :: Nat.toDigits 10 (pattern.findall file.text)

/-- The lines of one file, until there are enough matches. -/
def scanLines (pattern : Pattern) (path : List Char) :
    List (List Char × Nat) → List (List Char) → List (List Char)
  | [], entries => entries
  | (line, number) :: lines, entries =>
    if pattern.search line then
      let entries := entries ++ [path ++ foundSuffix number (line.take maxGrepLineLength)]
      if entries.length ≥ maxGrepResults then entries else scanLines pattern path lines entries
    else scanLines pattern path lines entries

def contentEntries (pattern : Pattern) : List TreeFile → List (List Char) → List (List Char)
  | [], entries => entries
  | file :: files, entries =>
    let entries := scanLines pattern file.path ((bareLines file.text).zipIdx 1) entries
    if entries.length ≥ maxGrepResults then entries else contentEntries pattern files entries

def fileEntries (pattern : Pattern) : List TreeFile → List (List Char) → List (List Char)
  | [], entries => entries
  | file :: files, entries =>
    if (bareLines file.text).any pattern.search then
      let entries := entries ++ [file.path]
      if entries.length ≥ maxGrepResults then entries else fileEntries pattern files entries
    else fileEntries pattern files entries

def grepPython (params : GrepParams) (pattern : Except String Pattern) (tree : Tree) : Result :=
  match pattern with
  | .error e => .error s!"Invalid regex: {e}"
  | .ok pattern =>
    let files := searchedFiles params tree
    .ok (formatLines params.outputMode
      (if params.outputMode = "count" then countEntries pattern files
        else if params.outputMode = "files_with_matches" then fileEntries pattern files []
        else contentEntries pattern files []))

def grep (params : GrepParams) (pattern : Except String Pattern) (tree : Tree)
    (rg gnuGrep : Option (ProgramRun tree)) : Result :=
  match rg.map (grepProgram host "ripgrep" false params) with
  | some (.ok report) => .ok report
  | _ =>
    match gnuGrep.map (grepProgram host "grep" true params) with
    | some (.ok report) => .ok report
    | _ => grepPython params pattern tree

end MultiClaw.Search
