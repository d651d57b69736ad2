import Mathlib

/-! The files of a workspace, as the tools read and write them. -/
namespace MultiClaw

def encodeText (cs : List Char) : List UInt8 := cs.flatMap String.utf8EncodeChar

/-- The content of a file: a text in UTF-8, or bytes that are none. -/
inductive FileContent where
  | text (cs : List Char)
  | undecodable (bytes : List UInt8) (h : ∀ cs, encodeText cs ≠ bytes)
  deriving DecidableEq

def FileContent.bytes : FileContent → List UInt8
  | text cs => encodeText cs
  | undecodable bytes _ => bytes

/-- The regular files, by their resolved paths. -/
abbrev Files := String → Option FileContent

/-- How a write ends; one that fails may leave anything in the file. -/
inductive WriteOutcome where
  | done
  | failed (left : Option FileContent) (message : String)
  deriving DecidableEq

/-- What the policy and the file system answer during one call of a tool. -/
structure FileIo where
  policyError : Option String := none
  readError : Option String := none
  write : WriteOutcome := .done
  deriving DecidableEq

def Files.write (files : Files) (path : String) (content : List Char) : WriteOutcome → Files
  | .done => Function.update files path (some (.text content))
  | .failed left _ => Function.update files path left

@[simp]
theorem Files.write_done (files : Files) (path : String) (content : List Char) :
    files.write path content .done path = some (.text content) := by
  rw [write, Function.update_self]

theorem Files.write_of_ne (files : Files) {path other : String} (h : other ≠ path)
    (content : List Char) (outcome : WriteOutcome) :
    files.write path content outcome other = files other := by
  cases outcome <;> exact Function.update_of_ne h _ _

end MultiClaw
