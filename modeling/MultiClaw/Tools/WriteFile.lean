import MultiClaw.Base.Replace
import MultiClaw.Tools.EditFile
import MultiClaw.Tools.ReadFileSpec

/-! The write_file tool next to the other file tools, and what it overwrites. -/
namespace MultiClaw.WriteFile

open Base

/-- A file and its modification time. -/
structure Stamped (τ : Type) where
  content : FileContent
  mtime : τ
  deriving DecidableEq

/-- What the three tools are built with; write_file has the builder of read_file or none. -/
structure WorkTools where
  read : ReadFile.ReadTools
  edit : EditFile.EditTools
  isBinary : FileContent → Bool
  decode : List UInt8 → ReadFile.Decoding
  readBuilder : Bool := true
  requireReadBeforeWrite : Bool := true

structure WorkState (τ : Type) where
  files : String → Option (Stamped τ)
  readState : String → Option τ := fun _ => none
  history : String → List (List Char) := fun _ => []
  /-- What a file held when a tool last read or wrote it. -/
  lastSeen : String → Option FileContent := fun _ => none

/-! write_file -/

def indicators : List String :=
  ["... rest of", "// ...", "# ...", "/* ... */", "... remaining", "... other methods",
    "... (unchanged)", "[rest of the code]", "[remaining code]"]

def detectPlaceholder (host : Host) (content : List Char) : Option (List Char) :=
  ((bareLines content).map (strip host.isSpace)).find? fun line =>
    indicators.any fun indicator =>
      indicator.toList <:+: (host.lower (String.ofList line)).toList

/-- An error result, or an exception that leaves the call. -/
inductive Failure where
  | error (content : String)
  | unicodeDecodeError
  deriving DecidableEq, Repr

variable {τ : Type}

/-- The tools leave this behind at a path. -/
def WorkState.put (s : WorkState τ) (path : String) (file : Option (Stamped τ)) : WorkState τ :=
  { s with
    files := Function.update s.files path file
    lastSeen := Function.update s.lastSeen path (file.map (·.content)) }

def createFile (path : String) (content : List Char) (io : FileIo) (mtime : τ) (s : WorkState τ) :
    Except Failure String × WorkState τ :=
  match io.write with
  | .done => (.ok s!"Created new file: {path}", s.put path (some ⟨.text content, mtime⟩))
  | .failed left e =>
    (.error (.error s!"Error writing file: {e}"), s.put path (left.map (⟨·, mtime⟩)))

/-- The new text goes to a temporary file, which is moved over the old one or removed. -/
def overwrite (tools : WorkTools) (path : String) (file : Stamped τ) (content : List Char)
    (io : FileIo) (mtime : τ) (s : WorkState τ) : Except Failure String × WorkState τ :=
  match io.readError, file.content, io.write with
  | some e, _, _ => (.error (.error s!"Error writing file: {e}"), s)
  | none, .undecodable _ _, _ => (.error .unicodeDecodeError, s)
  | none, .text _, .failed _ e => (.error (.error s!"Error writing file: {e}"), s)
  | none, .text old, .done =>
    (.ok (s!"Updated file: {path}\n" ++
        tools.edit.generateDiff (universalNewlines old) content path),
      s.put path (some ⟨.text content, mtime⟩))

variable [LinearOrder τ]

def checkRead (tools : WorkTools) (saved : Option τ) (current : τ) : Option String :=
  if tools.requireReadBeforeWrite && tools.readBuilder then
    match saved with
    | none => some "File has not been read yet. Read it first before writing to it."
    | some saved =>
      if current > saved then
        some "File has been modified since last read. Read it again to see the current content."
      else none
  else none

def execute (tools : WorkTools) (filePath : String) (content : List Char) (io : FileIo) (mtime : τ)
    (s : WorkState τ) : Except Failure String × WorkState τ :=
  let path := tools.edit.resolvePath filePath
  match io.policyError, detectPlaceholder tools.edit.host content with
  | some e, _ => (.error (.error e), s)
  | none, some placeholder =>
    (.error (.error (s!"Content contains omission placeholder: '" ++ String.ofList placeholder ++
      "'\nPlease provide the complete file content.")), s)
  | none, none =>
    let content := replaceAll ['\r', '\n'] ['\n'] content
    match s.files path with
    | none => createFile path content io mtime s
    | some file =>
      match checkRead tools (s.readState path) file.mtime with
      | some e => (.error (.error e), s)
      | none => overwrite tools path file content io mtime s

/-! The other tools, and the world outside -/

def fileView (tools : WorkTools) (io : FileIo) (file : Option FileContent) : ReadFile.FileView :=
  match io.policyError, file, io.readError with
  | some e, _, _ => .denied e
  | none, none, _ => .absent none
  | none, some content, readError =>
    if tools.isBinary content then .binary
    else match readError, content with
      | some e, _ => .unreadable e
      | none, .text cs => .regular (.utf8 cs)
      | none, .undecodable bytes _ => .regular (tools.decode bytes)

def readFile (tools : WorkTools) (filePath : String) (params : ReadFile.ReadFileParams)
    (io : FileIo) (s : WorkState τ) : WorkState τ :=
  let path := tools.edit.resolvePath filePath
  let content := (s.files path).map (·.content)
  match ReadFile.execute tools.read path (fileView tools io content) params with
  | .error _ => s
  | .ok _ =>
    { s with
      readState := Function.update s.readState path ((s.files path).map (·.mtime))
      lastSeen := Function.update s.lastSeen path content }

/-- The edit gets to read the text of the file. -/
def editReads (params : EditFile.EditFileParams) (io : FileIo) (file : Option FileContent) : Bool :=
  match io.policyError, file with
  | none, some content =>
    params.oldString ≠ params.newString && (EditFile.readText content io).isOk
  | _, _ => false

def editFile (tools : WorkTools) (params : EditFile.EditFileParams) (io : FileIo) (mtime : τ)
    (s : WorkState τ) : WorkState τ :=
  let path := tools.edit.resolvePath params.filePath
  let before : EditFile.EditState := ⟨fun path => (s.files path).map (·.content), s.history⟩
  let after := (EditFile.execute tools.edit params io before).2
  -- the write is made if it would succeed with a file system that lets it
  let writes := (EditFile.execute tools.edit params { io with write := .done } before).1.isOk
  let s := { s with history := after.history }
  if writes then s.put path ((after.files path).map (⟨·, mtime⟩))
  else if editReads params io (before.files path) then
    { s with lastSeen := Function.update s.lastSeen path (before.files path) }
  else s

inductive Event (τ : Type) where
  | read (filePath : String) (params : ReadFile.ReadFileParams) (io : FileIo)
  | write (filePath : String) (content : List Char) (io : FileIo) (mtime : τ)
  | edit (params : EditFile.EditFileParams) (io : FileIo) (mtime : τ)
  /-- Someone else changes, creates or deletes the file. -/
  | modify (path : String) (file : Option (Stamped τ))

def step (tools : WorkTools) (s : WorkState τ) : Event τ → WorkState τ
  | .read filePath params io => readFile tools filePath params io s
  | .write filePath content io mtime => (execute tools filePath content io mtime s).2
  | .edit params io mtime => editFile tools params io mtime s
  | .modify path file => { s with files := Function.update s.files path file }

/-! Overwritten files have been seen -/

variable {tools : WorkTools} {s : WorkState τ} {path filePath : String} {content : List Char}
  {io : FileIo} {mtime : τ} {event : Event τ} {file : Stamped τ}

/-- A change from outside is later than the time that a read has saved. -/
def Later (s : WorkState τ) : Event τ → Prop
  | .modify path (some file) => ∀ saved, s.readState path = some saved → saved < file.mtime
  | _ => True

/-- The states of the runs in which every change from outside is later. -/
inductive Run (tools : WorkTools) : WorkState τ → Prop
  | start (files : String → Option (Stamped τ)) : Run tools { files := files }
  | step {s : WorkState τ} (event : Event τ) (h : Run tools s) (hlater : Later s event) :
      Run tools (step tools s event)

/-- A file that is no later than its last read is as the tools last saw it. -/
def Seen (s : WorkState τ) (path : String) : Prop :=
  ∀ file saved, s.files path = some file → s.readState path = some saved → file.mtime ≤ saved →
    s.lastSeen path = some file.content

theorem seen_put (h : Seen s path) (other : String) (new : Option (Stamped τ)) :
    Seen (s.put other new) path := by
  intro file saved hfile hsaved hle
  by_cases hpath : path = other
  · subst hpath
    simp only [WorkState.put, Function.update_self] at hfile ⊢
    rw [hfile, Option.map_some]
  · simp only [WorkState.put, Function.update_of_ne hpath] at hfile ⊢
    exact h file saved hfile hsaved hle

theorem seen_of_lastSeen (h : Seen s path) {other : String} :
    Seen { s with lastSeen :=
      Function.update s.lastSeen other ((s.files other).map (·.content)) } path := by
  intro file saved hfile hsaved hle
  by_cases hpath : path = other
  · subst hpath
    simp only [Function.update_self]
    rw [hfile, Option.map_some]
  · simp only [Function.update_of_ne hpath]
    exact h file saved hfile hsaved hle

theorem seen_readFile (h : Seen s path) (params : ReadFile.ReadFileParams) :
    Seen (readFile tools filePath params io s) path := by
  rw [readFile]
  split
  · exact h
  · intro file saved hfile hsaved hle
    by_cases hpath : path = tools.edit.resolvePath filePath
    · subst hpath
      simp only [Function.update_self]
      rw [hfile, Option.map_some]
    · simp only [Function.update_of_ne hpath] at hsaved ⊢
      exact h file saved hfile hsaved hle

/-- A call of write_file changes nothing, or leaves its file behind. -/
theorem execute_cases (tools : WorkTools) (filePath : String) (content : List Char) (io : FileIo)
    (mtime : τ) (s : WorkState τ) :
    (execute tools filePath content io mtime s).2 = s ∨
      ∃ file, (execute tools filePath content io mtime s).2 =
        s.put (tools.edit.resolvePath filePath) file := by
  rw [execute]
  dsimp only
  split
  · exact .inl rfl
  · exact .inl rfl
  · split
    · rw [createFile]
      split
      · exact .inr ⟨_, rfl⟩
      · exact .inr ⟨_, rfl⟩
    · split
      · exact .inl rfl
      · rw [overwrite]
        split
        · exact .inl rfl
        · exact .inl rfl
        · exact .inl rfl
        · exact .inr ⟨_, rfl⟩

theorem seen_execute (h : Seen s path) :
    Seen (execute tools filePath content io mtime s).2 path := by
  rcases execute_cases tools filePath content io mtime s with hs | ⟨file, hs⟩
  · rw [hs]
    exact h
  · rw [hs]
    exact seen_put h _ file

theorem seen_editFile (h : Seen s path) (params : EditFile.EditFileParams) :
    Seen (editFile tools params io mtime s) path := by
  rw [editFile]
  dsimp only
  split
  · exact seen_put h _ _
  · split
    · exact seen_of_lastSeen h
    · exact h

theorem seen_step (h : Seen s path) (hlater : Later s event) : Seen (step tools s event) path := by
  cases event with
  | read filePath params io => exact seen_readFile h params
  | write filePath content io mtime => exact seen_execute h
  | edit params io mtime => exact seen_editFile h params
  | modify other new =>
    intro file saved hfile hsaved hle
    by_cases hpath : path = other
    · subst hpath
      simp only [step, Function.update_self] at hfile
      subst hfile
      exact absurd hle (not_le.mpr (hlater saved hsaved))
    · simp only [step, Function.update_of_ne hpath] at hfile
      exact h file saved hfile hsaved hle

theorem seen_of_run (h : Run tools s) : Seen s path := by
  induction h with
  | start files =>
    intro file saved hfile hsaved
    cases hsaved
  | step event h hlater ih => exact seen_step ih hlater

theorem checkRead_eq_none (hcheck : tools.requireReadBeforeWrite = true)
    (hbuilder : tools.readBuilder = true) {saved : Option τ} {current : τ}
    (h : checkRead tools saved current = none) : ∃ time, saved = some time ∧ current ≤ time := by
  unfold checkRead at h
  rw [hcheck, hbuilder] at h
  cases saved with
  | none => cases h
  | some time =>
    refine ⟨time, rfl, ?_⟩
    by_contra hlt
    rw [not_le] at hlt
    simp [hlt] at h

/-- write_file overwrites only what the tools have seen. -/
theorem overwrites_only_seen (h : Run tools s) (hcheck : tools.requireReadBeforeWrite = true)
    (hbuilder : tools.readBuilder = true)
    (hfile : s.files (tools.edit.resolvePath filePath) = some file)
    (hok : (execute tools filePath content io mtime s).1.isOk) :
    s.lastSeen (tools.edit.resolvePath filePath) = some file.content := by
  rw [execute] at hok
  simp only [hfile] at hok
  split at hok
  · cases hok
  · cases hok
  · split at hok
    · cases hok
    next hnone =>
      obtain ⟨saved, hsaved, hle⟩ := checkRead_eq_none hcheck hbuilder hnone
      exact seen_of_run h file saved hfile hsaved hle

/-- Tools that know ASCII, and take no file for binary. -/
def plainTools : WorkTools where
  read := ReadFile.plainTools
  edit := { host := .ascii, resolvePath := id, generateDiff := fun _ _ _ => "" }
  isBinary _ := false
  decode _ := .utf8 []

def oneFile (file : Stamped Nat) : WorkState Nat where
  files path := if path = "f" then some file else none

/-- A file with the text a and the time five, after it has been read. -/
def readOnce : WorkState Nat := step plainTools (oneFile ⟨.text ['a'], 5⟩) (.read "f" {} {})

theorem overwrites_only_seen_sample : readOnce.lastSeen "f" = some (.text ['a']) := by
  have hrun : Run plainTools readOnce := .step _ (.start _) trivial
  have hfile : readOnce.files "f" = some ⟨.text ['a'], 5⟩ := by decide
  have hok : (execute plainTools "f" [] {} 6 readOnce).1.isOk := by decide
  exact overwrites_only_seen hrun rfl rfl hfile hok

/-- A change whose time lies before the read is overwritten. -/
theorem earlier_change_overwritten :
    (step plainTools readOnce (.modify "f" (some ⟨.text ['b'], 3⟩))).files "f" =
      some ⟨.text ['b'], 3⟩ ∧
    (step plainTools readOnce (.modify "f" (some ⟨.text ['b'], 3⟩))).lastSeen "f" =
      some (.text ['a']) ∧
    (execute plainTools "f" [] {} 6
      (step plainTools readOnce (.modify "f" (some ⟨.text ['b'], 3⟩)))).2.files "f" =
      some ⟨.text [], 6⟩ := by
  decide

end MultiClaw.WriteFile
