import MultiClaw.Base.Replace
import MultiClaw.Base.TextProto

/-! The configuration that the nsjail backend writes. -/
namespace MultiClaw.NsJail

open Base Base.TextProto

def protobufQuote (value : Text) : Text :=
  replaceAll (lit "\r") (lit "\\r") (replaceAll (lit "\n") (lit "\\n")
    (replaceAll (lit "\"") (lit "\\\"") (replaceAll (lit "\\") (lit "\\\\") value)))

/-! Profiles -/

structure SystemMount where
  path : String
  isDir : Bool
  mandatory : Bool := false
  deriving DecidableEq, Repr

/-- A file name, or all names with a common beginning. -/
inductive Pattern where
  | exactly (name : String)
  | startingWith (beginning : String)
  deriving DecidableEq, Repr

def Pattern.accepts (name : Text) : Pattern → Bool
  | exactly s => name = lit s
  | startingWith s => lit s <+: name

structure ProfileTemplate where
  workspaceMode : String
  networkMode : String
  writeProtectedPatterns : List Pattern
  readHiddenPatterns : List Pattern
  systemReadOnlyRoots : List SystemMount
  seccompPolicy : Text
  rlimitAsMb : Nat
  rlimitCpuSeconds : Nat
  rlimitFsizeMb : Nat
  rlimitNofile : Nat
  rlimitNproc : Nat

/-! What a launch finds -/

inductive EntryKind where
  | file
  | dir
  | symlink
  deriving DecidableEq, Repr

/-- An entry of the workspace: any name without a slash and a zero. -/
structure Entry where
  name : Text
  kind : EntryKind
  name_ne_nil : name ≠ []
  slash_notMem : .char '/' ∉ name
  zero_notMem : .char '\x00' ∉ name
  deriving DecidableEq

/-- The resolved paths of a launch, and what the file system says about them. -/
structure Launch where
  template : ProfileTemplate
  timeoutSeconds : Nat
  uid : Nat
  gid : Nat
  workspaceRoot : Text
  entries : List Entry
  cwd : Text
  privateRoot : Text
  privateHome : Text
  privateTmp : Text
  runtimeRoots : List Text
  canonicalizePath : Text → Text
  exists? : Text → Bool
  isDir : Text → Bool

def joinPath (root name : Text) : Text :=
  if root = lit "/" then root ++ name else root ++ lit "/" ++ name

def CodePoint.value : CodePoint → Nat
  | .char c => c.toNat
  | .surrogate n => n

/-- The entries that a pattern accepts, by their paths; a link among them is refused. -/
def existingWorkspaceMatches (launch : Launch) (patterns : List Pattern) :
    Except String (List Text) :=
  let found := patterns.flatMap fun pattern =>
    launch.entries.filter fun entry => pattern.accepts entry.name
  if found.any (·.kind = .symlink) then .error "workspace path match is invalid"
  else .ok ((found.map fun entry => joinPath launch.workspaceRoot entry.name).dedup.mergeSort
    fun a b => a.map CodePoint.value ≤ b.map CodePoint.value)

def number (n : Nat) : Text := (Nat.toDigits 10 n).map .char

/-- Every hidden path with the empty file or directory that takes its place. -/
def prepareHiddenMountSources (launch : Launch) : Except String (List (Text × Text)) := do
  let found ← existingWorkspaceMatches launch launch.template.readHiddenPatterns
  let hiddenRoot := joinPath launch.privateRoot (lit ".nsjail-hidden")
  return found.zipIdx.map fun (path, index) =>
    (path, joinPath hiddenRoot (lit "hidden-" ++ number index))

/-! The text -/

structure Mount where
  src : Text
  dst : Text
  rw : Bool
  isDir : Bool
  mandatory : Bool
  deriving DecidableEq, Repr

/-- `name: value`. -/
def fieldLine (name : String) (value : Text) : Text := lit name ++ lit ": " ++ value

def between (text : Text) : Text := lit "\"" ++ text ++ lit "\""

def quoted (value : Text) : Text := between (protobufQuote value)

def flag (b : Bool) : Text := if b then lit "true" else lit "false"

def block (name : String) (lines : List Text) : List Text :=
  (lit name ++ lit " \x7b") :: lines.map (lit "  " ++ ·) ++ [lit "\x7d"]

def mountBlock (mount : Mount) : List Text :=
  block "mount" [
    fieldLine "src" (quoted mount.src),
    fieldLine "dst" (quoted mount.dst),
    fieldLine "is_bind" (lit "true"),
    fieldLine "rw" (flag mount.rw),
    fieldLine "is_dir" (flag mount.isDir),
    fieldLine "mandatory" (flag mount.mandatory)]

def idMap (name : String) (outside : Nat) : List Text :=
  block name [
    fieldLine "inside_id" (between (lit "0")),
    fieldLine "outside_id" (between (number outside)),
    fieldLine "count" (lit "1")]

def settingLines (launch : Launch) : List Text :=
  let template := launch.template
  [fieldLine "mode" (lit "ONCE"),
    fieldLine "hostname" (between (lit "multiclaw")),
    fieldLine "cwd" (quoted launch.cwd),
    fieldLine "time_limit" (number (max 1 launch.timeoutSeconds)),
    fieldLine "keep_env" (lit "true"),
    fieldLine "keep_caps" (lit "false"),
    fieldLine "disable_no_new_privs" (lit "false"),
    fieldLine "mount_proc" (lit "true"),
    fieldLine "clone_newnet" (flag (template.networkMode = "disabled")),
    fieldLine "clone_newuser" (lit "true"),
    fieldLine "clone_newns" (lit "true"),
    fieldLine "clone_newpid" (lit "true"),
    fieldLine "clone_newipc" (lit "true"),
    fieldLine "clone_newuts" (lit "true")] ++
  idMap "uidmap" launch.uid ++
  idMap "gidmap" launch.gid ++
  [fieldLine "rlimit_as" (number template.rlimitAsMb),
    fieldLine "rlimit_as_type" (lit "VALUE"),
    fieldLine "rlimit_core" (lit "0"),
    fieldLine "rlimit_core_type" (lit "VALUE"),
    fieldLine "rlimit_cpu" (number template.rlimitCpuSeconds),
    fieldLine "rlimit_cpu_type" (lit "VALUE"),
    fieldLine "rlimit_fsize" (number template.rlimitFsizeMb),
    fieldLine "rlimit_fsize_type" (lit "VALUE"),
    fieldLine "rlimit_nofile" (number template.rlimitNofile),
    fieldLine "rlimit_nofile_type" (lit "VALUE"),
    fieldLine "rlimit_nproc" (number template.rlimitNproc),
    fieldLine "rlimit_nproc_type" (lit "VALUE"),
    fieldLine "seccomp_string" (quoted template.seccompPolicy)]

def workspaceMount (launch : Launch) : Mount :=
  ⟨launch.workspaceRoot, launch.workspaceRoot, launch.template.workspaceMode = "rw", true, true⟩

def privateMount (path : Text) : Mount := ⟨path, path, true, true, true⟩

def systemMount (launch : Launch) (root : SystemMount) : Mount :=
  let src := launch.canonicalizePath (lit root.path)
  ⟨src, src, false, if launch.exists? src then launch.isDir src else root.isDir, root.mandatory⟩

/-- A path that is mounted over itself, or over another one, and cannot be written. -/
def readOnlyMount (launch : Launch) (src dst : Text) : Mount :=
  ⟨src, dst, false, launch.isDir dst, true⟩

def mounts (launch : Launch) (hidden : List (Text × Text)) (protectedPaths : List Text) :
    List Mount :=
  [workspaceMount launch, privateMount launch.privateHome, privateMount launch.privateTmp] ++
    launch.template.systemReadOnlyRoots.map (systemMount launch) ++
    launch.runtimeRoots.map (fun root => readOnlyMount launch root root) ++
    protectedPaths.map (fun path => readOnlyMount launch path path) ++
    hidden.map (fun (target, source) => readOnlyMount launch source target)

/-- The lines, each with its line feed. -/
def joinLines (lines : List Text) : Text := lines.flatMap (· ++ lit "\n")

def renderConfigText (launch : Launch) (hidden : List (Text × Text)) (protectedPaths : List Text) :
    Text :=
  joinLines (settingLines launch ++ (mounts launch hidden protectedPaths).flatMap mountBlock)

def configText (launch : Launch) : Except String Text := do
  let hidden ← prepareHiddenMountSources launch
  let protectedPaths ← existingWorkspaceMatches launch launch.template.writeProtectedPatterns
  return renderConfigText launch hidden protectedPaths

end MultiClaw.NsJail
