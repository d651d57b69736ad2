import MultiClaw.Sandbox.NsJail

/-! The configuration is read back as it was meant, whatever the names in it. -/
namespace MultiClaw.NsJail

open Base Base.TextProto

variable {launch : Launch} {text value w : Text} {name : String} {lines others : List Text}
  {fields more : List Field} {field : Field}

/-! Quoting -/

theorem replaceAll_singleton (c : CodePoint) (new cs : Text) :
    replaceAll [c] new cs = cs.flatMap fun d => if d = c then new else [d] := by
  induction cs with
  | nil => rfl
  | cons d cs ih =>
    rw [List.flatMap_cons]
    split
    case isTrue h =>
      subst h
      have hnew : replaceAll [d] new ([d] ++ cs) = new ++ replaceAll [d] new cs :=
        replaceAll_append (List.cons_ne_nil d [])
      rw [← ih, ← hnew]
      rfl
    case isFalse h =>
      have hnot : ¬ [c] <+: d :: cs := fun hstarts => h (List.cons_prefix_cons.mp hstarts).1.symm
      rw [replaceAll_cons_of_not_starts hnot, ih]
      rfl

/-- The four passes over the text escape each character once. -/
theorem protobufQuote_eq (value : Text) : protobufQuote value = value.flatMap escape := by
  rw [protobufQuote]
  show replaceAll [.char '\r'] _ (replaceAll [.char '\n'] _ (replaceAll [.char '"'] _
    (replaceAll [.char '\\'] _ value))) = _
  simp only [replaceAll_singleton, List.flatMap_assoc]
  congr 1
  funext c
  rw [escape]
  split_ifs with hbackslash hquote hnewline hreturn
  · rfl
  · subst hquote; rfl
  · subst hnewline; rfl
  · subst hreturn; rfl
  · simp [hquote, hnewline, hreturn]

theorem flatMap_escape_of_word (h : w.all isWordChar = true) : w.flatMap escape = w := by
  induction w with
  | nil => rfl
  | cons c w ih =>
    rw [List.all_cons, Bool.and_eq_true] at h
    have hc : escape c = [c] := by
      rw [escape]
      split_ifs with h1 h2 h3 h4
      · subst h1; exact absurd h.1 (by decide)
      · subst h2; exact absurd h.1 (by decide)
      · subst h3; exact absurd h.1 (by decide)
      · subst h4; exact absurd h.1 (by decide)
      · rfl
    rw [List.flatMap_cons, hc, ih h.2]
    rfl

/-! Lines -/

theorem lexes_newline : Lexes (lit "\n") [] := Lexes.of_start (rfl : start (.char '\n') = _)

theorem lexes_blank : Lexes (lit " ") [] := Lexes.of_start (rfl : start (.char ' ') = _)

theorem lexes_opened : Lexes (lit "\x7b") [.opened] :=
  Lexes.of_start (rfl : start (.char '\x7b') = _)

theorem lexes_closed : Lexes (lit "\x7d") [.closed] :=
  Lexes.of_start (rfl : start (.char '\x7d') = _)

/-- The line is read as the field. -/
def LineRead (line : Text) (field : Field) : Prop := Lexes (line ++ lit "\n") field.tokens

/-- The lines are read as the fields. -/
def LinesRead (lines : List Text) (fields : List Field) : Prop :=
  Lexes (joinLines lines) (tokensOf fields)

theorem LinesRead.append (h : LinesRead lines fields) (hmore : LinesRead others more) :
    LinesRead (lines ++ others) (fields ++ more) := by
  rw [LinesRead, joinLines, List.flatMap_append, tokensOf_append]
  exact Lexes.append h hmore

theorem LinesRead.of_lines (h : List.Forall₂ LineRead lines fields) : LinesRead lines fields := by
  induction h with
  | nil => exact Lexes.nil
  | cons h _ ih => exact Lexes.append h ih

theorem LinesRead.flatMap {α : Type} {f : α → List Text} {g : α → Field}
    (h : ∀ a, LinesRead (f a) [g a]) (as : List α) : LinesRead (as.flatMap f) (as.map g) := by
  induction as with
  | nil => exact Lexes.nil
  | cons a as ih => exact (h a).append ih

theorem LineRead.indent {line : Text} (h : LineRead line field) :
    LineRead (lit "  " ++ line) field := by
  have hblank : Lexes (lit "  ") [] := lexes_blank.append lexes_blank
  have htext := hblank.append h
  rwa [← List.append_assoc] at htext

/-- The texts that stand for words. -/
abbrev IsWord (w : Text) : Prop := w ≠ [] ∧ w.all isWordChar = true

theorem isWord_number (n : Nat) : IsWord (number n) := by
  refine ⟨by simp [number, Nat.toDigits_ne_nil], ?_⟩
  rw [number, List.all_eq_true]
  intro c hc
  obtain ⟨d, hd, rfl⟩ := List.mem_map.mp hc
  have hdigit := Nat.isDigit_of_mem_toDigits (by decide) (by decide) hd
  simp [isWordChar, Char.isAlphanum, hdigit]

theorem isWord_flag (b : Bool) : IsWord (flag b) := by
  cases b <;> decide

theorem lexes_name (hname : IsWord (lit name)) :
    Lexes (lit name ++ lit ": ") [.word (lit name), .colon] := by
  have hword : Lexes (lit name ++ [.char ':']) [.word (lit name), .colon] :=
    Lexes.word hname.1 hname.2 rfl rfl
  have htext := hword.append lexes_blank
  rwa [List.append_assoc] at htext

theorem lineRead_word (hname : IsWord (lit name)) (hw : IsWord w) :
    LineRead (fieldLine name w) (.scalar (lit name) (.word w)) := by
  have htext : fieldLine name w ++ lit "\n" = lit name ++ lit ": " ++ (w ++ [.char '\n']) := by
    rw [fieldLine, List.append_assoc]
    rfl
  rw [LineRead, htext]
  exact (lexes_name hname).append (Lexes.word hw.1 hw.2 rfl rfl)

theorem lineRead_str (hname : IsWord (lit name)) (v : Text) :
    LineRead (fieldLine name (between (v.flatMap escape))) (.scalar (lit name) (.str v)) := by
  rw [LineRead, fieldLine, between, List.append_assoc]
  exact (lexes_name hname).append ((Lexes.quoted v).append lexes_newline)

theorem lineRead_quoted (hname : IsWord (lit name)) (v : Text) :
    LineRead (fieldLine name (quoted v)) (.scalar (lit name) (.str v)) := by
  rw [quoted, protobufQuote_eq]
  exact lineRead_str hname v

theorem lineRead_between (hname : IsWord (lit name)) (hw : IsWord w) :
    LineRead (fieldLine name (between w)) (.scalar (lit name) (.str w)) := by
  have h := lineRead_str hname w
  rwa [flatMap_escape_of_word hw.2] at h

theorem linesRead_block (hname : IsWord (lit name)) (h : List.Forall₂ LineRead lines fields) :
    LinesRead (block name lines) [.message (lit name) fields] := by
  have hword : Lexes (lit name ++ [.char ' ']) [.word (lit name)] :=
    Lexes.word hname.1 hname.2 rfl rfl
  have hinner : LinesRead (lines.map (lit "  " ++ ·)) fields :=
    .of_lines (List.forall₂_map_left_iff.mpr (h.imp fun _ _ => LineRead.indent))
  have hblock := ((hword.append (lexes_opened.append lexes_newline)).append hinner).append
    (lexes_closed.append lexes_newline)
  have htext : joinLines (block name lines) = lit name ++ [.char ' '] ++ (lit "\x7b" ++ lit "\n") ++
      joinLines (lines.map (lit "  " ++ ·)) ++ (lit "\x7d" ++ lit "\n") := by
    simp [joinLines, block, lit]
  rw [LinesRead, htext]
  simpa [tokensOf, Field.tokens] using hblock

/-! What is meant -/

def word (name : String) (w : Text) : Field := .scalar (lit name) (.word w)

def str (name : String) (v : Text) : Field := .scalar (lit name) (.str v)

def Mount.message (mount : Mount) : Field :=
  .message (lit "mount") [str "src" mount.src, str "dst" mount.dst, word "is_bind" (lit "true"),
    word "rw" (flag mount.rw), word "is_dir" (flag mount.isDir),
    word "mandatory" (flag mount.mandatory)]

def idField (name : String) (outside : Nat) : Field :=
  .message (lit name)
    [str "inside_id" (lit "0"), str "outside_id" (number outside), word "count" (lit "1")]

def settings (launch : Launch) : List Field :=
  let template := launch.template
  [word "mode" (lit "ONCE"), str "hostname" (lit "multiclaw"), str "cwd" launch.cwd,
    word "time_limit" (number (max 1 launch.timeoutSeconds)), word "keep_env" (lit "true"),
    word "keep_caps" (lit "false"), word "disable_no_new_privs" (lit "false"),
    word "mount_proc" (lit "true"), word "clone_newnet" (flag (template.networkMode = "disabled")),
    word "clone_newuser" (lit "true"), word "clone_newns" (lit "true"),
    word "clone_newpid" (lit "true"), word "clone_newipc" (lit "true"),
    word "clone_newuts" (lit "true")] ++
  [idField "uidmap" launch.uid] ++ [idField "gidmap" launch.gid] ++
  [word "rlimit_as" (number template.rlimitAsMb), word "rlimit_as_type" (lit "VALUE"),
    word "rlimit_core" (lit "0"), word "rlimit_core_type" (lit "VALUE"),
    word "rlimit_cpu" (number template.rlimitCpuSeconds), word "rlimit_cpu_type" (lit "VALUE"),
    word "rlimit_fsize" (number template.rlimitFsizeMb), word "rlimit_fsize_type" (lit "VALUE"),
    word "rlimit_nofile" (number template.rlimitNofile), word "rlimit_nofile_type" (lit "VALUE"),
    word "rlimit_nproc" (number template.rlimitNproc), word "rlimit_nproc_type" (lit "VALUE"),
    str "seccomp_string" template.seccompPolicy]

theorem linesRead_mountBlock (mount : Mount) : LinesRead (mountBlock mount) [mount.message] := by
  refine linesRead_block (by decide) ?_
  refine .cons (lineRead_quoted (by decide) _) ?_
  refine .cons (lineRead_quoted (by decide) _) ?_
  refine .cons (lineRead_word (by decide) (by decide)) ?_
  refine .cons (lineRead_word (by decide) (isWord_flag _)) ?_
  refine .cons (lineRead_word (by decide) (isWord_flag _)) ?_
  exact .cons (lineRead_word (by decide) (isWord_flag _)) .nil

theorem linesRead_idMap (hname : IsWord (lit name)) (outside : Nat) :
    LinesRead (idMap name outside) [idField name outside] := by
  refine linesRead_block hname ?_
  refine .cons (lineRead_between (by decide) (by decide)) ?_
  refine .cons (lineRead_between (by decide) (isWord_number outside)) ?_
  exact .cons (lineRead_word (by decide) (by decide)) .nil

theorem linesRead_settingLines (launch : Launch) :
    LinesRead (settingLines launch) (settings launch) := by
  have hword {name : String} (hname : IsWord (lit name)) {w : Text} (hw : IsWord w) :
      LineRead (fieldLine name w) (word name w) := lineRead_word hname hw
  refine (((LinesRead.of_lines ?_).append (linesRead_idMap (by decide) _)).append
    (linesRead_idMap (by decide) _)).append (.of_lines ?_)
  · refine .cons (hword (by decide) (by decide)) ?_
    refine .cons (lineRead_between (by decide) (by decide)) ?_
    refine .cons (lineRead_quoted (by decide) _) ?_
    refine .cons (hword (by decide) (isWord_number _)) ?_
    refine .cons (hword (by decide) (by decide)) ?_
    refine .cons (hword (by decide) (by decide)) ?_
    refine .cons (hword (by decide) (by decide)) ?_
    refine .cons (hword (by decide) (by decide)) ?_
    refine .cons (hword (by decide) (isWord_flag _)) ?_
    refine .cons (hword (by decide) (by decide)) ?_
    refine .cons (hword (by decide) (by decide)) ?_
    refine .cons (hword (by decide) (by decide)) ?_
    refine .cons (hword (by decide) (by decide)) ?_
    exact .cons (hword (by decide) (by decide)) .nil
  · refine .cons (hword (by decide) (isWord_number _)) ?_
    refine .cons (hword (by decide) (by decide)) ?_
    refine .cons (hword (by decide) (by decide)) ?_
    refine .cons (hword (by decide) (by decide)) ?_
    refine .cons (hword (by decide) (isWord_number _)) ?_
    refine .cons (hword (by decide) (by decide)) ?_
    refine .cons (hword (by decide) (isWord_number _)) ?_
    refine .cons (hword (by decide) (by decide)) ?_
    refine .cons (hword (by decide) (isWord_number _)) ?_
    refine .cons (hword (by decide) (by decide)) ?_
    refine .cons (hword (by decide) (isWord_number _)) ?_
    refine .cons (hword (by decide) (by decide)) ?_
    exact .cons (lineRead_quoted (by decide) _) .nil

/-- The text is read as the settings and the mounts, with every path as it is. -/
theorem parseText_renderConfigText (launch : Launch) (hidden : List (Text × Text))
    (protectedPaths : List Text) :
    parseText (renderConfigText launch hidden protectedPaths) =
      some (settings launch ++ (mounts launch hidden protectedPaths).map Mount.message) :=
  parseText_of_lexes ((linesRead_settingLines launch).append
    (.flatMap linesRead_mountBlock (mounts launch hidden protectedPaths)))

/-! The entries of the workspace -/

/-- The path of an entry that one of the patterns accepts. -/
def MatchedPath (launch : Launch) (patterns : List Pattern) (path : Text) : Prop :=
  ∃ entry ∈ launch.entries, (∃ pattern ∈ patterns, pattern.accepts entry.name = true) ∧
    path = joinPath launch.workspaceRoot entry.name

theorem existingWorkspaceMatches_spec {patterns : List Pattern} {paths : List Text}
    (h : existingWorkspaceMatches launch patterns = .ok paths) :
    paths.Nodup ∧ ∀ path, path ∈ paths ↔ MatchedPath launch patterns path := by
  rw [existingWorkspaceMatches] at h
  split at h
  · cases h
  cases h
  refine ⟨(List.mergeSort_perm _ _).nodup_iff.mpr (List.nodup_dedup _), fun path => ?_⟩
  rw [List.mem_mergeSort, List.mem_dedup, List.mem_map]
  constructor
  · rintro ⟨entry, hentry, rfl⟩
    obtain ⟨pattern, hpattern, hentry⟩ := List.mem_flatMap.mp hentry
    obtain ⟨hmem, haccepts⟩ := List.mem_filter.mp hentry
    exact ⟨entry, hmem, ⟨pattern, hpattern, haccepts⟩, rfl⟩
  · rintro ⟨entry, hmem, ⟨pattern, hpattern, haccepts⟩, rfl⟩
    exact ⟨entry, List.mem_flatMap.mpr
      ⟨pattern, hpattern, List.mem_filter.mpr ⟨hmem, haccepts⟩⟩, rfl⟩

theorem prepareHiddenMountSources_targets {hidden : List (Text × Text)}
    (h : prepareHiddenMountSources launch = .ok hidden) :
    existingWorkspaceMatches launch launch.template.readHiddenPatterns =
      .ok (hidden.map Prod.fst) := by
  cases hfound : existingWorkspaceMatches launch launch.template.readHiddenPatterns with
  | error e =>
    rw [prepareHiddenMountSources, hfound] at h
    cases h
  | ok found =>
    rw [prepareHiddenMountSources, hfound] at h
    cases h
    simp [Function.comp_def, List.zipIdx_map_fst]

theorem rw_of_mem_mounts {hidden : List (Text × Text)} {protectedPaths : List Text} {mount : Mount}
    (h : mount ∈ mounts launch hidden protectedPaths) (hrw : mount.rw = true) :
    mount = workspaceMount launch ∧ launch.template.workspaceMode = "rw" ∨
      mount = privateMount launch.privateHome ∨ mount = privateMount launch.privateTmp := by
  simp only [mounts, List.mem_append, List.mem_cons, List.not_mem_nil, or_false, List.mem_map] at h
  rcases h with (((((rfl | rfl | rfl) | ⟨root, -, rfl⟩) | ⟨root, -, rfl⟩) | ⟨path, -, rfl⟩) |
    ⟨pair, -, rfl⟩)
  · exact .inl ⟨rfl, of_decide_eq_true hrw⟩
  · exact .inr (.inl rfl)
  · exact .inr (.inr rfl)
  -- the other mounts are read-only
  all_goals cases hrw

theorem configText_eq_ok (h : configText launch = .ok text) :
    ∃ hidden protectedPaths, prepareHiddenMountSources launch = .ok hidden ∧
      existingWorkspaceMatches launch launch.template.writeProtectedPatterns = .ok protectedPaths ∧
      text = renderConfigText launch hidden protectedPaths := by
  cases hhidden : prepareHiddenMountSources launch with
  | error e =>
    rw [configText, hhidden] at h
    cases h
  | ok hidden =>
    cases hprotected :
      existingWorkspaceMatches launch launch.template.writeProtectedPatterns with
    | error e =>
      rw [configText, hhidden, hprotected] at h
      cases h
    | ok protectedPaths =>
      rw [configText, hhidden, hprotected] at h
      cases h
      exact ⟨hidden, protectedPaths, rfl, rfl, rfl⟩

/-- The configuration is read as the settings and one mount for each path that is meant. -/
structure ReadAsIntended (launch : Launch) (text : Text) (hidden : List (Text × Text))
    (protectedPaths : List Text) : Prop where
  parsed : parseText text =
    some (settings launch ++ (mounts launch hidden protectedPaths).map Mount.message)
  writable : ∀ mount ∈ mounts launch hidden protectedPaths, mount.rw = true →
    mount = workspaceMount launch ∧ launch.template.workspaceMode = "rw" ∨
      mount = privateMount launch.privateHome ∨ mount = privateMount launch.privateTmp
  hidden_nodup : (hidden.map Prod.fst).Nodup
  mem_hidden : ∀ path, path ∈ hidden.map Prod.fst ↔
    MatchedPath launch launch.template.readHiddenPatterns path
  protected_nodup : protectedPaths.Nodup
  mem_protected : ∀ path, path ∈ protectedPaths ↔
    MatchedPath launch launch.template.writeProtectedPatterns path
  /-- What is hidden or protected comes after the workspace. -/
  order : ∃ later, mounts launch hidden protectedPaths = workspaceMount launch :: later ∧
    (∀ path ∈ protectedPaths, readOnlyMount launch path path ∈ later) ∧
    ∀ pair ∈ hidden, readOnlyMount launch pair.2 pair.1 ∈ later

/-- A workspace with a quote in its name, and a hidden file with a brace and a line feed. -/
def sampleLaunch : Launch where
  template :=
    { workspaceMode := "rw", networkMode := "disabled"
      writeProtectedPatterns := [.exactly ".git"]
      readHiddenPatterns := [.exactly ".env", .startingWith ".env."]
      systemReadOnlyRoots := [⟨"/usr", true, false⟩]
      seccompPolicy := lit "DEFAULT ALLOW"
      rlimitAsMb := 4096, rlimitCpuSeconds := 30, rlimitFsizeMb := 16
      rlimitNofile := 64, rlimitNproc := 1024 }
  timeoutSeconds := 5
  uid := 1000
  gid := 1000
  workspaceRoot := lit "/w\""
  entries := [⟨lit ".env.\"\n\x7d", .file, by decide, by decide, by decide⟩]
  cwd := lit "/w\""
  privateRoot := lit "/p"
  privateHome := lit "/p/home"
  privateTmp := lit "/p/tmp"
  runtimeRoots := []
  canonicalizePath := id
  exists? _ := true
  isDir _ := true

end MultiClaw.NsJail
