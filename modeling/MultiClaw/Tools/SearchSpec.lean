import MultiClaw.Tools.Search

/-! The files that a search reports. -/
namespace MultiClaw.Search

open Base

variable {tree : Tree} {host : Host} {file : TreeFile} {path suffix name : List Char}
  {lines : List OutputLine} {line : OutputLine} {run : ProgramRun tree} {params : GrepParams}
  {report : Report} {pattern : Pattern} {entries : List (List Char)} {files : List TreeFile}

theorem path_head (file : TreeFile) : ∃ c cs, file.path = c :: cs ∧ c ≠ '/' := by
  obtain ⟨name, rest, hcomponents⟩ := List.exists_cons_of_ne_nil file.components_ne_nil
  have hname := file.names name (by rw [hcomponents]; exact List.mem_cons_self)
  obtain ⟨c, cs, rfl⟩ := List.exists_cons_of_ne_nil hname.1
  have hc : c ≠ '/' := by
    rintro rfl
    exact hname.2 List.mem_cons_self
  rw [TreeFile.path, hcomponents]
  rcases rest with _ | ⟨next, rest⟩
  · exact ⟨c, cs, List.intercalate_singleton, hc⟩
  · refine ⟨c, cs ++ ['/'] ++ ['/'].intercalate (next :: rest), ?_, hc⟩
    rw [List.intercalate_cons_cons]
    rfl

/-! The output comes back -/

/-- The line has no break inside, and its path does not begin with a dot. -/
def Intact : OutputLine → Prop
  | .entry path suffix => (∃ c cs, path = c :: cs ∧ c ≠ '.' ∧ c ≠ '/') ∧
      path.any isLineBreak = false ∧ suffix.any isLineBreak = false
  | .separator => True

/-- What is left of a line without the dot and the slash. -/
def OutputLine.reported : OutputLine → List Char
  | entry path suffix => path ++ suffix
  | separator => ['-', '-']

theorem text_any_isLineBreak (h : Intact line) : line.text.any isLineBreak = false := by
  cases line with
  | entry path suffix =>
    rw [OutputLine.text, List.any_cons, List.any_cons, List.any_append, h.2.1, h.2.2]
    decide
  | separator => decide

theorem strip_text_ne_nil (line : OutputLine) : strip host.isSpace line.text ≠ [] := by
  have hhead : ∃ c cs, line.text = c :: cs ∧ host.isSpace c = false := by
    cases line with
    | entry path suffix => exact ⟨'.', _, rfl, by rw [host.isSpace_ascii _ (by decide)]; decide⟩
    | separator => exact ⟨'-', _, rfl, by rw [host.isSpace_ascii _ (by decide)]; decide⟩
  obtain ⟨c, cs, htext, hc⟩ := hhead
  rw [strip, htext, List.dropWhile_cons_of_neg (by simp [hc])]
  intro hnil
  rw [List.reverse_eq_nil_iff, List.dropWhile_eq_nil_iff] at hnil
  exact absurd (hnil c (by simp)) (by simp [hc])

theorem dropWhile_text (h : Intact line) :
    line.text.dropWhile (['.', '/'].contains ·) = line.reported := by
  cases line with
  | entry path suffix =>
    obtain ⟨⟨c, cs, rfl, hdot, hslash⟩, -, -⟩ := h
    rw [OutputLine.text, OutputLine.reported, List.dropWhile_cons_of_pos (by decide),
      List.dropWhile_cons_of_pos (by decide), List.cons_append,
      List.dropWhile_cons_of_neg (by simp [hdot, hslash])]
  | separator => decide

theorem notMem_of_any_isLineBreak {cs : List Char} (h : cs.any isLineBreak = false) : '\r' ∉ cs :=
  fun hmem => absurd (List.any_eq_false.mp h _ hmem) (by decide)

/-- The tool reports the lines that the program has printed, without the dot and the slash. -/
theorem outputEntries_stdout (h : ∀ line ∈ lines, Intact line) :
    outputEntries host (stdout lines) = lines.map OutputLine.reported := by
  have hflat : (lines.flatMap fun line => line.text ++ ['\n']) =
      (lines.map OutputLine.text).flatMap (· ++ ['\n']) := by
    rw [List.flatMap_map]
  have hbreaks : ∀ l ∈ lines.map OutputLine.text, l.any isLineBreak = false := by
    intro l hl
    obtain ⟨line, hline, rfl⟩ := List.mem_map.mp hl
    exact text_any_isLineBreak (h line hline)
  have hreturn : '\r' ∉ (lines.map OutputLine.text).flatMap (· ++ ['\n']) := by
    intro hmem
    obtain ⟨l, hl, hmem⟩ := List.mem_flatMap.mp hmem
    rcases List.mem_append.mp hmem with hmem | hmem
    · exact notMem_of_any_isLineBreak (hbreaks l hl) hmem
    · exact absurd (List.mem_singleton.mp hmem) (by decide)
  rw [stdout, hflat, universalNewlines_of_notMem hreturn, outputEntries, bareLines_flatMap hbreaks,
    List.filter_eq_self.mpr, List.map_map]
  · exact List.map_congr_left fun line hline => dropWhile_text (h line hline)
  · intro l hl
    obtain ⟨line, -, rfl⟩ := List.mem_map.mp hl
    simpa using strip_text_ne_nil line

/-! The programs -/

/-- The entry is the path of the file, and what stands after it. -/
def Names (file : TreeFile) (name : List Char) : Prop :=
  ∃ suffix, name = file.path ++ suffix ∧
    (suffix = [] ∨ suffix.head? = some ':' ∨ suffix.head? = some '-')

def Shown.text : Shown → List Char
  | found _ text => text
  | context _ text => text
  | separator => []

/-- The names do not begin with a dot, and neither they nor the lines shown have breaks inside. -/
structure Tidy (run : ProgramRun tree) : Prop where
  dots : ∀ file ∈ run.files, file.path.head? ≠ some '.'
  names : ∀ file ∈ run.files, file.path.any isLineBreak = false
  texts : ∀ file ∈ run.files, ∀ shown ∈ run.shown file, shown.text.any isLineBreak = false

theorem intact_entry (h : Tidy run) (hfile : file ∈ run.files)
    (hsuffix : suffix.any isLineBreak = false) : Intact (.entry file.path suffix) := by
  obtain ⟨c, cs, hpath, hslash⟩ := path_head file
  have hdot := h.dots file hfile
  rw [hpath] at hdot
  exact ⟨⟨c, cs, hpath, fun hc => hdot (by rw [hc]; rfl), hslash⟩, h.names file hfile, hsuffix⟩

theorem any_digits (n : Nat) : (Nat.toDigits 10 n).any isLineBreak = false :=
  List.any_eq_false.mpr fun _ hc => by simpa using isLineBreak_of_mem_toDigits hc

/-- Every line of the output is intact, and is about a file that was searched. -/
theorem programLines_spec (h : Tidy run) {outputMode : String} {countsAll : Bool}
    (hline : line ∈ programLines run outputMode countsAll) :
    Intact line ∧ (line = .separator ∨ ∃ file ∈ run.files, Names file line.reported ∧
      (run.count file ≠ 0 ∨ countsAll = true ∧ outputMode = "count")) := by
  rw [programLines] at hline
  split at hline
  · obtain ⟨file, hfile, rfl⟩ := List.mem_map.mp hline
    obtain ⟨hfile, hcount⟩ := List.mem_filter.mp hfile
    exact ⟨intact_entry h hfile rfl, .inr ⟨file, hfile, ⟨[], rfl, .inl rfl⟩,
      .inl (of_decide_eq_true hcount)⟩⟩
  split at hline
  case isTrue hmode =>
    obtain ⟨file, hfile, rfl⟩ := List.mem_map.mp hline
    have hdigits : (':' :: Nat.toDigits 10 (run.count file)).any isLineBreak = false := by
      rw [List.any_cons, any_digits]
      decide
    have hsearched : file ∈ run.files ∧
        (run.count file ≠ 0 ∨ countsAll = true ∧ outputMode = "count") := by
      split at hfile
      case isTrue hall => exact ⟨hfile, .inr ⟨hall, hmode⟩⟩
      case isFalse =>
        obtain ⟨hfile, hcount⟩ := List.mem_filter.mp hfile
        exact ⟨hfile, .inl (of_decide_eq_true hcount)⟩
    exact ⟨intact_entry h hsearched.1 hdigits,
      .inr ⟨file, hsearched.1, ⟨_, rfl, .inr (.inl rfl)⟩, hsearched.2⟩⟩
  case isFalse =>
    obtain ⟨file, hfile, hline⟩ := List.mem_flatMap.mp hline
    obtain ⟨shown, hshown, rfl⟩ := List.mem_map.mp hline
    obtain ⟨hfile, hcount⟩ := List.mem_filter.mp hfile
    have htext := h.texts file hfile shown hshown
    have hcount := of_decide_eq_true hcount
    cases shown with
    | found number text =>
      have htext : text.any isLineBreak = false := htext
      have hsuffix : (foundSuffix number text).any isLineBreak = false := by
        rw [foundSuffix, List.any_append, List.any_cons, List.any_cons, any_digits, htext]
        decide
      exact ⟨intact_entry h hfile hsuffix,
        .inr ⟨file, hfile, ⟨_, rfl, .inr (.inl rfl)⟩, .inl hcount⟩⟩
    | context number text =>
      have htext : text.any isLineBreak = false := htext
      have hsuffix : (contextSuffix number text).any isLineBreak = false := by
        rw [contextSuffix, List.any_append, List.any_cons, List.any_cons, any_digits, htext]
        decide
      exact ⟨intact_entry h hfile hsuffix,
        .inr ⟨file, hfile, ⟨_, rfl, .inr (.inr rfl)⟩, .inl hcount⟩⟩
    | separator => exact ⟨trivial, .inl rfl⟩

theorem mem_of_mem_formatFiles (h : name ∈ (formatFiles entries).entries) : name ∈ entries := by
  rw [formatFiles] at h
  split at h
  · exact absurd h List.not_mem_nil
  · exact List.mem_of_mem_take h

theorem mem_of_mem_formatLines {outputMode : String}
    (h : name ∈ (formatLines outputMode entries).entries) : name ∈ entries := by
  rw [formatLines] at h
  split at h
  · exact absurd h List.not_mem_nil
  · exact List.mem_of_mem_take h

theorem grepProgram_reports {program : String} {countsAll : Bool} (htidy : Tidy run)
    (hcounts : countsAll = true → params.outputMode = "count" →
      ∀ file ∈ run.files, run.count file ≠ 0)
    (h : grepProgram host program countsAll params run = .ok report)
    (hname : name ∈ report.entries) :
    name = ['-', '-'] ∨ ∃ file ∈ run.files, run.count file ≠ 0 ∧ Names file name := by
  rw [grepProgram] at h
  split at h
  · cases h
  split at h
  · cases h
    exact absurd hname List.not_mem_nil
  · cases h
    have hentry := mem_of_mem_formatLines hname
    rw [outputEntries_stdout fun line hline => (programLines_spec htidy hline).1] at hentry
    obtain ⟨line, hline, rfl⟩ := List.mem_map.mp hentry
    obtain ⟨-, rfl | ⟨file, hfile, hnames, hcount⟩⟩ := programLines_spec htidy hline
    · exact .inl rfl
    · exact .inr ⟨file, hfile, hcount.elim id fun hall => hcounts hall.1 hall.2 file hfile, hnames⟩

theorem globRipgrep_reports (htidy : Tidy run) (h : globRipgrep host run = .ok report)
    (hname : name ∈ report.entries) : ∃ file ∈ run.files, name = file.path := by
  rw [globRipgrep] at h
  split at h
  · cases h
  · cases h
    have hentry := mem_of_mem_formatFiles hname
    rw [outputEntries_stdout] at hentry
    · obtain ⟨line, hline, rfl⟩ := List.mem_map.mp hentry
      obtain ⟨file, hfile, rfl⟩ := List.mem_map.mp hline
      exact ⟨file, hfile, List.append_nil _⟩
    · intro line hline
      obtain ⟨file, hfile, rfl⟩ := List.mem_map.mp hline
      exact intact_entry htidy hfile rfl

/-! The walks -/

def PythonMatches (pattern : Pattern) (file : TreeFile) : Prop :=
  pattern.findall file.text > 0 ∨ ∃ line ∈ bareLines file.text, pattern.search line = true

theorem mem_scanLines {numbered : List (List Char × Nat)}
    (h : name ∈ scanLines pattern path numbered entries) :
    name ∈ entries ∨ ∃ entry ∈ numbered, pattern.search entry.1 = true ∧
      ∃ text, name = path ++ foundSuffix entry.2 text := by
  induction numbered generalizing entries with
  | nil => exact .inl h
  | cons entry numbered ih =>
    rw [scanLines] at h
    split at h
    case isTrue hsearch =>
      have hnew (hmem : name ∈ entries ++
          [path ++ foundSuffix entry.2 (entry.1.take maxGrepLineLength)]) :
          name ∈ entries ∨ ∃ e ∈ entry :: numbered, pattern.search e.1 = true ∧
            ∃ text, name = path ++ foundSuffix e.2 text := by
        rcases List.mem_append.mp hmem with hmem | hmem
        · exact .inl hmem
        · exact .inr ⟨entry, List.mem_cons_self, hsearch, _, List.mem_singleton.mp hmem⟩
      dsimp only at h
      split at h
      · exact hnew h
      · rcases ih h with hmem | ⟨e, he, hfound⟩
        · exact hnew hmem
        · exact .inr ⟨e, List.mem_cons_of_mem entry he, hfound⟩
    case isFalse =>
      rcases ih h with hmem | ⟨e, he, hfound⟩
      · exact .inl hmem
      · exact .inr ⟨e, List.mem_cons_of_mem entry he, hfound⟩

theorem mem_contentEntries (h : name ∈ contentEntries pattern files entries) :
    name ∈ entries ∨ ∃ file ∈ files, PythonMatches pattern file ∧ Names file name := by
  induction files generalizing entries with
  | nil => exact .inl h
  | cons file files ih =>
    have hscan (hmem : name ∈
          scanLines pattern file.path ((bareLines file.text).zipIdx 1) entries) :
        name ∈ entries ∨ ∃ f ∈ file :: files, PythonMatches pattern f ∧ Names f name := by
      rcases mem_scanLines hmem with hmem | ⟨entry, hentry, hsearch, text, rfl⟩
      · exact .inl hmem
      · exact .inr ⟨file, List.mem_cons_self,
          .inr ⟨entry.1, List.fst_mem_of_mem_zipIdx hentry, hsearch⟩, _, rfl, .inr (.inl rfl)⟩
    rw [contentEntries] at h
    split at h
    · exact hscan h
    · rcases ih h with hmem | ⟨f, hf, hfound⟩
      · exact hscan hmem
      · exact .inr ⟨f, List.mem_cons_of_mem file hf, hfound⟩

theorem mem_fileEntries (h : name ∈ fileEntries pattern files entries) :
    name ∈ entries ∨ ∃ file ∈ files, PythonMatches pattern file ∧ Names file name := by
  induction files generalizing entries with
  | nil => exact .inl h
  | cons file files ih =>
    have hlater {acc : List (List Char)} (hmem : name ∈ fileEntries pattern files acc) :
        name ∈ acc ∨ ∃ f ∈ file :: files, PythonMatches pattern f ∧ Names f name := by
      rcases ih hmem with hmem | ⟨f, hf, hfound⟩
      · exact .inl hmem
      · exact .inr ⟨f, List.mem_cons_of_mem file hf, hfound⟩
    rw [fileEntries] at h
    split at h
    case isTrue hany =>
      have hnew (hmem : name ∈ entries ++ [file.path]) :
          name ∈ entries ∨ ∃ f ∈ file :: files, PythonMatches pattern f ∧ Names f name := by
        rcases List.mem_append.mp hmem with hmem | hmem
        · exact .inl hmem
        · refine .inr ⟨file, List.mem_cons_self, .inr (List.any_eq_true.mp hany), [], ?_, .inl rfl⟩
          rw [List.append_nil]
          exact List.mem_singleton.mp hmem
      dsimp only at h
      split at h
      · exact hnew h
      · exact (hlater h).elim hnew .inr
    case isFalse => exact hlater h

theorem mem_countEntries (h : name ∈ countEntries pattern files) :
    ∃ file ∈ files, PythonMatches pattern file ∧ Names file name := by
  obtain ⟨file, hfile, rfl⟩ := List.mem_map.mp h
  obtain ⟨hfile, hcount⟩ := List.mem_filter.mp hfile
  exact ⟨file, hfile, .inl (of_decide_eq_true hcount), _, rfl, .inr (.inl rfl)⟩

theorem grepPython_reports {compiled : Except String Pattern}
    (h : grepPython params compiled tree = .ok report) (hname : name ∈ report.entries) :
    ∃ pattern, compiled = .ok pattern ∧
      ∃ file ∈ tree.files, PythonMatches pattern file ∧ Names file name := by
  cases compiled with
  | error e => cases h
  | ok pattern =>
    cases h
    refine ⟨pattern, rfl, ?_⟩
    have hentry := mem_of_mem_formatLines hname
    have hfound : ∃ file ∈ searchedFiles params tree,
        PythonMatches pattern file ∧ Names file name := by
      split at hentry
      · exact mem_countEntries hentry
      split at hentry
      · exact (mem_fileEntries hentry).resolve_left List.not_mem_nil
      · exact (mem_contentEntries hentry).resolve_left List.not_mem_nil
    obtain ⟨file, hfile, hfound⟩ := hfound
    exact ⟨file, List.mem_of_mem_filter (List.mem_of_mem_filter hfile), hfound⟩

theorem globPython_reports {globs : List Char → TreeFile → Bool} {globPattern : List Char}
    (h : globPython globs tree globPattern = .ok report) (hname : name ∈ report.entries) :
    ∃ file ∈ tree.files, globs (pythonPattern globPattern) file = true ∧ name = file.path := by
  cases h
  obtain ⟨file, hfile, rfl⟩ := List.mem_map.mp (mem_of_mem_formatFiles hname)
  obtain ⟨hfile, hglob⟩ := List.mem_filter.mp (List.mem_mergeSort.mp hfile)
  exact ⟨file, hfile, (Bool.and_eq_true_iff.mp hglob).1, rfl⟩

/-! Both tools -/

theorem glob_cases {globs : List Char → TreeFile → Bool} {globPattern : List Char}
    {rg : Option (ProgramRun tree)} (h : glob host globs tree globPattern rg = .ok report) :
    (∃ run, rg = some run ∧ globRipgrep host run = .ok report) ∨
      globPython globs tree globPattern = .ok report := by
  rw [glob] at h
  split at h
  next found hrun =>
    cases h
    obtain ⟨run, hrg, hrun⟩ := Option.map_eq_some_iff.mp hrun
    exact .inl ⟨run, hrg, hrun⟩
  · exact .inr h

theorem grep_cases {compiled : Except String Pattern} {rg gnuGrep : Option (ProgramRun tree)}
    (h : grep host params compiled tree rg gnuGrep = .ok report) :
    (∃ run, rg = some run ∧ grepProgram host "ripgrep" false params run = .ok report) ∨
      (∃ run, gnuGrep = some run ∧ grepProgram host "grep" true params run = .ok report) ∨
      grepPython params compiled tree = .ok report := by
  rw [grep] at h
  split at h
  next found hrun =>
    cases h
    obtain ⟨run, hrg, hrun⟩ := Option.map_eq_some_iff.mp hrun
    exact .inl ⟨run, hrg, hrun⟩
  · split at h
    next found hrun =>
      cases h
      obtain ⟨run, hgrep, hrun⟩ := Option.map_eq_some_iff.mp hrun
      exact .inr (.inl ⟨run, hgrep, hrun⟩)
    · exact .inr (.inr h)

/-- The file matches, in the judgement of the backend that ran. -/
def GlobMatches (globs : List Char → TreeFile → Bool) (globPattern : List Char)
    (rg : Option (ProgramRun tree)) (file : TreeFile) : Prop :=
  (∃ run, rg = some run ∧ file ∈ run.files) ∨ globs (pythonPattern globPattern) file = true

def GrepMatches (compiled : Except String Pattern) (rg gnuGrep : Option (ProgramRun tree))
    (file : TreeFile) : Prop :=
  (∃ run, (rg = some run ∨ gnuGrep = some run) ∧ run.count file ≠ 0) ∨
    ∃ pattern, compiled = .ok pattern ∧ PythonMatches pattern file

/-- A directory with one file, whose name is a letter after as many dots. -/
def oneFile (dots : Nat) : TreeFile where
  components := [List.replicate dots '.' ++ ['a']]
  text := ['x']
  mtime := 0
  components_ne_nil := List.cons_ne_nil _ _
  names := by
    intro name hname
    rw [List.mem_singleton.mp hname]
    refine ⟨by simp, ?_⟩
    rw [List.mem_append, not_or]
    exact ⟨fun h => absurd (List.eq_of_mem_replicate h) (by decide), by decide⟩

def oneTree (dots : Nat) : Tree := ⟨[], [oneFile dots]⟩

/-- A run that finds the file so many times. -/
def oneRun (dots count : Nat) : ProgramRun (oneTree dots) where
  code := 0
  stderr := ""
  files := [oneFile dots]
  count _ := count
  shown _ := if count = 0 then [] else [.found 1 ['x']]
  mem_tree _ h := h
  shown_of_count _ h := if_pos h

end MultiClaw.Search
