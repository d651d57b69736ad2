import MultiClaw.Base.Replace
import MultiClaw.Tools.EditFile

/-! What an edit replaces, and what it leaves as it was. -/
namespace MultiClaw.EditFile

open Base

variable {host : Host} {tools : EditTools} {params : EditFileParams} {io : FileIo} {s : EditState}
  {content needle new raw : List Char} {start i j : Nat} {spans : List Span} {span : Span}

/-! Occurrences -/

/-- The starts of the occurrences of a text, those that overlap among them. -/
def occurrencesFrom (content needle : List Char) (start : Nat) : List Nat :=
  (List.range' start (content.length + 1 - start)).filter fun i => needle <+: content.drop i

theorem occurrencesFrom_of_le (h : i ≤ content.length) :
    occurrencesFrom content needle i =
      if needle <+: content.drop i then i :: occurrencesFrom content needle (i + 1)
      else occurrencesFrom content needle (i + 1) := by
  have hlen : content.length + 1 - i = (content.length + 1 - (i + 1)) + 1 := by omega
  rw [occurrencesFrom, hlen, List.range'_succ, List.filter_cons]
  simp only [decide_eq_true_eq]
  rfl

theorem occurrencesFrom_of_gt (h : content.length < i) : occurrencesFrom content needle i = [] := by
  have hlen : content.length + 1 - i = 0 := by omega
  rw [occurrencesFrom, hlen]
  rfl

theorem occurrencesFrom_skip (hij : i ≤ j) (hj : j ≤ content.length + 1)
    (hnone : ∀ k, i ≤ k → k < j → ¬ needle <+: content.drop k) :
    occurrencesFrom content needle i = occurrencesFrom content needle j := by
  induction j, hij using Nat.le_induction with
  | base => rfl
  | succ j hij ih =>
    rw [ih (by omega) fun k hk hkj => hnone k hk (by omega), occurrencesFrom_of_le (by omega),
      if_neg (hnone j hij (by omega))]

theorem occurrencesFrom_of_find (h : find content needle i = some j) :
    occurrencesFrom content needle i = j :: occurrencesFrom content needle (j + 1) := by
  obtain ⟨hij, hj⟩ := find_bounds h
  obtain ⟨hstarts, hfirst⟩ := List.find?_range'_eq_some.mp h
  rw [occurrencesFrom_skip hij (by omega) fun k hk hkj => by simpa using hfirst.2 k hk hkj,
    occurrencesFrom_of_le hj, if_pos (by simpa using hstarts)]

theorem occurrencesFrom_of_find_eq_none (h : find content needle i = none) :
    occurrencesFrom content needle i = [] := by
  rw [find, List.find?_eq_none] at h
  exact List.filter_eq_nil_iff.mpr h

theorem matchExactFrom_eq :
    matchExactFrom content needle start =
      (occurrencesFrom content needle start).map fun i => (i, i + needle.length) := by
  fun_induction matchExactFrom content needle start with
  | case1 start h => rw [occurrencesFrom_of_find_eq_none h]; rfl
  | case2 start found h ih => rw [occurrencesFrom_of_find h, List.map_cons, ih]

theorem matchExact_eq_nil_iff : matchExact content needle = [] ↔ ¬ needle <:+: content := by
  rw [matchExact, matchExactFrom_eq, List.map_eq_nil_iff, occurrencesFrom, List.filter_eq_nil_iff]
  simp only [List.mem_range'_1, decide_eq_true_eq]
  constructor
  · rintro h ⟨before, after, rfl⟩
    refine h before.length (by simp only [List.length_append]; omega) ⟨after, ?_⟩
    rw [List.append_assoc, List.drop_left]
  · intro h k _ hk
    exact h (hk.isInfix.trans (List.drop_suffix k content).isInfix)

/-! Replacing every occurrence -/

/-- Two occurrences have no character in common. -/
def NoOverlap (needle content : List Char) : Prop :=
  ∀ i j, needle <+: content.drop i → needle <+: content.drop j → i < j → i + needle.length ≤ j

/-- The spans from a position on are replaced as the text from there on would be. -/
theorem spliceAll_occurrencesFrom (hneedle : needle ≠ []) (hoverlap : NoOverlap needle content)
    (hi : i ≤ content.length) :
    spliceAll new content ((occurrencesFrom content needle i).map fun i => (i, i + needle.length)) =
      content.take i ++ replaceAll needle new (content.drop i) := by
  -- from the end of the content to its start, an occurrence at a time
  induction hn : content.length - i using Nat.strongRecOn generalizing i with
  | _ n ih =>
    subst hn
    rw [occurrencesFrom_of_le hi]
    split
    case isTrue hstarts =>
      obtain ⟨rest, hrest⟩ := hstarts
      have hpos : 0 < needle.length := List.length_pos_of_ne_nil hneedle
      have hlen : needle.length + rest.length = content.length - i := by
        simpa using congrArg List.length hrest
      have hdrop : content.drop (i + needle.length) = rest := by
        rw [← List.drop_drop, ← hrest, List.drop_left]
      have hskip : occurrencesFrom content needle (i + 1) =
          occurrencesFrom content needle (i + needle.length) := by
        refine occurrencesFrom_skip (by omega) (by omega) fun k hk hlt hstarts => ?_
        have := hoverlap i k ⟨rest, hrest⟩ hstarts (by omega)
        omega
      have hlater := ih (content.length - (i + needle.length)) (by omega) (by omega) rfl
      have htake : (content.take (i + needle.length)).length = i + needle.length := by
        rw [List.length_take]
        omega
      rw [hskip, List.map_cons, spliceAll, List.foldr_cons, ← spliceAll, hlater, splice, hdrop]
      dsimp only
      rw [List.drop_left' htake, List.take_append_of_le_length (by omega), List.take_take,
        Nat.min_eq_left (by omega), ← hrest, replaceAll_append hneedle, List.append_assoc]
    case isFalse hstarts =>
      rcases hi.eq_or_lt with rfl | hlt
      · rw [occurrencesFrom_of_gt (Nat.lt_succ_self _)]
        simp [spliceAll]
      · have hlater := ih (content.length - (i + 1)) (by omega) (by omega) rfl
        rw [List.drop_eq_getElem_cons hlt] at hstarts ⊢
        rw [hlater, replaceAll_cons_of_not_starts hstarts, List.take_succ_eq_append_getElem hlt,
          List.append_assoc]
        rfl

/-! Calls -/

theorem findAndReplace_eq_ok (h : findAndReplace host params content = .ok new) :
    ∃ strategy : Strategy,
      chosen host content params.oldString = some strategy ∧
      if params.replaceAll then
        new = spliceAll params.newString content (strategy.spans host content params.oldString)
      else ∃ span, strategy.spans host content params.oldString = [span] ∧
        new = splice params.newString content span := by
  rw [findAndReplace] at h
  split at h
  · cases h
  next strategy hchosen =>
    refine ⟨strategy, hchosen, ?_⟩
    dsimp only at h
    split at h
    next hall =>
      rw [if_pos hall]
      exact (Except.ok.inj h).symm
    next hall =>
      rw [if_neg hall]
      split at h
      next span hspan => exact ⟨span, hspan, (Except.ok.inj h).symm⟩
      · cases h

/-- A call changes nothing, creates the file, or edits it. -/
theorem execute_cases (tools : EditTools) (params : EditFileParams) (io : FileIo) (s : EditState) :
    (∃ e, execute tools params io s = (.error e, s)) ∨
    (s.files (tools.resolvePath params.filePath) = none ∧ execute tools params io s =
      createFile (tools.resolvePath params.filePath) params.newString io s) ∨
    ∃ file content newContent, s.files (tools.resolvePath params.filePath) = some file ∧
      readText file io = .ok content ∧
      findAndReplace tools.host params content = .ok newContent ∧
      ((execute tools params io s).1.isOk ↔ io.write = .done) ∧
      (execute tools params io s).2 =
        { files := s.files.write (tools.resolvePath params.filePath) newContent io.write
          history := Function.update s.history (tools.resolvePath params.filePath)
            (pushHistory tools.maxHistory (s.history (tools.resolvePath params.filePath)) content) }
    := by
  rw [execute]
  dsimp only
  split
  · exact .inl ⟨_, rfl⟩
  next hnone hfile =>
    split
    · exact .inr (.inl ⟨hfile, rfl⟩)
    · exact .inl ⟨_, rfl⟩
  next file hnone hfile =>
    split
    · exact .inl ⟨_, rfl⟩
    split
    · exact .inl ⟨_, rfl⟩
    next content hread =>
      split
      · exact .inl ⟨_, rfl⟩
      next newContent hreplace =>
        refine .inr (.inr ⟨file, content, newContent, hfile, hread, hreplace, ?_⟩)
        split
        next hwrite => simp [hwrite, Except.isOk, Except.toBool]
        next hwrite => simp [hwrite, Except.isOk, Except.toBool]

theorem readText_eq_ok {file : FileContent} (h : readText file io = .ok content) :
    ∃ cs, file = .text cs ∧ content = universalNewlines cs := by
  rw [readText.eq_def] at h
  split at h <;> cases h
  exact ⟨_, rfl, rfl⟩

theorem execute_of_text {cs newContent : List Char}
    (hfile : s.files (tools.resolvePath params.filePath) = some (.text cs)) (hio : io = {})
    (hne : params.oldString ≠ params.newString)
    (hreplace : findAndReplace tools.host params (universalNewlines cs) = .ok newContent) :
    (execute tools params io s).1.isOk ∧
      (execute tools params io s).2.files (tools.resolvePath params.filePath) =
        some (.text newContent) := by
  subst hio
  have hexecute : execute tools params {} s =
      (.ok (s!"Edited {tools.resolvePath params.filePath}\n" ++
        tools.generateDiff (universalNewlines cs) newContent (tools.resolvePath params.filePath)),
      { files := s.files.write (tools.resolvePath params.filePath) newContent .done
        history := Function.update s.history (tools.resolvePath params.filePath)
          (pushHistory tools.maxHistory (s.history (tools.resolvePath params.filePath))
            (universalNewlines cs)) }) := by
    simp only [execute, hfile, if_neg hne, readText, hreplace]
  rw [hexecute]
  exact ⟨rfl, Files.write_done _ _ _⟩

theorem chosen_of_occurs (h : needle <:+: content) : chosen host content needle = some .exact := by
  refine List.find?_cons_of_pos ?_
  simpa [Strategy.spans, matchExact_eq_nil_iff] using h

/-- Tools that answer with no diff, in a workspace without links. -/
def plainTools : EditTools where
  host := .ascii
  resolvePath := id
  generateDiff _ _ _ := ""

def oneFile (cs : List Char) : EditState where
  files path := if path = "f" then some (.text cs) else none

theorem splice_append (before matched after : List Char) :
    splice new (before ++ matched ++ after) (before.length, before.length + matched.length) =
      before ++ new ++ after := by
  rw [splice]
  dsimp only
  rw [← List.length_append, List.drop_left, List.append_assoc before, List.take_left]

/-- A span of lines is made of the lines of a window. -/
theorem mem_matchLines {count : Nat} {test : List (List Char) → Bool}
    (h : span ∈ matchLines content count test) :
    ∃ before matched after, splitLines content = before ++ matched ++ after ∧
      matched.length = count ∧ test matched = true ∧
      span = (before.flatten.length, before.flatten.length + matched.flatten.length) := by
  obtain ⟨index, hindex, hspan⟩ := List.mem_filterMap.mp h
  rw [List.mem_range] at hindex
  dsimp only at hspan
  split at hspan
  case isFalse => cases hspan
  next htest =>
    refine ⟨(splitLines content).take index, ((splitLines content).drop index).take count,
      ((splitLines content).drop index).drop count, ?_, ?_, htest, (Option.some.inj hspan).symm⟩
    · rw [List.append_assoc, List.take_append_drop, List.take_append_drop]
    · rw [List.length_take, List.length_drop]
      omega

theorem spans_of_ne_exact {strategy : Strategy} (hne : strategy ≠ .exact)
    (h : span ∈ strategy.spans host content needle) :
    ∃ count test, span ∈ matchLines content count test := by
  cases strategy with
  | exact => exact absurd rfl hne
  | trimmed =>
    rw [Strategy.spans, matchLineTrimmed] at h
    exact ⟨_, _, h⟩
  | whitespaceNormalized =>
    rw [Strategy.spans, matchWhitespaceNormalized] at h
    split at h
    · exact absurd h List.not_mem_nil
    · exact ⟨_, _, h⟩
  | indentationFlexible =>
    rw [Strategy.spans, matchIndentationFlexible] at h
    dsimp only at h
    split at h
    · exact absurd h List.not_mem_nil
    · exact ⟨_, _, h⟩

theorem mem_matchExact (h : span ∈ matchExact content needle) :
    ∃ before after, content = before ++ needle ++ after ∧
      span = (before.length, before.length + needle.length) := by
  rw [matchExact, matchExactFrom_eq] at h
  obtain ⟨i, hi, rfl⟩ := List.mem_map.mp h
  obtain ⟨hrange, hstarts⟩ := List.mem_filter.mp hi
  rw [List.mem_range'_1] at hrange
  obtain ⟨after, hafter⟩ := of_decide_eq_true hstarts
  refine ⟨content.take i, after, ?_, ?_⟩
  · rw [List.append_assoc, hafter, List.take_append_drop]
  · rw [List.length_take, Nat.min_eq_left (by omega)]

/-- Every strategy's span lies in the content, and one of lines begins where a line does. -/
theorem span_splits {strategy : Strategy} (h : span ∈ strategy.spans host content needle) :
    ∃ before matched after, content = before ++ matched ++ after ∧
      span = (before.length, before.length + matched.length) ∧
      (strategy ≠ .exact → after = [] ∨ before = [] ∨
        ∃ body b, before = body ++ [b] ∧ isLineBreak b = true) := by
  by_cases hexact : strategy = .exact
  · subst hexact
    obtain ⟨before, after, hsplit, hspan⟩ := mem_matchExact h
    exact ⟨before, needle, after, hsplit, hspan, fun hne => absurd rfl hne⟩
  · obtain ⟨_, _, hlines⟩ := spans_of_ne_exact hexact h
    obtain ⟨before, matched, after, hsplit, -, -, hspan⟩ := mem_matchLines hlines
    refine ⟨before.flatten, matched.flatten, after.flatten, ?_, hspan, fun _ => ?_⟩
    · rw [← List.flatten_append, ← List.flatten_append, ← hsplit, flatten_splitLines]
    · rw [List.append_assoc] at hsplit
      by_cases hlater : matched ++ after = []
      · rw [(List.append_eq_nil_iff.mp hlater).2]
        exact .inl rfl
      · exact .inr (flatten_ends_with_break hsplit hlater)

/-- What takes the place of lines leaves the next one on its own, or there is none. -/
def KeepsLines (host : Host) (params : EditFileParams) (content : List Char) : Prop :=
  params.newString = [] ∨ params.newString.getLast? = some '\n' ∨
    ∀ strategy, chosen host content params.oldString = some strategy →
      ∀ span ∈ strategy.spans host content params.oldString, span.2 = content.length

/-- After a break other than half of one, or at its start, a text begins a line. -/
theorem splitLines_append_of_ends (hends : content = [] ∨
      ∃ body b, content = body ++ [b] ∧ isLineBreak b = true ∧ b ≠ '\r') (after : List Char) :
    splitLines (content ++ after) = splitLines content ++ splitLines after := by
  rcases hends with rfl | ⟨body, b, rfl, hb, hreturn⟩
  · rfl
  · exact splitLines_append_break hb hreturn body after

theorem encodeText_append (cs ds : List Char) :
    encodeText (cs ++ ds) = encodeText cs ++ encodeText ds :=
  List.flatMap_append

theorem findAndReplace_of_trimmed (hsingle : params.replaceAll = false)
    (hexact : ¬ params.oldString <:+: content)
    (htrimmed : matchLineTrimmed host content params.oldString = [span]) :
    findAndReplace host params content = .ok (splice params.newString content span) := by
  have hnil := matchExact_eq_nil_iff.mpr hexact
  simp [findAndReplace, chosen, strategies, Strategy.spans, hnil, htrimmed, hsingle]

end MultiClaw.EditFile
