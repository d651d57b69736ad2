import MultiClaw.Tools.ReadFile

/-! Every line is shown once, page by page. -/
namespace MultiClaw.ReadFile

open Base

variable {tools : ReadTools} {params : ReadFileParams} {decoding : Decoding} {path : String}
  {lines input : List (List Char)} {text : List Char} {k : Nat}

/-! The rows of a page -/

/-- Without the spaces at its end the line has no break. -/
def Unbroken (tools : ReadTools) (line : List Char) : Prop :=
  (line.rdropWhile tools.host.isSpace).any isLineBreak = false

theorem numberedRow_unbroken {line : List Char} (h : Unbroken tools line) (width no : Nat) :
    (numberedRow tools width (line, no)).any isLineBreak = false ∧
      numberedRow tools width (line, no) ≠ [] := by
  constructor
  · have hpad : ((Nat.toDigits 10 no).leftpad width ' ').any isLineBreak = false := by
      rw [List.leftpad, List.any_append, Bool.or_eq_false_iff, List.any_eq_false, List.any_eq_false]
      constructor
      · intro c hc
        rw [List.eq_of_mem_replicate hc]
        decide
      · exact fun c hc => by simpa using isLineBreak_of_mem_toDigits hc
    rw [numberedRow, List.any_append, List.any_cons, hpad, h]
    rfl
  · rw [numberedRow]
    simp

theorem length_splitLines_addLineNumbers (h : ∀ line ∈ lines, Unbroken tools line) (offset : Nat) :
    (splitLines (addLineNumbers tools offset lines)).length = lines.length := by
  rw [addLineNumbers, length_splitLines_intercalate, List.length_map, List.length_zipIdx]
  intro row hrow
  obtain ⟨⟨line, no⟩, hmem, rfl⟩ := List.mem_map.mp hrow
  exact numberedRow_unbroken (h line (List.fst_mem_of_mem_zipIdx hmem)) _ no

theorem unbroken_of_mem_splitLines {line : List Char} (h : line ∈ splitLines text) :
    Unbroken tools line := by
  obtain ⟨body, ending, rfl, hbody, hending⟩ := body_of_mem_splitLines text line h
  have hstrip : (body ++ ending).rdropWhile tools.host.isSpace =
      body.rdropWhile tools.host.isSpace := by
    rw [List.rdropWhile, List.reverse_append, List.dropWhile_append_of_pos, ← List.rdropWhile]
    intro b hb
    exact tools.isSpace_of_isLineBreak b (hending b (List.mem_reverse.mp hb))
  rw [List.any_eq_false] at hbody
  rw [Unbroken, hstrip, List.any_eq_false]
  exact fun c hc => hbody c ((List.rdropWhile_prefix _ body).subset hc)

/-! Both ways of reading -/

theorem streamPass_eq : streamPass params ([], 0) input =
    ((input.drop (params.offset - 1)).take params.limit, input.length) := by
  induction input using List.reverseRecOn with
  | nil =>
    rw [List.drop_nil, List.take_nil]
    rfl
  | append_singleton input line ih =>
    rw [streamPass] at ih
    rw [streamPass, List.zipIdx_append, List.foldl_append, ih]
    simp only [List.zipIdx_singleton, List.foldl_cons, List.foldl_nil, List.length_take,
      List.length_drop, List.length_append, List.length_singleton, Nat.zero_add, Prod.mk.injEq,
      and_true]
    split
    case isTrue h =>
      rw [List.drop_append_of_le_length h.1, List.take_append,
        List.take_of_length_le (by rw [List.length_drop]; omega),
        List.take_of_length_le (by rw [List.length_singleton, List.length_drop]; omega)]
    case isFalse h =>
      by_cases hstart : params.offset - 1 ≤ input.length
      · rw [List.drop_append_of_le_length hstart, List.take_append_of_le_length]
        rw [List.length_drop]
        omega
      · rw [List.drop_of_length_le (by omega), List.drop_of_length_le]
        rw [List.length_append, List.length_singleton]
        omega

theorem sliceLines_eq : sliceLines tools params lines =
    (addLineNumbers tools params.offset ((lines.drop (params.offset - 1)).take params.limit),
      lines.length) := by
  rw [sliceLines]
  dsimp only
  split
  case isTrue h =>
    rw [List.drop_of_length_le h, List.take_nil]
    rfl
  case isFalse h =>
    rw [List.drop_take]
    rcases Nat.le_total lines.length (params.offset - 1 + params.limit) with hle | hle
    · rw [Nat.min_eq_left hle, List.take_of_length_le (by rw [List.length_drop]),
        List.take_of_length_le (by rw [List.length_drop]; omega)]
    · rw [Nat.min_eq_right hle, Nat.add_sub_cancel_left]

/-- The lines of a file, in the sense of the mode in which it is read. -/
def fileLines (decoding : Decoding) : List (List Char) :=
  if decoding.size ≥ streamThreshold then handleLines (universalNewlines decoding.text)
  else splitLines (universalNewlines decoding.text)

/-- A small file, or a large one in UTF-8 whose lines have no other breaks inside. -/
def Readable (tools : ReadTools) (decoding : Decoding) : Prop :=
  decoding.size < streamThreshold ∨
    ∃ text, decoding = .utf8 text ∧
      ∀ line ∈ handleLines (universalNewlines text), Unbroken tools line

theorem unbroken_of_readable (h : Readable tools decoding) :
    ∀ line ∈ fileLines decoding, Unbroken tools line := by
  intro line hline
  rw [fileLines] at hline
  split at hline
  case isTrue hlarge =>
    rcases h with hsmall | ⟨text, rfl, hlines⟩
    · omega
    · exact hlines line hline
  case isFalse => exact unbroken_of_mem_splitLines hline

/-- A call shows the lines from its offset on, and counts them. -/
theorem execute_eq (path : String) (params : ReadFileParams) (h : Readable tools decoding) :
    execute tools path (.regular decoding) params =
      .ok ⟨path, params.offset,
        params.offset +
          (((fileLines decoding).drop (params.offset - 1)).take params.limit).length - 1,
        (fileLines decoding).length,
        addLineNumbers tools params.offset
          (((fileLines decoding).drop (params.offset - 1)).take params.limit)⟩ := by
  have hpage : (if decoding.size ≥ streamThreshold then readStreaming tools params decoding
      else readStandard tools params decoding) =
      (addLineNumbers tools params.offset
        (((fileLines decoding).drop (params.offset - 1)).take params.limit),
      (fileLines decoding).length) := by
    rw [fileLines]
    split
    case isTrue hlarge =>
      rcases h with hsmall | ⟨text, rfl, hlines⟩
      · omega
      · rw [readStreaming]
        dsimp only
        rw [streamPass_eq]
        rfl
    case isFalse => rw [readStandard, sliceLines_eq]
  have hunbroken : ∀ line ∈ ((fileLines decoding).drop (params.offset - 1)).take params.limit,
      Unbroken tools line :=
    fun line hline =>
      unbroken_of_readable h line (List.mem_of_mem_drop (List.mem_of_mem_take hline))
  rw [execute, hpage]
  dsimp only
  rw [length_splitLines_addLineNumbers hunbroken]

/-! The pages -/

theorem zipIdx_drop_eq_append {limit start : Nat} {page : List (List Char)}
    (hpage : (lines.drop k).take limit = page) :
    (lines.drop k).zipIdx start =
      page.zipIdx start ++ (lines.drop (k + page.length)).zipIdx (start + page.length) := by
  have hdrop : (lines.drop k).drop page.length = lines.drop (k + page.length) := List.drop_drop
  have hstarts : page <+: lines.drop k := hpage ▸ List.take_prefix limit _
  conv_lhs => rw [← List.take_append_drop page.length (lines.drop k)]
  rw [List.zipIdx_append, hdrop, ← List.prefix_iff_eq_take.mp hstarts]

/-- From any line on, the hints lead through the rest of the file. -/
theorem followHints_from (h : Readable tools decoding) (params : ReadFileParams)
    (hoffset : params.offset = k + 1) (hk : k ≤ (fileLines decoding).length) :
    ∃ calls outputs, ∃ pages : List (Nat × List (List Char)),
      followHints tools path (.regular decoding) calls params = some outputs ∧
      outputs.map ReadOutput.content = pages.map (fun page => addLineNumbers tools page.1 page.2) ∧
      pages.flatMap (fun page => page.2.zipIdx page.1) =
        ((fileLines decoding).drop k).zipIdx (k + 1) := by
  -- the rest of the file gets shorter with every page that has a hint
  induction hn : (fileLines decoding).length - k using Nat.strongRecOn generalizing k params with
  | _ n ih =>
    subst hn
    have hexecute := execute_eq path params h
    rw [hoffset, Nat.add_sub_cancel] at hexecute
    generalize hpage : ((fileLines decoding).drop k).take params.limit = page at hexecute
    have hlen : page.length = min params.limit ((fileLines decoding).length - k) := by
      rw [← hpage, List.length_take, List.length_drop]
    have hend : k + 1 + page.length - 1 = k + page.length := by omega
    rw [hend] at hexecute
    generalize houtput : ReadOutput.mk path (k + 1) (k + page.length) (fileLines decoding).length
      (addLineNumbers tools (k + 1) page) = output at hexecute
    have hcontent : output.content = addLineNumbers tools (k + 1) page := by rw [← houtput]
    rw [zipIdx_drop_eq_append hpage]
    by_cases hmore : k + page.length < (fileLines decoding).length
    case pos =>
      have hpos : 0 < page.length := by
        have := params.limit_pos
        omega
      obtain ⟨calls, outputs, pages, hfollow, hcontents, hnumbers⟩ :=
        ih ((fileLines decoding).length - (k + page.length)) (by omega)
          { params with offset := k + page.length + 1, offset_pos := by omega } rfl hmore.le rfl
      have hhint : output.hint = some (k + page.length + 1) := by
        rw [← houtput, ReadOutput.hint, if_pos hmore]
      refine ⟨calls + 1, output :: outputs, (k + 1, page) :: pages, ?_, ?_, ?_⟩
      · rw [followHints, hexecute]
        simp only [hhint, Nat.le_add_left, dite_true, hfollow, Option.map_eq_map, Option.map_some]
      · rw [List.map_cons, List.map_cons, hcontents, hcontent]
      · rw [List.flatMap_cons, hnumbers, Nat.add_right_comm]
    case neg =>
      have hhint : output.hint = none := by rw [← houtput, ReadOutput.hint, if_neg hmore]
      refine ⟨1, [output], [(k + 1, page)], ?_, ?_, ?_⟩
      · rw [followHints, hexecute]
        simp only [hhint]
      · rw [List.map_singleton, List.map_singleton, hcontent]
      · rw [List.drop_of_length_le (by omega)]
        simp

/-- A host whose spaces are those of ASCII and the line breaks. -/
def plainTools : ReadTools where
  host := { Host.ascii with
    isSpace := fun c => Host.ascii.isSpace c || isLineBreak c
    isSpace_ascii := by
      intro c hc
      simp only [Host.ascii, isLineBreak, List.contains_eq_mem, List.mem_cons, List.not_mem_nil,
        or_false]
      rw [Bool.eq_iff_iff]
      simp only [Bool.or_eq_true, Bool.and_eq_true, decide_eq_true_eq]
      omega }
  isSpace_of_isLineBreak c h := by simp [h]

theorem length_le_length_bytes (cs : List Char) : cs.length ≤ (encodeText cs).length := by
  induction cs with
  | nil => exact le_refl 0
  | cons c cs ih =>
    have hpos : 0 < (String.utf8EncodeChar c).length := by
      rw [String.length_utf8EncodeChar]
      exact Char.utf8Size_pos c
    rw [encodeText, List.flatMap_cons, ← encodeText, List.length_append, List.length_cons]
    omega

theorem handleLines_of_notMem {line : List Char} (h : '\n' ∉ line) (hne : line ≠ []) :
    handleLines line = [line] := by
  induction line with
  | nil => exact absurd rfl hne
  | cons c line ih =>
    rw [List.mem_cons, not_or] at h
    rw [handleLines, if_neg (Ne.symm h.1)]
    rcases line with _ | ⟨d, line⟩
    · rfl
    · rw [ih h.2 (List.cons_ne_nil d line)]
      rfl

/-- Three lines, of which the first has a vertical tab. -/
def threeLines (line : List Char) : List Char := ['a', '\x0b', 'b', '\n', 'c', '\n'] ++ line

section
variable {line : List Char} (hx : ∀ c ∈ line, c = 'x') (hlong : streamThreshold ≤ line.length)
include hx hlong

theorem handleLines_threeLines : handleLines (universalNewlines (threeLines line)) =
    [['a', '\x0b', 'b', '\n'], ['c', '\n'], line] := by
  have hreturn : '\r' ∉ threeLines line := by
    rw [threeLines, List.mem_append, not_or]
    exact ⟨by decide, fun h => absurd (hx _ h) (by decide)⟩
  have hnewline : '\n' ∉ line := fun h => absurd (hx _ h) (by decide)
  have hne : line ≠ [] := by
    rintro rfl
    exact absurd hlong (by decide)
  rw [universalNewlines_of_notMem hreturn, threeLines]
  simp [handleLines, consLine, handleLines_of_notMem hnewline hne]

theorem execute_threeLines (params : ReadFileParams) :
    execute plainTools "f" (.regular (.utf8 (threeLines line))) params =
      (let content := addLineNumbers plainTools params.offset
        (([['a', '\x0b', 'b', '\n'], ['c', '\n'], line].drop (params.offset - 1)).take params.limit)
      .ok ⟨"f", params.offset, params.offset + (splitLines content).length - 1, 3, content⟩) := by
  have hlarge : (Decoding.utf8 (threeLines line)).size ≥ streamThreshold := by
    have hbytes := length_le_length_bytes (threeLines line)
    have hlen : (threeLines line).length = 6 + line.length := List.length_append
    rw [Decoding.size]
    omega
  rw [execute, if_pos hlarge, readStreaming]
  dsimp only
  rw [streamPass_eq, handleLines_threeLines hx hlong]
  rfl

theorem followHints_threeLines :
    ∃ first last, followHints plainTools "f" (.regular (.utf8 (threeLines line))) 2
        ⟨1, 1, le_refl 1, le_refl 1⟩ = some [first, last] ∧
      first.content = addLineNumbers plainTools 1 [['a', '\x0b', 'b', '\n']] ∧
      last.content = addLineNumbers plainTools 3 [line] := by
  have hunbroken : Unbroken plainTools line := by
    rw [Unbroken, List.any_eq_false]
    intro c hc
    rw [hx c ((List.rdropWhile_prefix _ line).subset hc)]
    decide
  have hlast : (splitLines (addLineNumbers plainTools 3 [line])).length = 1 :=
    length_splitLines_addLineNumbers (by simpa using hunbroken) 3
  have hfirst : (splitLines (addLineNumbers plainTools 1 [['a', '\x0b', 'b', '\n']])).length = 2 :=
    by decide
  refine ⟨⟨"f", 1, 2, 3, addLineNumbers plainTools 1 [['a', '\x0b', 'b', '\n']]⟩,
    ⟨"f", 3, 3, 3, addLineNumbers plainTools 3 [line]⟩, ?_, rfl, rfl⟩
  simp [followHints, execute_threeLines hx hlong, hfirst, hlast, ReadOutput.hint]

end

end MultiClaw.ReadFile
