import Mathlib

/-! The lines of a text, with every character that Unicode counts as a line break. -/
namespace Base

def isLineBreak (c : Char) : Bool :=
  [10, 11, 12, 13, 28, 29, 30, 0x85, 0x2028, 0x2029].contains c.toNat

def consLine (c : Char) : List (List Char) → List (List Char)
  | [] => [[c]]
  | l :: ls => (c :: l) :: ls

/-- The lines with their breaks; a carriage return and a line feed are one break. -/
def splitLines : List Char → List (List Char)
  | [] => []
  | '\r' :: '\n' :: cs => ['\r', '\n'] :: splitLines cs
  | c :: cs => if isLineBreak c then [c] :: splitLines cs else consLine c (splitLines cs)

/-- The lines without their breaks. -/
def bareLines (cs : List Char) : List (List Char) :=
  (splitLines cs).map (·.takeWhile (!isLineBreak ·))

/-- A text as text mode reads it: every line break of another system is a line feed. -/
def universalNewlines : List Char → List Char
  | [] => []
  | '\r' :: '\n' :: cs => '\n' :: universalNewlines cs
  | c :: cs => (if c = '\r' then '\n' else c) :: universalNewlines cs

/-- A text without the spaces at its ends. -/
def strip (isSpace : Char → Bool) (cs : List Char) : List Char :=
  ((cs.dropWhile isSpace).reverse.dropWhile isSpace).reverse

theorem isLineBreak_of_mem_toDigits {c : Char} {n : Nat} (h : c ∈ Nat.toDigits 10 n) :
    isLineBreak c = false := by
  have hdigit := Nat.isDigit_of_mem_toDigits (by decide) (by decide) h
  have hbounds : 48 ≤ c.toNat ∧ c.toNat ≤ 57 := Char.isDigit_iff_toNat.mp hdigit
  simp only [isLineBreak, List.contains_eq_mem, List.mem_cons, List.not_mem_nil, or_false,
    decide_eq_false_iff_not]
  omega

theorem splitLines_cons_of_not_pair {c : Char} {cs : List Char}
    (h : c = '\r' → cs.head? ≠ some '\n') :
    splitLines (c :: cs) =
      if isLineBreak c then [c] :: splitLines cs else consLine c (splitLines cs) := by
  rw [splitLines]
  rintro _ rfl rfl
  exact h rfl rfl

theorem splitLines_cons {c : Char} (hc : c ≠ '\r') (cs : List Char) :
    splitLines (c :: cs) =
      if isLineBreak c then [c] :: splitLines cs else consLine c (splitLines cs) :=
  splitLines_cons_of_not_pair fun h => absurd h hc

theorem flatten_consLine (c : Char) (ls : List (List Char)) :
    (consLine c ls).flatten = c :: ls.flatten := by
  cases ls <;> rfl

theorem flatten_splitLines (cs : List Char) : (splitLines cs).flatten = cs := by
  fun_induction splitLines cs with
  | case1 => rfl
  | case2 cs ih => rw [List.flatten_cons, ih]; rfl
  | case3 c cs _ _ ih => rw [List.flatten_cons, ih]; rfl
  | case4 c cs _ _ ih => rw [flatten_consLine, ih]

/-- The first line ends at the first break. -/
theorem splitLines_break {line : List Char} (hline : line.any isLineBreak = false) {b : Char}
    (hb : isLineBreak b = true) (hreturn : b ≠ '\r') (cs : List Char) :
    splitLines (line ++ b :: cs) = (line ++ [b]) :: splitLines cs := by
  induction line with
  | nil => rw [List.nil_append, splitLines_cons hreturn, if_pos hb, List.nil_append]
  | cons c line ih =>
    rw [List.any_cons, Bool.or_eq_false_iff] at hline
    have hc : c ≠ '\r' := by
      rintro rfl
      exact absurd hline.1 (by decide)
    rw [List.cons_append, splitLines_cons hc, hline.1, ih hline.2]
    rfl

theorem splitLines_of_no_break {line : List Char} (hline : line.any isLineBreak = false)
    (hne : line ≠ []) : splitLines line = [line] := by
  induction line with
  | nil => exact absurd rfl hne
  | cons c line ih =>
    rw [List.any_cons, Bool.or_eq_false_iff] at hline
    have hc : c ≠ '\r' := by
      rintro rfl
      exact absurd hline.1 (by decide)
    rw [splitLines_cons hc, hline.1]
    rcases line with _ | ⟨d, line⟩
    · rfl
    · rw [ih hline.2 (List.cons_ne_nil d line)]
      rfl

/-- Lines that are joined by line feeds are as many again. -/
theorem length_splitLines_intercalate {ls : List (List Char)}
    (hls : ∀ l ∈ ls, l.any isLineBreak = false ∧ l ≠ []) :
    (splitLines (['\n'].intercalate ls)).length = ls.length := by
  induction ls with
  | nil => rfl
  | cons l ls ih =>
    rw [List.forall_mem_cons] at hls
    rcases ls with _ | ⟨l', ls⟩
    · rw [List.intercalate_singleton, splitLines_of_no_break hls.1.1 hls.1.2,
        List.length_singleton]
    · have hjoin : ['\n'].intercalate (l :: l' :: ls) =
          l ++ '\n' :: ['\n'].intercalate (l' :: ls) := by
        rw [List.intercalate_cons_cons, List.append_assoc]
        rfl
      rw [hjoin, splitLines_break hls.1.1 rfl (by decide), List.length_cons, ih hls.2]
      rfl

/-- Lines that each end with a line feed come back. -/
theorem bareLines_flatMap {ls : List (List Char)} (hls : ∀ l ∈ ls, l.any isLineBreak = false) :
    bareLines (ls.flatMap (· ++ ['\n'])) = ls := by
  induction ls with
  | nil => rfl
  | cons l ls ih =>
    rw [List.forall_mem_cons] at hls
    have hbare : (l ++ ['\n']).takeWhile (!isLineBreak ·) = l := by
      rw [List.takeWhile_append_of_pos]
      · rw [List.takeWhile_cons_of_neg (by decide), List.append_nil]
      · intro c hc
        simpa using List.any_eq_false.mp hls.1 c hc
    rw [bareLines, List.flatMap_cons, List.append_assoc, List.singleton_append,
      splitLines_break hls.1 rfl (by decide), List.map_cons, hbare, ← bareLines, ih hls.2]

/-- A line is a text without breaks, and its break. -/
theorem body_of_mem_splitLines (cs : List Char) :
    ∀ l ∈ splitLines cs, ∃ body ending, l = body ++ ending ∧ body.any isLineBreak = false ∧
      ∀ b ∈ ending, isLineBreak b = true := by
  fun_induction splitLines cs with
  | case1 => simp
  | case2 cs ih =>
    exact List.forall_mem_cons.mpr ⟨⟨[], ['\r', '\n'], rfl, rfl, by simp [isLineBreak]⟩, ih⟩
  | case3 c cs _ hc ih =>
    exact List.forall_mem_cons.mpr ⟨⟨[], [c], rfl, rfl, by simpa using hc⟩, ih⟩
  | case4 c cs _ hc ih =>
    have hc : isLineBreak c = false := Bool.eq_false_iff.mpr hc
    rcases hls : splitLines cs with _ | ⟨k, ks⟩
    · exact List.forall_mem_cons.mpr ⟨⟨[c], [], rfl, by simpa using hc, by simp⟩, by simp⟩
    · rw [hls, List.forall_mem_cons] at ih
      obtain ⟨⟨body, ending, rfl, hbody, hending⟩, hks⟩ := ih
      refine List.forall_mem_cons.mpr ⟨⟨c :: body, ending, rfl, ?_, hending⟩, hks⟩
      rw [List.any_cons, hc, hbody]
      rfl

/-- Every line but the last has its break. -/
theorem break_of_mem_dropLast (cs : List Char) :
    ∀ l ∈ (splitLines cs).dropLast, ∃ k b, l = k ++ [b] ∧ isLineBreak b = true := by
  fun_induction splitLines cs with
  | case1 => simp
  | case2 cs ih =>
    intro l hl
    rcases hls : splitLines cs with _ | ⟨k, ks⟩ <;> rw [hls] at hl ih
    · simp at hl
    · rcases List.mem_cons.mp hl with rfl | hl
      · exact ⟨['\r'], '\n', rfl, rfl⟩
      · exact ih l hl
  | case3 c cs _ hc ih =>
    intro l hl
    rcases hls : splitLines cs with _ | ⟨k, ks⟩ <;> rw [hls] at hl ih
    · simp at hl
    · rcases List.mem_cons.mp hl with rfl | hl
      · exact ⟨[], c, rfl, hc⟩
      · exact ih l hl
  | case4 c cs _ _ ih =>
    intro l hl
    rcases hls : splitLines cs with _ | ⟨k, _ | ⟨k', ks⟩⟩ <;> rw [hls] at hl ih
    · simp [consLine] at hl
    · simp [consLine] at hl
    · rw [consLine, List.dropLast_cons_cons] at hl
      rcases List.mem_cons.mp hl with rfl | hl
      · obtain ⟨body, b, rfl, hb⟩ := ih k List.mem_cons_self
        exact ⟨c :: body, b, rfl, hb⟩
      · exact ih l (List.mem_cons_of_mem k hl)

/-- What comes before a line is empty or ends with a break. -/
theorem flatten_ends_with_break {cs : List Char} {ls ms : List (List Char)}
    (h : splitLines cs = ls ++ ms) (hms : ms ≠ []) :
    ls.flatten = [] ∨ ∃ body b, ls.flatten = body ++ [b] ∧ isLineBreak b = true := by
  rcases List.eq_nil_or_concat ls with rfl | ⟨init, l, rfl⟩
  · exact .inl rfl
  · have hmem : l ∈ (splitLines cs).dropLast := by
      rw [h, List.dropLast_append_of_ne_nil hms]
      simp
    obtain ⟨body, b, rfl, hb⟩ := break_of_mem_dropLast cs l hmem
    exact .inr ⟨init.flatten ++ body, b, by simp, hb⟩

theorem consLine_append {c : Char} {ls ms : List (List Char)} (h : ls ≠ []) :
    consLine c (ls ++ ms) = consLine c ls ++ ms := by
  cases ls with
  | nil => exact absurd rfl h
  | cons l ls => rfl

theorem splitLines_ne_nil {cs : List Char} (h : cs ≠ []) : splitLines cs ≠ [] := by
  intro hnil
  have hflatten := flatten_splitLines cs
  rw [hnil] at hflatten
  exact h hflatten.symm

/-- A text that ends with a break, other than half of one, is split apart from what follows. -/
theorem splitLines_append_break {b : Char} (hb : isLineBreak b = true) (hreturn : b ≠ '\r')
    (body cs : List Char) :
    splitLines (body ++ [b] ++ cs) = splitLines (body ++ [b]) ++ splitLines cs := by
  induction hn : body.length using Nat.strongRecOn generalizing body with
  | _ n ih =>
    subst hn
    rcases body with _ | ⟨c, body⟩
    · rw [List.nil_append, List.singleton_append, splitLines_cons hreturn,
        splitLines_cons hreturn, if_pos hb, if_pos hb]
      rfl
    by_cases hpair : c = '\r' ∧ (body ++ [b]).head? = some '\n'
    · obtain ⟨rfl, hhead⟩ := hpair
      rcases body with _ | ⟨d, body⟩
      · cases hhead
        simp [splitLines]
      · cases hhead
        have hlt : body.length < body.length + 1 + 1 := by omega
        simp only [List.cons_append, splitLines]
        rw [ih body.length hlt body rfl]
    · have hrest := ih body.length (by simp) body rfl
      have hhead : (body ++ [b] ++ cs).head? = (body ++ [b]).head? := by
        rcases body with _ | ⟨d, body⟩ <;> rfl
      have hnot : c = '\r' → (body ++ [b]).head? ≠ some '\n' := fun hc h => hpair ⟨hc, h⟩
      rw [List.cons_append, List.cons_append, splitLines_cons_of_not_pair hnot,
        splitLines_cons_of_not_pair (hhead ▸ hnot), hrest]
      split
      · rfl
      · exact consLine_append (splitLines_ne_nil (by simp))

theorem universalNewlines_of_notMem {cs : List Char} (h : '\r' ∉ cs) :
    universalNewlines cs = cs := by
  fun_induction universalNewlines cs with
  | case1 => rfl
  | case2 cs ih => exact absurd List.mem_cons_self h
  | case3 c cs _ ih =>
    rw [List.mem_cons, not_or] at h
    rw [if_neg (Ne.symm h.1), ih h.2]

theorem count_newline_le_one (cs : List Char) : ∀ l ∈ splitLines cs, l.count '\n' ≤ 1 := by
  fun_induction splitLines cs with
  | case1 => simp
  | case2 cs ih => exact List.forall_mem_cons.mpr ⟨by decide, ih⟩
  | case3 c cs _ _ ih => exact List.forall_mem_cons.mpr ⟨List.count_le_length, ih⟩
  | case4 c cs _ hc ih =>
    have hne : c ≠ '\n' := by
      rintro rfl
      exact absurd hc (by decide)
    cases hls : splitLines cs with
    | nil => simp [consLine, hne]
    | cons k ks =>
      rw [hls, List.forall_mem_cons] at ih
      rw [consLine, List.forall_mem_cons, List.count_cons_of_ne hne]
      exact ih

/-- A text between characters that are no spaces keeps them. -/
theorem strip_padded {isSpace : Char → Bool} {c d : Char} {cs ds : List Char}
    (hc : isSpace c = false) (hd : isSpace d = false) (hds : ∀ x ∈ ds, isSpace x = true) :
    strip isSpace (c :: cs ++ [d] ++ ds) = c :: cs ++ [d] := by
  rw [strip, List.cons_append, List.cons_append, List.dropWhile_cons_of_neg (by simp [hc]),
    ← List.cons_append, ← List.cons_append, List.reverse_append,
    List.dropWhile_append_of_pos (by simpa using hds), List.reverse_append, List.reverse_singleton,
    List.singleton_append, List.dropWhile_cons_of_neg (by simp [hd])]
  simp

end Base
