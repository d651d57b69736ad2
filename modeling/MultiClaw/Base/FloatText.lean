import MultiClaw.Base.JsonText
import MultiClaw.Base.Rounding

/-! The text of a double is ASCII and reads back as the double. -/
namespace Base.Json

open Double

variable {body rest rest' whole ds : List Char} {negative : Bool} {e : Int}

/-! Reading a number in parts -/

def signText (negative : Bool) : List Char := if negative then ['-'] else []

theorem sign_ne_of_digit {c : Char} {cs : List Char} (hc : c.isDigit = true) (cs' : List Char) :
    c :: cs ≠ '-' :: cs' := by
  rintro h
  cases h
  exact absurd hc (by decide)

section Parts

variable (hbody : body.head?.any Char.isDigit = true)
  (hwhole : scanInteger body = some (whole, rest))
include hbody hwhole

theorem parseNumber_fraction (hfraction : scanFraction rest = some (ds, rest'))
    (hexponent : scanExponent rest' = none) :
    parseNumber (signText negative ++ body) =
      .ok (float (.ofDecimal negative (digitsValue (whole ++ ds)) (-(ds.length : Int))),
        rest') := by
  obtain ⟨c, cs, rfl⟩ : ∃ c cs, body = c :: cs := List.exists_cons_of_ne_nil (by
    rintro rfl
    cases hbody)
  cases negative with
  | true => simp [signText, parseNumber, hwhole, hfraction, hexponent]
  | false => simp [signText, parseNumber, hwhole, hfraction, hexponent, sign_ne_of_digit hbody]

theorem parseNumber_exponent (hfraction : scanFraction rest = none)
    (hexponent : scanExponent rest = some (e, rest')) :
    parseNumber (signText negative ++ body) =
      .ok (float (.ofDecimal negative (digitsValue whole) e), rest') := by
  obtain ⟨c, cs, rfl⟩ : ∃ c cs, body = c :: cs := List.exists_cons_of_ne_nil (by
    rintro rfl
    cases hbody)
  cases negative with
  | true => simp [signText, parseNumber, hwhole, hfraction, hexponent]
  | false => simp [signText, parseNumber, hwhole, hfraction, hexponent, sign_ne_of_digit hbody]

theorem parseNumber_fraction_exponent (hfraction : scanFraction rest = some (ds, rest'))
    {rest'' : List Char} (hexponent : scanExponent rest' = some (e, rest'')) :
    parseNumber (signText negative ++ body) =
      .ok (float (.ofDecimal negative (digitsValue (whole ++ ds)) (e - ds.length)), rest'') := by
  obtain ⟨c, cs, rfl⟩ : ∃ c cs, body = c :: cs := List.exists_cons_of_ne_nil (by
    rintro rfl
    cases hbody)
  cases negative with
  | true => simp [signText, parseNumber, hwhole, hfraction, hexponent]
  | false => simp [signText, parseNumber, hwhole, hfraction, hexponent, sign_ne_of_digit hbody]

end Parts

theorem scanFraction_digits (hds : ∀ c ∈ ds, c.isDigit = true) (hne : ds ≠ [])
    (hrest : rest.head?.any Char.isDigit = false) :
    scanFraction ('.' :: (ds ++ rest)) = some (ds, rest) := by
  rw [scanFraction, span_digits hds hrest]
  cases ds with
  | nil => exact absurd rfl hne
  | cons d ds => rfl

/-- The digits of an exponent, at least two of them. -/
def exponentDigits (n : Nat) : List Char :=
  if (toString n).toList.length < 2 then '0' :: (toString n).toList else (toString n).toList

theorem toList_toString (n : Nat) : (toString n).toList = Nat.toDigits 10 n := by
  simp [toString, Nat.repr]

theorem exponentDigits_isDigit {n : Nat} : ∀ c ∈ exponentDigits n, c.isDigit = true := by
  rw [exponentDigits, toList_toString]
  split_ifs
  · exact List.forall_mem_cons.mpr ⟨by decide, fun c hc => toDigits_isDigit hc⟩
  · exact fun c hc => toDigits_isDigit hc

theorem digitsValue_exponentDigits (n : Nat) : digitsValue (exponentDigits n) = n := by
  rw [exponentDigits, toList_toString]
  split_ifs
  · rw [digitsValue, Nat.ofDigitChars_cons]
    exact Nat.ofDigitChars_ten_toDigits
  · exact Nat.ofDigitChars_ten_toDigits

theorem scanExponent_digits (k : Int) (hrest : Delimited rest) :
    scanExponent ('e' :: (if k < 0 then '-' else '+') :: (exponentDigits k.natAbs ++ rest)) =
      some (k, rest) := by
  have hspan := span_digits (exponentDigits_isDigit (n := k.natAbs)) hrest.no_digit
  have hvalue := digitsValue_exponentDigits k.natAbs
  have hne : exponentDigits k.natAbs ≠ [] := by
    rw [exponentDigits, toList_toString]
    split_ifs
    · simp
    · exact Nat.toDigits_ne_nil
  obtain ⟨d, ds, hds⟩ := List.exists_cons_of_ne_nil hne
  rw [hds] at hspan hvalue ⊢
  by_cases hk : k < 0
  · simp only [if_pos hk, scanExponent, hspan, hvalue]
    simp [abs_of_neg hk]
  · simp only [if_neg hk, scanExponent, hspan, hvalue]
    simp
    omega

/-! The shapes of a decimal -/

/-- The digits of a positive number, without zeros in front. -/
structure Digits (ds : List Char) : Prop where
  isDigit : ∀ c ∈ ds, c.isDigit = true
  head : ∃ c cs, ds = c :: cs ∧ c ≠ '0'

theorem digits_toDigits {n : Nat} (hn : 0 < n) : Digits (Nat.toDigits 10 n) where
  isDigit _ hc := toDigits_isDigit hc
  head := toDigits_head hn

theorem zeros_isDigit {k : Nat} : ∀ c ∈ List.replicate k '0', c.isDigit = true := by
  intro c hc
  rw [List.eq_of_mem_replicate hc]
  decide

theorem parseNumber_small (h : Digits ds) (k : Nat) (hrest : Delimited rest) :
    parseNumber (signText negative ++ ('0' :: '.' :: List.replicate k '0' ++ ds ++ rest)) =
      .ok (float (.ofDecimal negative (digitsValue ds) (-(k + ds.length : Nat))), rest) := by
  obtain ⟨c, cs, hcs, -⟩ := h.head
  have hall : ∀ x ∈ List.replicate k '0' ++ ds, x.isDigit = true :=
    List.forall_mem_append.mpr ⟨zeros_isDigit, h.isDigit⟩
  have hfraction : scanFraction ('.' :: (List.replicate k '0' ++ ds ++ rest)) =
      some (List.replicate k '0' ++ ds, rest) :=
    scanFraction_digits hall (by simp [hcs]) hrest.no_digit
  have hread : parseNumber (signText negative ++
      '0' :: '.' :: (List.replicate k '0' ++ ds ++ rest)) = _ :=
    parseNumber_fraction rfl rfl hfraction (scanExponent_delimited hrest)
  have hvalue : digitsValue (['0'] ++ (List.replicate k '0' ++ ds)) = digitsValue ds := by
    rw [digitsValue, Nat.ofDigitChars_append, Nat.ofDigitChars_append,
      Nat.ofDigitChars_replicate_zero]
    rfl
  rw [hvalue, List.length_append, List.length_replicate] at hread
  exact hread

theorem parseNumber_whole (h : Digits ds) (k : Nat) (hrest : Delimited rest) :
    parseNumber (signText negative ++ (ds ++ List.replicate k '0' ++ ['.', '0'] ++ rest)) =
      .ok (float (.ofDecimal negative (digitsValue ds * 10 ^ (k + 1)) (-1)), rest) := by
  obtain ⟨c, cs, rfl, hc⟩ := h.head
  have hall : ∀ x ∈ c :: (cs ++ List.replicate k '0'), x.isDigit = true := by
    rw [← List.cons_append]
    exact List.forall_mem_append.mpr ⟨h.isDigit, zeros_isDigit⟩
  have hwhole : scanInteger (c :: (cs ++ List.replicate k '0') ++ '.' :: '0' :: rest) =
      some (c :: (cs ++ List.replicate k '0'), '.' :: '0' :: rest) :=
    scanInteger_of_ne_zero hc hall rfl
  have hfraction : scanFraction ('.' :: (['0'] ++ rest)) = some (['0'], rest) :=
    scanFraction_digits (List.forall_mem_singleton.mpr rfl) (by simp) hrest.no_digit
  have hread : parseNumber (signText negative ++
      (c :: (cs ++ List.replicate k '0') ++ '.' :: '0' :: rest)) = _ :=
    parseNumber_fraction (h.isDigit c (by simp)) hwhole hfraction (scanExponent_delimited hrest)
  have hvalue : digitsValue (c :: (cs ++ List.replicate k '0') ++ ['0']) =
      digitsValue (c :: cs) * 10 ^ (k + 1) := by
    rw [← List.cons_append, List.append_assoc, digitsValue, Nat.ofDigitChars_append,
      Nat.ofDigitChars_append, Nat.ofDigitChars_replicate_zero]
    simp [Nat.ofDigitChars, digitsValue]
    ring
  rw [hvalue] at hread
  simpa using hread

theorem parseNumber_split (h : Digits ds) {k : Nat} (hpos : 0 < k) (hlt : k < ds.length)
    (hrest : Delimited rest) :
    parseNumber (signText negative ++ (ds.take k ++ '.' :: ds.drop k ++ rest)) =
      .ok (float (.ofDecimal negative (digitsValue ds) (-(ds.length - k : Nat))), rest) := by
  obtain ⟨c, cs, rfl, hc⟩ := h.head
  obtain ⟨k, rfl⟩ : ∃ j, k = j + 1 := ⟨k - 1, by omega⟩
  have hwhole : scanInteger (c :: cs.take k ++ '.' :: (cs.drop k ++ rest)) =
      some (c :: cs.take k, '.' :: (cs.drop k ++ rest)) :=
    scanInteger_of_ne_zero hc (fun x hx => h.isDigit x (by
      rcases List.mem_cons.mp hx with rfl | hx
      · simp
      · exact List.mem_cons_of_mem _ (List.mem_of_mem_take hx))) rfl
  have hfraction : scanFraction ('.' :: (cs.drop k ++ rest)) = some (cs.drop k, rest) :=
    scanFraction_digits (fun x hx => h.isDigit x (List.mem_cons_of_mem _ (List.mem_of_mem_drop hx)))
      (by simpa using hlt) hrest.no_digit
  have hread : parseNumber (signText negative ++
      (c :: cs.take k ++ '.' :: (cs.drop k ++ rest))) = _ :=
    parseNumber_fraction (h.isDigit c (by simp)) hwhole hfraction (scanExponent_delimited hrest)
  have hdigits : c :: cs.take k ++ cs.drop k = c :: cs := by simp
  rw [hdigits] at hread
  simpa using hread

/-- The digits with a point behind the first one. -/
def mantissaText : List Char → List Char
  | [] => []
  | [c] => [c]
  | c :: cs => c :: '.' :: cs

theorem parseNumber_scientific (h : Digits ds) (k : Int) (hrest : Delimited rest) :
    parseNumber (signText negative ++ (mantissaText ds ++
      'e' :: (if k < 0 then '-' else '+') :: exponentDigits k.natAbs ++ rest)) =
      .ok (float (.ofDecimal negative (digitsValue ds) (k + 1 - ds.length)), rest) := by
  obtain ⟨c, cs, rfl, hc⟩ := h.head
  have hcdigit : c.isDigit = true := h.isDigit c (by simp)
  have hexponent := scanExponent_digits k hrest
  cases cs with
  | nil =>
    have hwhole : scanInteger ([c] ++ 'e' :: (if k < 0 then '-' else '+') ::
        (exponentDigits k.natAbs ++ rest)) = _ :=
      scanInteger_of_ne_zero hc h.isDigit rfl
    have hread : parseNumber (signText negative ++ ([c] ++ 'e' :: (if k < 0 then '-' else '+') ::
        (exponentDigits k.natAbs ++ rest))) = _ :=
      parseNumber_exponent hcdigit hwhole rfl hexponent
    simpa [mantissaText] using hread
  | cons d cs =>
    have hwhole : scanInteger ([c] ++ '.' :: (d :: cs ++ 'e' :: (if k < 0 then '-' else '+') ::
        (exponentDigits k.natAbs ++ rest))) = _ :=
      scanInteger_of_ne_zero hc (by simpa using hcdigit) rfl
    have hfraction : scanFraction ('.' :: (d :: cs ++ 'e' :: (if k < 0 then '-' else '+') ::
        (exponentDigits k.natAbs ++ rest))) = _ :=
      scanFraction_digits (fun x hx => h.isDigit x (List.mem_cons_of_mem _ hx)) (by simp) rfl
    have hbody : ([c] ++ '.' :: (d :: cs ++ 'e' :: (if k < 0 then '-' else '+') ::
        (exponentDigits k.natAbs ++ rest))).head?.any Char.isDigit = true := hcdigit
    have hread : parseNumber (signText negative ++ _) = _ :=
      parseNumber_fraction_exponent hbody hwhole hfraction hexponent
    have hscale : k - ((d :: cs).length : Int) = k + 1 - ((c :: d :: cs).length : Int) := by
      simp only [List.length_cons]
      push_cast
      ring
    rw [hscale] at hread
    simpa [mantissaText] using hread

theorem placePoint_scientific {point : Int} (h : ¬(-4 < point ∧ point ≤ 16)) (ds : List Char) :
    placePoint ds point = mantissaText ds ++
      'e' :: (if point - 1 < 0 then '-' else '+') :: exponentDigits (point - 1).natAbs := by
  unfold placePoint
  rw [if_neg h]
  rcases ds with _ | ⟨c, _ | ⟨d, cs⟩⟩ <;> rfl

/-- A decimal is read with its own digits and exponent, or with some zeros behind it. -/
theorem parseNumber_placePoint (negative : Bool) (h : Digits ds) (point : Int)
    (hrest : Delimited rest) :
    ∃ (d : Nat) (k : Int), parseNumber (signText negative ++ (placePoint ds point ++ rest)) =
        .ok (float (.ofDecimal negative d k), rest) ∧
      (d : ℚ) * 10 ^ k = digitsValue ds * 10 ^ (point - ds.length) := by
  by_cases hrange : -4 < point ∧ point ≤ 16
  swap
  · rw [placePoint_scientific hrange]
    refine ⟨_, _, parseNumber_scientific h (point - 1) hrest, ?_⟩
    congr 2
    ring
  unfold placePoint
  rw [if_pos hrange]
  split_ifs with hsmall hlong
  · refine ⟨_, _, parseNumber_small h _ hrest, ?_⟩
    congr 2
    push_cast
    omega
  · refine ⟨_, _, parseNumber_whole h _ hrest, ?_⟩
    have hscale : point - ds.length = ((point.toNat - ds.length : Nat) : Int) := by omega
    rw [hscale, zpow_natCast]
    push_cast
    rw [pow_succ]
    norm_num
    ring
  · refine ⟨_, _, parseNumber_split h (by omega) (by omega) hrest, ?_⟩
    congr 2
    omega

/-! Whole texts -/

theorem dropTrailingZeros_value (fuel d : Nat) (k : Int) :
    ((dropTrailingZeros fuel d k).1 : ℚ) * 10 ^ (dropTrailingZeros fuel d k).2 = d * 10 ^ k := by
  induction fuel generalizing d k with
  | zero => rfl
  | succ fuel ih =>
    rw [dropTrailingZeros]
    split_ifs with hzero
    · have hd : (d : ℚ) = (d / 10 : Nat) * 10 := by
        exact_mod_cast (Nat.div_mul_cancel (Nat.dvd_of_mod_eq_zero hzero.1)).symm
      rw [ih, hd, zpow_add₀ (by norm_num), zpow_one]
      ring
    · rfl

/-- The text of a double, also of one that is no number in JSON proper. -/
def floatText (x : Double) : List Char :=
  match x with
  | .nan => ['N', 'a', 'N']
  | .infinity false => ['I', 'n', 'f', 'i', 'n', 'i', 't', 'y']
  | .infinity true => ['-', 'I', 'n', 'f', 'i', 'n', 'i', 't', 'y']
  | .finite .. => x.repr.getD []

theorem floatText_zero (k : Int) :
    floatText (finite negative 0 k) = signText negative ++ ['0', '.', '0'] := by
  cases negative <;> rfl

/-- The digits and the exponent that are printed. -/
def printedDecimal (m : Nat) (e : Int) : Nat × Int :=
  let (digits, k) := shortest (finite false m e) (scale 2 m 1 e).1 (scale 2 m 1 e).2
  dropTrailingZeros 17 digits k

theorem floatText_of_ne_zero {m : Nat} (hm : m ≠ 0) :
    floatText (finite negative m e) = signText negative ++
      placePoint (Nat.toDigits 10 (printedDecimal m e).1)
        ((printedDecimal m e).2 + (Nat.toDigits 10 (printedDecimal m e).1).length) := by
  simp only [floatText, Double.repr, if_neg hm, toList_toString, Option.getD_some]
  rfl

/-- The digits of a double that is not zero read back as the double. -/
theorem ofDecimal_printedDecimal {m : Nat} (hx : (finite negative m e).isDouble = true)
    (hm : 0 < m) :
    ofDecimal negative (printedDecimal m e).1 (printedDecimal m e).2 = finite negative m e := by
  have hshortest : _ = finite false m e := shortest_reads hx hm
  unfold printedDecimal
  dsimp only
  generalize shortest (finite false m e) (scale 2 m 1 e).1 (scale 2 m 1 e).2 = s at hshortest ⊢
  have hvalue := dropTrailingZeros_value 17 s.1 s.2
  have hread : ofDecimal false (dropTrailingZeros 17 s.1 s.2).1 (dropTrailingZeros 17 s.1 s.2).2 =
      finite false m e := by
    rw [ofDecimal_congr false hvalue, hshortest]
  exact ofRatio_sign hread

theorem printedDecimal_pos {m : Nat} (hx : (finite negative m e).isDouble = true) (hm : 0 < m) :
    0 < (printedDecimal m e).1 := by
  rcases Nat.eq_zero_or_pos (printedDecimal m e).1 with hzero | hpos
  · have hread := ofDecimal_printedDecimal hx hm
    rw [hzero, ofDecimal_zero] at hread
    cases hread
    exact absurd hm (lt_irrefl 0)
  · exact hpos

theorem placePoint_head (h : Digits ds) (point : Int) :
    ∃ c cs, placePoint ds point = c :: cs ∧ c.isDigit = true := by
  obtain ⟨c, cs, rfl, -⟩ := h.head
  have hc : c.isDigit = true := h.isDigit c (by simp)
  by_cases hrange : -4 < point ∧ point ≤ 16
  · unfold placePoint
    rw [if_pos hrange]
    split_ifs with hsmall
    · exact ⟨'0', _, rfl, by decide⟩
    · exact ⟨c, _, rfl, hc⟩
    · obtain ⟨k, hk⟩ : ∃ k, point.toNat = k + 1 := ⟨point.toNat - 1, by omega⟩
      exact ⟨c, cs.take k ++ '.' :: (c :: cs).drop point.toNat, by rw [hk]; rfl, hc⟩
  · rw [placePoint_scientific hrange]
    cases cs with
    | nil => exact ⟨c, _, rfl, hc⟩
    | cons d cs => exact ⟨c, _, rfl, hc⟩

theorem signText_append_head {c : Char} {cs : List Char} (hc : c.isDigit = true) :
    ∃ d ds, signText negative ++ c :: cs = d :: ds ∧ (d.isDigit = true ∨ d = '-') := by
  cases negative with
  | false => exact ⟨c, cs, rfl, .inl hc⟩
  | true => exact ⟨'-', c :: cs, rfl, .inr rfl⟩

/-- The text of a double reads back as the double. -/
theorem reads_float {x : Double} (h : x.isDouble = true) : Reads (float x) (floatText x) := by
  cases x with
  | nan => exact reads_word (by decide) (by decide) (by decide) rfl fun _ _ _ => rfl
  | infinity negative =>
    cases negative with
    | false => exact reads_word (by decide) (by decide) (by decide) rfl fun _ _ _ => rfl
    | true => exact reads_number (.inr rfl) rfl fun _ _ => rfl
  | finite negative m e =>
    rcases Nat.eq_zero_or_pos m with rfl | hm
    · obtain rfl : e = 0 := by simpa [isDouble] using h
      rw [floatText_zero]
      obtain ⟨d, ds, hds, hd⟩ : ∃ d ds, signText negative ++ ['0', '.', '0'] = d :: ds ∧
          (d.isDigit = true ∨ d = '-') := signText_append_head (by decide)
      rw [hds]
      refine reads_number hd rfl fun rest hrest => ?_
      have hread : parseNumber (signText negative ++ '0' :: '.' :: (['0'] ++ rest)) = _ :=
        parseNumber_fraction rfl rfl
          (scanFraction_digits (List.forall_mem_singleton.mpr rfl) (by simp) hrest.no_digit)
          (scanExponent_delimited hrest)
      have hvalue : digitsValue (['0'] ++ ['0']) = 0 := rfl
      rw [hvalue, ofDecimal_zero] at hread
      rw [← hds, List.append_assoc]
      exact hread
    · rw [floatText_of_ne_zero hm.ne']
      have hread := ofDecimal_printedDecimal h hm
      have hdigits := digits_toDigits (printedDecimal_pos h hm)
      generalize (printedDecimal m e).1 = d at hread hdigits ⊢
      generalize (printedDecimal m e).2 = k at hread ⊢
      obtain ⟨c, cs, hplace, hc⟩ := placePoint_head hdigits (k + (Nat.toDigits 10 d).length)
      obtain ⟨d', ds, hds, hd⟩ : ∃ d ds, signText negative ++ c :: cs = d :: ds ∧
          (d.isDigit = true ∨ d = '-') := signText_append_head hc
      rw [hplace, hds]
      refine reads_number hd rfl fun rest hrest => ?_
      obtain ⟨d₁, k₁, hparse, hvalue⟩ :=
        parseNumber_placePoint negative hdigits (k + (Nat.toDigits 10 d).length) hrest
      have hdecimal : ofDecimal negative d₁ k₁ = finite negative m e := by
        rw [← hread]
        refine ofDecimal_congr negative (hvalue.trans ?_)
        rw [digitsValue, Nat.ofDigitChars_ten_toDigits, add_sub_cancel_right]
      rw [← hds, List.append_assoc, ← hplace, hparse, hdecimal]

/-! The characters of a text -/

theorem placePoint_chars (hds : ∀ c ∈ ds, c.isDigit = true) (point : Int) :
    ∀ c ∈ placePoint ds point, c.isDigit = true ∨ c ∈ ['.', 'e', '+', '-'] := by
  by_cases hrange : -4 < point ∧ point ≤ 16
  · unfold placePoint
    rw [if_pos hrange]
    split_ifs with hsmall hlong
    · intro c hc
      simp only [List.cons_append, List.mem_cons, List.mem_append] at hc
      rcases hc with rfl | rfl | hc | hc
      · exact .inl (by decide)
      · exact .inr (by decide)
      · exact .inl (zeros_isDigit c hc)
      · exact .inl (hds c hc)
    · intro c hc
      simp only [List.mem_cons, List.mem_append, List.not_mem_nil, or_false] at hc
      rcases hc with (hc | hc) | rfl | rfl
      · exact .inl (hds c hc)
      · exact .inl (zeros_isDigit c hc)
      · exact .inr (by decide)
      · exact .inl (by decide)
    · intro c hc
      simp only [List.mem_cons, List.mem_append] at hc
      rcases hc with hc | rfl | hc
      · exact .inl (hds c (List.mem_of_mem_take hc))
      · exact .inr (by decide)
      · exact .inl (hds c (List.mem_of_mem_drop hc))
  · rw [placePoint_scientific hrange]
    intro c hc
    have hmantissa : ∀ c ∈ mantissaText ds, c.isDigit = true ∨ c ∈ ['.', 'e', '+', '-'] := by
      rcases ds with _ | ⟨a, _ | ⟨b, ds⟩⟩
      · simp [mantissaText]
      · exact fun c hc => .inl (hds c hc)
      · intro c hc
        simp only [mantissaText, List.mem_cons] at hc
        rcases hc with rfl | rfl | hc
        · exact .inl (hds c (by simp))
        · exact .inr (by decide)
        · exact .inl (hds c (by simp [hc]))
    simp only [List.mem_cons, List.mem_append] at hc
    rcases hc with hc | rfl | rfl | hc
    · exact hmantissa c hc
    · exact .inr (by decide)
    · exact .inr (by split_ifs <;> decide)
    · exact .inl (exponentDigits_isDigit c hc)

end Base.Json
