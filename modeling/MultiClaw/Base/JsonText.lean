import MultiClaw.Base.Json

/-! The text of a JSON value: its length, and that reading it gives the value back. -/
namespace Base.Json

/-! Strings -/

theorem hex4_control : ∀ n < 32, hex4 '0' '0' (hexDigit (n / 16)) (hexDigit (n % 16)) = some n := by
  decide

theorem scanString_escapeChar {c : Char} {cs rest : List Char} {ns : List Nat}
    (h : scanString cs = .ok (ns, rest)) :
    scanString (escapeChar c ++ cs) = .ok (c.toNat :: ns, rest) := by
  unfold escapeChar
  split
  · simp [scanString, simpleEscape, h]
  · simp [scanString, simpleEscape, h]
  · simp [scanString, simpleEscape, h]
  · simp [scanString, simpleEscape, h]
  · simp [scanString, simpleEscape, h]
  · rename_i hquote hslash _ _ _
    split_ifs with hf hb hcontrol
    · simp [scanString, simpleEscape, h, hf]
    · simp [scanString, simpleEscape, h, hb]
    · simp [scanString, h, hex4_control c.toNat hcontrol]
    · rw [List.singleton_append, scanString, if_neg hcontrol, h]
      all_goals simp_all

theorem scanString_printed (s : List Char) (rest : List Char) :
    scanString (s.flatMap escapeChar ++ '"' :: rest) = .ok (s.map Char.toNat, rest) := by
  induction s with
  | nil => simp [scanString]
  | cons c s ih =>
    rw [List.flatMap_cons, List.append_assoc]
    exact scanString_escapeChar ih

theorem isHighSurrogate_char (c : Char) : isHighSurrogate c.toNat = false := by
  have h := c.valid
  simp only [UInt32.isValidChar, Nat.isValidChar] at h
  simp only [isHighSurrogate, Bool.and_eq_false_iff, decide_eq_false_iff_not, not_le, Char.toNat]
  omega

theorem joinSurrogates_chars (s : List Char) :
    joinSurrogates (s.map Char.toNat) = s.map Char.toNat := by
  induction s with
  | nil => rfl
  | cons c s ih =>
    cases s with
    | nil => rfl
    | cons d s =>
      simp only [List.map_cons] at ih ⊢
      rw [joinSurrogates, isHighSurrogate_char, ih]
      simp

theorem ofCodePoints_chars (s : String) :
    PyStr.ofCodePoints (s.toList.map Char.toNat) = .text s := by
  have hvalid : (s.toList.map Char.toNat).all (fun n => decide n.isValidChar) = true := by
    simp only [List.all_map, List.all_eq_true, Function.comp, decide_eq_true_eq]
    exact fun c _ => c.valid
  rw [PyStr.ofCodePoints, if_pos hvalid, List.map_map]
  have : (Char.ofNat ∘ Char.toNat) = id := by
    funext c
    simp
  simp [this]

theorem parseString_printed (s : String) (rest : List Char) :
    parseString (s.toList.flatMap escapeChar ++ '"' :: rest) = .ok (.text s, rest) := by
  rw [parseString, scanString_printed]
  simp only [joinSurrogates_chars, ofCodePoints_chars]

/-! Numbers -/

/-- What may stand behind a value inside a text: the end, a comma or a closing bracket. -/
def Delimited : List Char → Prop
  | [] => True
  | c :: _ => c = ',' ∨ c = '}' ∨ c = ']'

theorem digitChar_ne_zero : ∀ n < 10, 0 < n → n.digitChar ≠ '0' := by
  decide

theorem toDigits_head {n : Nat} (h : 0 < n) :
    ∃ d ds, Nat.toDigits 10 n = d :: ds ∧ d ≠ '0' := by
  induction n using Nat.strongRecOn with
  | ind n ih =>
    rw [Nat.toDigits_eq_if (by omega)]
    split_ifs with hlt
    · exact ⟨n.digitChar, [], rfl, digitChar_ne_zero n hlt h⟩
    · obtain ⟨d, ds, hds, hd⟩ := ih (n / 10) (by omega) (by omega)
      exact ⟨d, ds ++ [(n % 10).digitChar], by rw [hds, List.cons_append], hd⟩

theorem toDigits_isDigit {n : Nat} {c : Char} (h : c ∈ Nat.toDigits 10 n) : c.isDigit = true :=
  Nat.isDigit_of_mem_toDigits (by omega) (by omega) h

theorem Delimited.no_digit {rest : List Char} (h : Delimited rest) :
    rest.head?.any Char.isDigit = false := by
  cases rest with
  | nil => rfl
  | cons c rest => rcases h with rfl | rfl | rfl <;> rfl

theorem span_digits {ds rest : List Char} (hds : ∀ c ∈ ds, c.isDigit = true)
    (hrest : rest.head?.any Char.isDigit = false) : spanDigits (ds ++ rest) = (ds, rest) := by
  have hstop : rest.takeWhile Char.isDigit = [] ∧ rest.dropWhile Char.isDigit = rest := by
    cases rest with
    | nil => simp
    | cons c rest =>
      have hc : c.isDigit = false := hrest
      simp [hc]
  rw [spanDigits, List.takeWhile_append_of_pos hds, List.dropWhile_append_of_pos hds, hstop.1,
    hstop.2, List.append_nil]

theorem scanInteger_of_ne_zero {d : Char} {ds rest : List Char} (hd : d ≠ '0')
    (hds : ∀ c ∈ d :: ds, c.isDigit = true) (hrest : rest.head?.any Char.isDigit = false) :
    scanInteger (d :: ds ++ rest) = some (d :: ds, rest) := by
  rw [List.cons_append, scanInteger, if_pos (hds d (by simp)), ← List.cons_append,
    span_digits hds hrest]
  exact hd

theorem scanInteger_digits {n : Nat} {rest : List Char}
    (hrest : rest.head?.any Char.isDigit = false) :
    scanInteger (Nat.toDigits 10 n ++ rest) = some (Nat.toDigits 10 n, rest) := by
  rcases Nat.eq_zero_or_pos n with rfl | hn
  · simp [Nat.toDigits_zero, scanInteger]
  · obtain ⟨d, ds, hds, hd⟩ := toDigits_head hn
    rw [hds]
    exact scanInteger_of_ne_zero hd (fun c hc => toDigits_isDigit (hds ▸ hc)) hrest

theorem scanFraction_delimited {rest : List Char} (h : Delimited rest) :
    scanFraction rest = none := by
  cases rest with
  | nil => rfl
  | cons c rest => rcases h with rfl | rfl | rfl <;> rfl

theorem scanExponent_delimited {rest : List Char} (h : Delimited rest) :
    scanExponent rest = none := by
  cases rest with
  | nil => rfl
  | cons c rest => rcases h with rfl | rfl | rfl <;> rfl

theorem parseNumber_printed {n : Int} {cs rest : List Char} (hcs : printInt n = some cs)
    (hrest : Delimited rest) : parseNumber (cs ++ rest) = .ok (int n, rest) := by
  simp only [printInt] at hcs
  split_ifs at hcs with hlong hneg
  · cases hcs
    have hvalue : -((digitsValue (Nat.toDigits 10 n.natAbs) : Nat) : Int) = n := by
      rw [digitsValue, Nat.ofDigitChars_ten_toDigits]
      omega
    simp only [parseNumber, List.cons_append, scanInteger_digits hrest.no_digit,
      scanFraction_delimited hrest, Option.elim_none, scanExponent_delimited hrest, if_neg hlong,
      if_true, hvalue]
  · cases hcs
    have hvalue : ((digitsValue (Nat.toDigits 10 n.natAbs) : Nat) : Int) = n := by
      rw [digitsValue, Nat.ofDigitChars_ten_toDigits]
      omega
    have hsign : ∀ rest', Nat.toDigits 10 n.natAbs ++ rest ≠ '-' :: rest' := by
      intro rest' h
      obtain ⟨d, ds, hds⟩ :=
        List.exists_cons_of_ne_nil (Nat.toDigits_ne_nil (n := n.natAbs) (b := 10))
      have hd : d.isDigit = true := toDigits_isDigit (n := n.natAbs) (by simp [hds])
      simp [hds] at h
      simp [h.1] at hd
    simp only [parseNumber, scanInteger_digits hrest.no_digit, scanFraction_delimited hrest,
      Option.elim_none, scanExponent_delimited hrest, if_neg hlong, Bool.false_eq_true, if_false,
      hvalue]

/-! Values -/

def keyLe {α : Type} (a b : PyStr × α) : Bool :=
  match a.1, b.1 with
  | .text s, .text t => s ≤ t
  | _, _ => true

mutual

/-- The value that reading a canonical text gives: the members of objects are in order. -/
def canonical : Json → Json
  | arr items => arr (canonicalItems items)
  | obj members => obj ((canonicalMembers members).insertionSort fun a b => keyLe a b)
  | v => v

def canonicalItems : List Json → List Json
  | [] => []
  | v :: vs => canonical v :: canonicalItems vs

def canonicalMembers : List (PyStr × Json) → List (PyStr × Json)
  | [] => []
  | (k, v) :: ms => (k, canonical v) :: canonicalMembers ms

end

mutual

/-- No floating point numbers, and no repeated keys. -/
def plain : Json → Bool
  | float _ => false
  | arr items => plainItems items
  | obj members => (members.map Prod.fst).Nodup && plainMembers members
  | _ => true

def plainItems : List Json → Bool
  | [] => true
  | v :: vs => plain v && plainItems vs

def plainMembers : List (PyStr × Json) → Bool
  | [] => true
  | (_, v) :: ms => plain v && plainMembers ms

end

mutual

/-- How deep arrays and objects are nested. -/
def depth : Json → Nat
  | arr items => depthItems items + 1
  | obj members => depthMembers members + 1
  | _ => 0

def depthItems : List Json → Nat
  | [] => 0
  | v :: vs => max (depth v) (depthItems vs)

def depthMembers : List (PyStr × Json) → Nat
  | [] => 0
  | (_, v) :: ms => max (depth v) (depthMembers ms)

end

theorem canonicalItems_eq (vs : List Json) : canonicalItems vs = vs.map canonical := by
  induction vs with
  | nil => rfl
  | cons v vs ih => rw [canonicalItems, ih, List.map_cons]

theorem canonicalMembers_eq (ms : List (PyStr × Json)) :
    canonicalMembers ms = ms.map fun m => (m.1, canonical m.2) := by
  induction ms with
  | nil => rfl
  | cons m ms ih => rw [canonicalMembers, ih, List.map_cons]

theorem depthItems_le {vs : List Json} {n : Nat} :
    depthItems vs ≤ n ↔ ∀ v ∈ vs, v.depth ≤ n := by
  induction vs with
  | nil => simp [depthItems]
  | cons v vs ih => simp [depthItems, ih]

theorem depthMembers_le {ms : List (PyStr × Json)} {n : Nat} :
    depthMembers ms ≤ n ↔ ∀ m ∈ ms, m.2.depth ≤ n := by
  induction ms with
  | nil => simp [depthMembers]
  | cons m ms ih => simp [depthMembers, ih]

mutual

theorem depth_canonical_le : ∀ {v : Json} {n : Nat}, v.depth ≤ n → (canonical v).depth ≤ n
  | arr vs, n, h => by
    rw [depth] at h
    have hitems : depthItems (canonicalItems vs) ≤ n - 1 := depth_canonicalItems_le (by omega)
    rw [canonical, depth]
    omega
  | obj ms, n, h => by
    rw [depth] at h
    have hmembers : depthMembers (canonicalMembers ms) ≤ n - 1 :=
      depth_canonicalMembers_le (by omega)
    have hsorted :
        depthMembers ((canonicalMembers ms).insertionSort fun a b => keyLe a b) ≤ n - 1 :=
      depthMembers_le.mpr fun m hm =>
        depthMembers_le.mp hmembers m ((List.perm_insertionSort _ _).mem_iff.mp hm)
    rw [canonical, depth]
    omega
  | null, _, h | bool _, _, h | int _, _, h | float _, _, h | str _, _, h => h

theorem depth_canonicalItems_le : ∀ {vs : List Json} {n : Nat}, depthItems vs ≤ n →
    depthItems (canonicalItems vs) ≤ n
  | [], _, h => h
  | v :: vs, n, h => by
    rw [depthItems, max_le_iff] at h
    rw [canonicalItems, depthItems, max_le_iff]
    exact ⟨depth_canonical_le h.1, depth_canonicalItems_le h.2⟩

theorem depth_canonicalMembers_le : ∀ {ms : List (PyStr × Json)} {n : Nat}, depthMembers ms ≤ n →
    depthMembers (canonicalMembers ms) ≤ n
  | [], _, h => h
  | (_, v) :: ms, n, h => by
    rw [depthMembers, max_le_iff] at h
    rw [canonicalMembers, depthMembers, max_le_iff]
    exact ⟨depth_canonical_le h.1, depth_canonicalMembers_le h.2⟩

end

/-- A text reads as a value: it starts a value, and the parser consumes it and no more, unless the
value is nested deeper than the parser can go. -/
structure Reads (v : Json) (t : List Char) : Prop where
  head : ∃ c cs, t = c :: cs ∧ isWhitespace c = false ∧ c ≠ ']' ∧ c ≠ byteOrderMark
  parse : ∀ fuel depth rest, 2 * t.length ≤ fuel → Delimited rest →
    parseValue fuel depth (t ++ rest) =
      if v.depth ≤ depth then .ok (v, rest) else .error .recursion

/-- A quoted text reads as a string. -/
def Quotes (s : String) (q : List Char) : Prop :=
  ∃ body, q = '"' :: body ∧ ∀ rest, parseString (body ++ rest) = .ok (.text s, rest)

/-- The texts of a key and of a value read as a member. -/
def ReadsMember (m : PyStr × Json) (t : List Char × List Char) : Prop :=
  (∃ k, m.1 = .text k ∧ Quotes k t.1) ∧ Reads m.2 t.2

def memberText (t : List Char × List Char) : List Char := t.1 ++ ':' :: t.2

theorem skipWhitespace_cons {c : Char} {cs : List Char} (h : isWhitespace c = false) :
    skipWhitespace (c :: cs) = c :: cs := by
  rw [skipWhitespace, h]
  rfl

theorem separated_cons_cons (t u : List Char) (us : List (List Char)) :
    separated (t :: u :: us) = t ++ ',' :: separated (u :: us) := rfl

theorem separated_head {t : List Char} {ts : List (List Char)} {c : Char} {cs : List Char}
    (h : t = c :: cs) : ∃ cs', separated (t :: ts) = c :: cs' := by
  subst h
  cases ts with
  | nil => exact ⟨cs, rfl⟩
  | cons u us => exact ⟨_, rfl⟩

theorem skipWhitespace_separated {t rest : List Char} {ts : List (List Char)} {c : Char}
    {cs : List Char} (h : t = c :: cs) (hspace : isWhitespace c = false) :
    skipWhitespace (separated (t :: ts) ++ rest) = separated (t :: ts) ++ rest := by
  obtain ⟨cs', hsep⟩ : ∃ cs', separated (t :: ts) = c :: cs' := separated_head h
  rw [hsep]
  exact skipWhitespace_cons hspace

theorem parseItems_separated {vs : List Json} {ts : List (List Char)}
    (h : List.Forall₂ Reads vs ts) (hne : vs ≠ []) {fuel depth : Nat} {acc : List Json}
    {rest : List Char} (hfuel : 2 * (separated ts).length + 1 ≤ fuel) :
    parseItems fuel depth acc (separated ts ++ ']' :: rest) =
      if depthItems vs ≤ depth then .ok (arr (acc ++ vs), rest) else .error .recursion := by
  induction h generalizing fuel acc with
  | nil => exact absurd rfl hne
  | @cons v t vs ts hv hvs ih =>
    obtain ⟨fuel, rfl⟩ : ∃ f, fuel = f + 1 := ⟨fuel - 1, by omega⟩
    cases hvs with
    | nil =>
      rw [separated] at hfuel ⊢
      rw [parseItems, hv.parse fuel depth _ (by omega) (by simp [Delimited])]
      by_cases hdepth : v.depth ≤ depth
      · simp [hdepth, depthItems, skipWhitespace_cons (show isWhitespace ']' = false by decide)]
      · simp [hdepth, depthItems]
    | @cons w u ws us hw hws =>
      rw [separated_cons_cons] at hfuel ⊢
      simp only [List.length_append, List.length_cons] at hfuel
      rw [List.append_assoc, List.cons_append, parseItems,
        hv.parse fuel depth _ (by omega) (by simp [Delimited])]
      by_cases hdepth : v.depth ≤ depth
      · obtain ⟨c, cs, hu, hspace, -⟩ := hw.head
        simp only [if_pos hdepth, skipWhitespace_cons (show isWhitespace ',' = false by decide),
          skipWhitespace_separated hu hspace]
        rw [ih (by simp) (by omega)]
        simp [depthItems, hdepth]
      · simp [hdepth, depthItems]

theorem setMember_fresh {key : PyStr} {value : Json} {ms : List (PyStr × Json)}
    (h : ∀ m ∈ ms, m.1 ≠ key) : setMember key value ms = ms ++ [(key, value)] := by
  induction ms with
  | nil => rfl
  | cons m ms ih =>
    obtain ⟨k, v⟩ := m
    rw [setMember, if_neg (h (k, v) (by simp)), ih fun m hm => h m (List.mem_cons_of_mem _ hm),
      List.cons_append]

/-- Reading one member and what follows it. -/
theorem parseMembers_member {fuel depth : Nat} {acc : List (PyStr × Json)} {m : PyStr × Json}
    {t : List Char × List Char} {rest : List Char} (h : ReadsMember m t)
    (hfuel : 2 * t.2.length ≤ fuel) (hrest : Delimited rest) (hfresh : ∀ n ∈ acc, n.1 ≠ m.1) :
    parseMembers (fuel + 1) depth acc (memberText t ++ rest) =
      if m.2.depth ≤ depth then
        match skipWhitespace rest with
        | '}' :: rest => .ok (obj (acc ++ [m]), rest)
        | ',' :: rest => parseMembers fuel depth (acc ++ [m]) (skipWhitespace rest)
        | _ => .error .malformed
      else .error .recursion := by
  obtain ⟨_, v⟩ := m
  obtain ⟨q, t⟩ := t
  obtain ⟨⟨k, hk, body, hq, hbody⟩, hv⟩ := h
  cases hk
  cases hq
  change Reads v t at hv
  obtain ⟨c, cs, rfl, hspace, -⟩ := hv.head
  have hskip : skipWhitespace (c :: cs ++ rest) = c :: cs ++ rest := skipWhitespace_cons hspace
  have htext : memberText ('"' :: body, c :: cs) ++ rest =
      '"' :: (body ++ ':' :: (c :: cs ++ rest)) := by
    simp [memberText]
  rw [htext, parseMembers]
  simp only [hbody, skipWhitespace_cons (show isWhitespace ':' = false by decide), hskip,
    hv.parse fuel depth rest hfuel hrest]
  by_cases hdepth : v.depth ≤ depth
  · simp only [if_pos hdepth, setMember_fresh hfresh]
    all_goals rfl
  · simp only [if_neg hdepth]

theorem parseMembers_separated {ms : List (PyStr × Json)} {ts : List (List Char × List Char)}
    (h : List.Forall₂ ReadsMember ms ts) (hne : ms ≠ []) {fuel depth : Nat}
    {acc : List (PyStr × Json)} {rest : List Char}
    (hfuel : 2 * (separated (ts.map memberText)).length + 1 ≤ fuel)
    (hkeys : ((acc ++ ms).map Prod.fst).Nodup) :
    parseMembers fuel depth acc (separated (ts.map memberText) ++ '}' :: rest) =
      if depthMembers ms ≤ depth then .ok (obj (acc ++ ms), rest) else .error .recursion := by
  induction h generalizing fuel acc with
  | nil => exact absurd rfl hne
  | @cons m t ms ts hm hms ih =>
    obtain ⟨fuel, rfl⟩ : ∃ f, fuel = f + 1 := ⟨fuel - 1, by omega⟩
    have hlength : 2 * t.2.length ≤ 2 * (memberText t).length := by
      simp [memberText]
      omega
    have hfresh : ∀ n ∈ acc, n.1 ≠ m.1 := by
      intro n hn hk
      simp only [List.map_append, List.map_cons, List.nodup_append] at hkeys
      exact hkeys.2.2 n.1 (List.mem_map_of_mem hn) m.1 (by simp) hk
    cases hms with
    | nil =>
      simp only [List.map_cons, List.map_nil, separated] at hfuel ⊢
      rw [parseMembers_member hm (by omega) (by simp [Delimited]) hfresh]
      simp [depthMembers, skipWhitespace_cons (show isWhitespace '}' = false by decide)]
    | @cons n u ns us hn hns =>
      simp only [List.map_cons] at hfuel ⊢
      rw [separated_cons_cons] at hfuel ⊢
      simp only [List.length_append, List.length_cons] at hfuel
      rw [List.append_assoc, List.cons_append,
        parseMembers_member hm (by omega) (by simp [Delimited]) hfresh]
      obtain ⟨⟨k, -, body, hq, -⟩, -⟩ := hn
      have hu : memberText u = '"' :: (body ++ ':' :: u.2) := by simp [memberText, hq]
      simp only [skipWhitespace_cons (show isWhitespace ',' = false by decide),
        skipWhitespace_separated hu (by decide)]
      have hmore : parseMembers fuel depth (acc ++ [m])
          (separated (memberText u :: us.map memberText) ++ '}' :: rest) = _ :=
        ih (by simp) (by
          simp only [List.map_cons]
          omega) (by simpa using hkeys)
      rw [hmore]
      by_cases hdepth : m.2.depth ≤ depth <;> simp [depthMembers, hdepth]

theorem forall₂_insertionSort {α β : Type} {R : α → β → Prop} {r : α → α → Prop}
    {s : β → β → Prop} [DecidableRel r] [DecidableRel s] {as : List α} {bs : List β}
    (hrs : ∀ a b a' b', R a b → R a' b' → (r a a' ↔ s b b')) (h : List.Forall₂ R as bs) :
    List.Forall₂ R (as.insertionSort r) (bs.insertionSort s) := by
  have insert : ∀ {a b as bs}, R a b → List.Forall₂ R as bs →
      List.Forall₂ R (as.orderedInsert r a) (bs.orderedInsert s b) := by
    intro a b as bs hab h
    induction h with
    | nil => exact .cons hab .nil
    | @cons a' b' as bs hab' h ih =>
      by_cases hr : r a a'
      · rw [List.orderedInsert, if_pos hr, List.orderedInsert,
          if_pos ((hrs _ _ _ _ hab hab').mp hr)]
        exact .cons hab (.cons hab' h)
      · rw [List.orderedInsert, if_neg hr, List.orderedInsert,
          if_neg fun hs => hr ((hrs _ _ _ _ hab hab').mpr hs)]
        exact .cons hab' ih
  induction h with
  | nil => exact .nil
  | cons hab _ ih => exact insert hab ih

theorem parseValue_of_number {fuel depth : Nat} {c : Char} {cs : List Char}
    (h : c.isDigit = true ∨ c = '-') :
    parseValue (fuel + 1) depth (c :: cs) = parseNumber (c :: cs) := by
  rw [parseValue] <;>
  · intro rest he
    cases he
    revert h
    decide

theorem quotes_printString (s : String) : Quotes s (printString s) := by
  refine ⟨s.toList.flatMap escapeChar ++ ['"'], by simp [printString], fun rest => ?_⟩
  rw [List.append_assoc]
  exact parseString_printed s rest

theorem reads_quoted {s : String} {q : List Char} (h : Quotes s q) : Reads (str (.text s)) q := by
  obtain ⟨body, rfl, hbody⟩ := h
  refine ⟨⟨'"', body, rfl, by decide⟩, ?_⟩
  intro fuel depth rest hfuel _
  obtain ⟨fuel, rfl⟩ : ∃ f, fuel = f + 1 := ⟨fuel - 1, by
    simp at hfuel
    omega⟩
  rw [List.cons_append, parseValue, hbody]
  simp [Json.depth]

/-- A number starts with a digit or a sign. -/
theorem reads_number {v : Json} {c : Char} {cs : List Char} (hc : c.isDigit = true ∨ c = '-')
    (hdepth : v.depth = 0)
    (h : ∀ rest, Delimited rest → parseNumber (c :: cs ++ rest) = .ok (v, rest)) :
    Reads v (c :: cs) := by
  refine ⟨⟨c, cs, rfl, ?_⟩, ?_⟩
  · rcases hc with hc | rfl
    · refine ⟨?_, ?_, ?_⟩
      · simp only [isWhitespace, Bool.or_eq_false_iff, beq_eq_false_iff_ne]
        refine ⟨⟨⟨?_, ?_⟩, ?_⟩, ?_⟩ <;>
        · rintro rfl
          revert hc
          decide
      all_goals
        rintro rfl
        revert hc
        decide
    · decide
  · intro fuel depth rest hfuel hrest
    obtain ⟨fuel, rfl⟩ : ∃ f, fuel = f + 1 := ⟨fuel - 1, by
      simp at hfuel
      omega⟩
    rw [List.cons_append, parseValue_of_number hc, ← List.cons_append, h rest hrest, hdepth]
    simp

theorem reads_int {n : Int} {t : List Char} (h : printInt n = some t) : Reads (int n) t := by
  obtain ⟨c, cs, rfl, hc⟩ : ∃ c cs, t = c :: cs ∧ (c.isDigit = true ∨ c = '-') := by
    obtain ⟨d, ds, hds⟩ :=
      List.exists_cons_of_ne_nil (Nat.toDigits_ne_nil (n := n.natAbs) (b := 10))
    simp only [printInt] at h
    split_ifs at h
    · cases h
      exact ⟨'-', _, rfl, .inr rfl⟩
    · cases h
      exact ⟨d, ds, hds, .inl (toDigits_isDigit (n := n.natAbs) (by simp [hds]))⟩
  exact reads_number hc rfl fun rest hrest => parseNumber_printed h hrest

theorem reads_word {v : Json} {c : Char} {cs : List Char} (hc : isWhitespace c = false)
    (hbracket : c ≠ ']') (hmark : c ≠ byteOrderMark) (hdepth : v.depth = 0)
    (h : ∀ fuel depth rest, parseValue (fuel + 1) depth (c :: cs ++ rest) = .ok (v, rest)) :
    Reads v (c :: cs) := by
  refine ⟨⟨c, cs, rfl, hc, hbracket, hmark⟩, ?_⟩
  intro fuel depth rest hfuel _
  obtain ⟨fuel, rfl⟩ : ∃ f, fuel = f + 1 := ⟨fuel - 1, by
    simp at hfuel
    omega⟩
  rw [h fuel depth rest, hdepth, if_pos (Nat.zero_le _)]

theorem reads_arr {vs : List Json} {ts : List (List Char)} (h : List.Forall₂ Reads vs ts) :
    Reads (arr vs) ('[' :: separated ts ++ [']']) := by
  refine ⟨⟨'[', separated ts ++ [']'], rfl, by decide⟩, ?_⟩
  intro fuel depth rest hfuel _
  simp only [List.cons_append, List.append_assoc, List.nil_append, List.length_cons,
    List.length_append, List.length_nil] at hfuel ⊢
  obtain ⟨fuel, rfl⟩ : ∃ f, fuel = f + 1 := ⟨fuel - 1, by omega⟩
  rw [Json.depth]
  cases depth with
  | zero =>
    rw [parseValue]
    simp
  | succ depth =>
    rw [parseValue]
    simp only [Nat.add_le_add_iff_right]
    cases h with
    | nil =>
      simp [separated, depthItems, skipWhitespace_cons (show isWhitespace ']' = false by decide)]
    | @cons v t vs ts hv hvs =>
      obtain ⟨c, cs, ht, hspace, hbracket, -⟩ := hv.head
      obtain ⟨cs', hsep⟩ : ∃ cs', separated (t :: ts) = c :: cs' := separated_head ht
      have hitems : parseItems fuel depth [] (separated (t :: ts) ++ ']' :: rest) = _ :=
        parseItems_separated (.cons hv hvs) (by simp) (by omega)
      simp only [skipWhitespace_separated ht hspace]
      rw [List.nil_append] at hitems
      rw [← hitems, hsep]
      simp only [List.cons_append]
      split
      · rename_i he
        exact absurd (List.cons.inj he).1 hbracket
      · rfl

theorem reads_obj {ms : List (PyStr × Json)} {ts : List (List Char × List Char)}
    (h : List.Forall₂ ReadsMember ms ts) (hkeys : (ms.map Prod.fst).Nodup) :
    Reads (obj ms) ('{' :: separated (ts.map memberText) ++ ['}']) := by
  refine ⟨⟨'{', _, rfl, by decide⟩, ?_⟩
  intro fuel depth rest hfuel _
  simp only [List.cons_append, List.append_assoc, List.nil_append, List.length_cons,
    List.length_append, List.length_nil] at hfuel ⊢
  obtain ⟨fuel, rfl⟩ : ∃ f, fuel = f + 1 := ⟨fuel - 1, by omega⟩
  rw [Json.depth]
  cases depth with
  | zero =>
    rw [parseValue]
    simp
  | succ depth =>
    rw [parseValue]
    simp only [Nat.add_le_add_iff_right]
    cases h with
    | nil =>
      simp [separated, depthMembers,
        skipWhitespace_cons (show isWhitespace '\x7d' = false by decide)]
    | @cons m t ms ts hm hms =>
      have hmembers : parseMembers fuel depth []
          (separated ((t :: ts).map memberText) ++ '}' :: rest) = _ :=
        parseMembers_separated (.cons hm hms) (by simp) (by omega) hkeys
      obtain ⟨⟨k, -, body, hq, -⟩, -⟩ := hm
      have ht : memberText t = '"' :: (body ++ ':' :: t.2) := by simp [memberText, hq]
      obtain ⟨cs', hsep⟩ : ∃ cs', separated ((t :: ts).map memberText) = '"' :: cs' :=
        separated_head ht
      rw [List.nil_append] at hmembers
      rw [← hmembers, hsep, List.cons_append, skipWhitespace_cons (by decide)]
      rfl

theorem loads_of_reads {v : Json} {t : List Char} {limit : Nat} (h : Reads v t) :
    loads limit (String.ofList t) = if v.depth ≤ limit then .ok v else .error .recursion := by
  obtain ⟨c, cs, rfl, hspace, -, hmark⟩ := h.head
  have hparse := h.parse (2 * (c :: cs).length + 2) limit [] (by omega) trivial
  rw [List.append_nil] at hparse
  simp only [loads, String.toList_ofList, List.head?_cons, skipWhitespace_cons hspace, hparse]
  rw [if_neg (by simpa using hmark)]
  by_cases hdepth : v.depth ≤ limit
  · simp only [if_pos hdepth]
    rfl
  · simp only [if_neg hdepth]

/-- The texts of the members in the order of their keys. -/
theorem readsMember_sorted {ms : List (PyStr × Json)} {ts : List (String × List Char)}
    (h : List.Forall₂ (fun m t => m.1 = .text t.1 ∧ Reads m.2 t.2) ms ts) :
    List.Forall₂ ReadsMember (ms.insertionSort fun a b => keyLe a b)
      ((sortMembers ts).map fun t => (printString t.1, t.2)) := by
  have hsorted : List.Forall₂ (fun m t => m.1 = .text t.1 ∧ Reads m.2 t.2)
      (ms.insertionSort fun a b => keyLe a b) (sortMembers ts) := by
    refine forall₂_insertionSort ?_ h
    rintro ⟨_, v⟩ ⟨k, t⟩ ⟨_, v'⟩ ⟨k', t'⟩ ⟨rfl, -⟩ ⟨rfl, -⟩
    simp [keyLe]
  refine List.forall₂_map_right_iff.mpr (hsorted.imp ?_)
  rintro m t ⟨hk, ht⟩
  exact ⟨⟨t.1, hk, quotes_printString t.1⟩, ht⟩

/-! Length -/

/-- The bytes of a character in a JSON string. -/
def charBytes (c : Char) : Nat :=
  if c = '"' ∨ c = '\\' ∨ c = '\n' ∨ c = '\r' ∨ c = '\t' ∨ c.toNat = 8 ∨ c.toNat = 12 then 2
  else if c.toNat < 0x20 then 6
  else c.utf8Size

def stringBytes (s : String) : Nat := (s.toList.map charBytes).sum + 2

mutual

/-- The length of the canonical text in bytes, if there is one; it depends on no order. -/
def bytes : Json → Option Nat
  | null => some 4
  | bool true => some 4
  | bool false => some 5
  | int n => (printInt n).map String.utf8Len
  | float x => x.repr.map String.utf8Len
  | str (.text s) => some (stringBytes s)
  | str (.lone _) => none
  | arr items => (bytesItems items).map (· + (items.length - 1) + 2)
  | obj members => (bytesMembers members).map (· + (members.length - 1) + 2)

def bytesItems : List Json → Option Nat
  | [] => some 0
  | v :: vs => do return (← bytes v) + (← bytesItems vs)

def bytesMembers : List (PyStr × Json) → Option Nat
  | [] => some 0
  | (.text k, v) :: ms => do return stringBytes k + 1 + (← bytes v) + (← bytesMembers ms)
  | (.lone _, _) :: _ => none

end

theorem hexDigit_size : ∀ n < 16, (hexDigit n).utf8Size = 1 := by
  decide

theorem utf8Len_escapeChar (c : Char) : String.utf8Len (escapeChar c) = charBytes c := by
  unfold escapeChar charBytes
  split
  case h_6 =>
    have hother : ∀ p, (c = '"' ∨ c = '\\' ∨ c = '\n' ∨ c = '\r' ∨ c = '\t' ∨ p) ↔ p := by
      tauto
    simp only [hother]
    by_cases h12 : c.toNat = 12
    · simp [h12]
      decide
    by_cases h8 : c.toNat = 8
    · simp [h8]
      decide
    by_cases hcontrol : c.toNat < 32
    · simp [h8, h12, hcontrol, hexDigit_size (c.toNat / 16) (by omega),
        hexDigit_size (c.toNat % 16) (by omega)]
      decide
    · simp [h12, h8, hcontrol]
  all_goals
    simp
    decide

theorem utf8Len_printString (s : String) : String.utf8Len (printString s) = stringBytes s := by
  have : ∀ cs : List Char, String.utf8Len (cs.flatMap escapeChar) = (cs.map charBytes).sum := by
    intro cs
    induction cs with
    | nil => rfl
    | cons c cs ih => simp [utf8Len_escapeChar, ih]
  have hquote : '"'.utf8Size = 1 := by decide
  simp [printString, stringBytes, this, hquote]

theorem utf8Len_separated (ts : List (List Char)) :
    String.utf8Len (separated ts) = (ts.map String.utf8Len).sum + (ts.length - 1) := by
  have hcomma : ','.utf8Size = 1 := by decide
  induction ts with
  | nil => rfl
  | cons t ts ih =>
    cases ts with
    | nil => simp [separated]
    | cons u us =>
      rw [separated_cons_cons, String.utf8Len_append, String.utf8Len_cons, ih, hcomma]
      simp
      omega

theorem utf8Len_printMember (k : String) (t : List Char) :
    String.utf8Len (printMember (k, t)) = stringBytes k + 1 + String.utf8Len t := by
  have hcolon : ':'.utf8Size = 1 := by decide
  simp only [printMember, String.utf8Len_append, utf8Len_printString, String.utf8Len_cons, hcolon]
  omega

theorem printItems_length {vs : List Json} {ts : List (List Char)} (h : printItems vs = some ts) :
    ts.length = vs.length := by
  induction vs generalizing ts with
  | nil =>
    cases h
    rfl
  | cons v vs ih =>
    simp only [printItems, Option.bind_eq_bind, Option.bind_eq_some_iff, Option.pure_def,
      Option.some.injEq] at h
    obtain ⟨t, -, ts, hts, rfl⟩ := h
    rw [List.length_cons, ih hts, List.length_cons]

theorem printMembers_length {ms : List (PyStr × Json)} {ts : List (String × List Char)}
    (h : printMembers ms = some ts) : ts.length = ms.length := by
  induction ms generalizing ts with
  | nil =>
    cases h
    rfl
  | cons m ms ih =>
    obtain ⟨_ | _, v⟩ := m
    · simp only [printMembers, Option.bind_eq_bind, Option.bind_eq_some_iff, Option.pure_def,
        Option.some.injEq] at h
      obtain ⟨t, -, ts, hts, rfl⟩ := h
      rw [List.length_cons, ih hts, List.length_cons]
    · cases h

mutual

theorem utf8Len_print : ∀ v : Json, (print v).map String.utf8Len = bytes v
  | null | bool true | bool false => by decide
  | int _ | float _ => rfl
  | str (.text s) => congrArg some (utf8Len_printString s)
  | str (.lone _) => rfl
  | arr vs => by
    rw [print, bytes, ← utf8Len_printItems vs]
    cases h : printItems vs with
    | none => rfl
    | some ts =>
      simp [utf8Len_separated, printItems_length h, show '['.utf8Size = 1 by decide,
        show ']'.utf8Size = 1 by decide]
  | obj ms => by
    rw [print, bytes, ← utf8Len_printMembers ms]
    cases h : printMembers ms with
    | none => rfl
    | some ts =>
      have hperm : (sortMembers ts).Perm ts := List.perm_insertionSort _ ts
      have hsum := ((hperm.map printMember).map String.utf8Len).sum_eq
      simp only [List.map_map] at hsum
      simp [utf8Len_separated, hsum, hperm.length_eq, printMembers_length h,
        show '\x7b'.utf8Size = 1 by decide, show '\x7d'.utf8Size = 1 by decide]

theorem utf8Len_printItems : ∀ vs : List Json,
    (printItems vs).map (fun ts => (ts.map String.utf8Len).sum) = bytesItems vs
  | [] => rfl
  | v :: vs => by
    rw [printItems, bytesItems, ← utf8Len_print v, ← utf8Len_printItems vs]
    cases print v <;> cases printItems vs <;> simp

theorem utf8Len_printMembers : ∀ ms : List (PyStr × Json),
    (printMembers ms).map (fun ts => ((ts.map printMember).map String.utf8Len).sum) =
      bytesMembers ms
  | [] => rfl
  | (.lone _, _) :: _ => rfl
  | (.text k, v) :: ms => by
    rw [printMembers, bytesMembers, ← utf8Len_print v, ← utf8Len_printMembers ms]
    cases print v <;> cases printMembers ms <;> simp [utf8Len_printMember]

end

theorem utf8ByteSize_dumps (v : Json) : v.dumps.map String.utf8ByteSize = bytes v := by
  rw [dumps, Option.map_map, ← utf8Len_print]
  congr 1
  funext t
  exact String.utf8ByteSize_ofList t

end Base.Json
