import MultiClaw.Base.FloatText

/-! JSON texts that keep the order of the members, for any way to escape characters. -/
namespace Base.Json

section Dump

variable (escape : Char → List Char)

def quote (s : String) : List Char := '"' :: s.toList.flatMap escape ++ ['"']

mutual

/-- Compact JSON; nothing for a value that has no such text. -/
def dump : Json → Option (List Char)
  | null => some ['n', 'u', 'l', 'l']
  | bool true => some ['t', 'r', 'u', 'e']
  | bool false => some ['f', 'a', 'l', 's', 'e']
  | int n => printInt n
  | float x => some (floatText x)
  | str (.text s) => some (quote escape s)
  | str (.lone _) => none
  | arr items => do
    let ts ← dumpItems items
    return '[' :: separated ts ++ [']']
  | obj members => do
    let ts ← dumpMembers members
    return '{' :: separated (ts.map memberText) ++ ['}']

def dumpItems : List Json → Option (List (List Char))
  | [] => some []
  | v :: vs => do return (← dump v) :: (← dumpItems vs)

def dumpMembers : List (PyStr × Json) → Option (List (List Char × List Char))
  | [] => some []
  | (.text k, v) :: ms => do return (quote escape k, ← dump v) :: (← dumpMembers ms)
  | (.lone _, _) :: _ => none

end

end Dump

/-- The escape of a character in an ASCII text. -/
def escapeAscii (c : Char) : List Char := (escapeChar c).flatMap asciiEscape

mutual

/-- The keys of an object differ, and its numbers are doubles. -/
def proper : Json → Bool
  | float x => x.isDouble
  | arr items => properItems items
  | obj members => (members.map Prod.fst).Nodup && properMembers members
  | _ => true

def properItems : List Json → Bool
  | [] => true
  | v :: vs => proper v && properItems vs

def properMembers : List (PyStr × Json) → Bool
  | [] => true
  | (_, v) :: ms => proper v && properMembers ms

end

mutual

/-- Some character in a key or a string. -/
def anyChar (p : Char → Bool) : Json → Bool
  | str (.text s) => s.toList.any p
  | arr items => anyCharItems p items
  | obj members => anyCharMembers p members
  | _ => false

def anyCharItems (p : Char → Bool) : List Json → Bool
  | [] => false
  | v :: vs => anyChar p v || anyCharItems p vs

def anyCharMembers (p : Char → Bool) : List (PyStr × Json) → Bool
  | [] => false
  | (.text k, v) :: ms => k.toList.any p || anyChar p v || anyCharMembers p ms
  | (.lone _, v) :: ms => anyChar p v || anyCharMembers p ms

end

/-! Reading back -/

/-- Strings that are escaped this way read back. -/
def Legible (escape : Char → List Char) : Prop := ∀ s : String, Quotes s (quote escape s)

theorem legible_escapeChar : Legible escapeChar := quotes_printString

/-- The code units of a character in UTF-16. -/
def codeUnits (c : Char) : List Nat :=
  if c.toNat < 0x10000 then [c.toNat]
  else [0xd800 + (c.toNat - 0x10000) / 0x400, 0xdc00 + (c.toNat - 0x10000) % 0x400]

theorem joinSurrogates_cons {n : Nat} (h : isHighSurrogate n = false) (ns : List Nat) :
    joinSurrogates (n :: ns) = n :: joinSurrogates ns := by
  cases ns with
  | nil => rfl
  | cons m ns => simp [joinSurrogates, h]

theorem joinSurrogates_codeUnits (s : List Char) :
    joinSurrogates (s.flatMap codeUnits) = s.map Char.toNat := by
  induction s with
  | nil => rfl
  | cons c s ih =>
    rw [List.flatMap_cons, List.map_cons, ← ih, codeUnits]
    split_ifs with hplane
    · exact joinSurrogates_cons (isHighSurrogate_char c) _
    · have hvalid := c.valid
      simp only [UInt32.isValidChar, Nat.isValidChar] at hvalid
      change (c.toNat < 0xd800 ∨ 0xdfff < c.toNat ∧ c.toNat < 0x110000) at hvalid
      have hpair : (isHighSurrogate (0xd800 + (c.toNat - 0x10000) / 0x400) &&
          isLowSurrogate (0xdc00 + (c.toNat - 0x10000) % 0x400)) = true := by
        simp only [isHighSurrogate, isLowSurrogate, Bool.and_eq_true, decide_eq_true_eq]
        omega
      have hjoin : 0x10000 + (0xd800 + (c.toNat - 0x10000) / 0x400 - 0xd800) * 0x400 +
          (0xdc00 + (c.toNat - 0x10000) % 0x400 - 0xdc00) = c.toNat := by
        omega
      rw [List.cons_append, List.cons_append, List.nil_append, joinSurrogates, if_pos hpair, hjoin]

theorem hexValue_hexDigit : ∀ n < 16, hexValue (hexDigit n) = some n := by
  decide

theorem scanString_unicodeEscape {n : Nat} (hn : n < 0x10000) {cs rest : List Char} {ns : List Nat}
    (h : scanString cs = .ok (ns, rest)) :
    scanString (unicodeEscape n ++ cs) = .ok (n :: ns, rest) := by
  have hhex : hex4 (hexDigit (n / 4096 % 16)) (hexDigit (n / 256 % 16)) (hexDigit (n / 16 % 16))
      (hexDigit (n % 16)) = some n := by
    simp only [hex4, hexValue_hexDigit _ (Nat.mod_lt _ (by decide)), Option.some.injEq]
    omega
  simp [unicodeEscape, scanString, hhex, h]

def isPrintableAscii (c : Char) : Bool := 0x20 ≤ c.toNat && c.toNat ≤ 0x7e

theorem isPrintableAscii_hexDigit : ∀ n < 16, isPrintableAscii (hexDigit n) = true := by
  decide

theorem escapeChar_cases (c : Char) : (escapeChar c).all isPrintableAscii = true ∧ c.toNat < 0x7f ∨
    0x7f ≤ c.toNat ∧ escapeChar c = [c] := by
  unfold escapeChar
  split
  · exact .inl (by decide)
  · exact .inl (by decide)
  · exact .inl (by decide)
  · exact .inl (by decide)
  · exact .inl (by decide)
  · split_ifs with hf hb hcontrol
    · exact .inl ⟨by decide, by omega⟩
    · exact .inl ⟨by decide, by omega⟩
    · have hplain : ['\\', 'u', '0', '0'].all isPrintableAscii = true := by decide
      refine .inl ⟨?_, by omega⟩
      simp_all [isPrintableAscii_hexDigit (c.toNat / 16) (by omega),
        isPrintableAscii_hexDigit (c.toNat % 16) (by omega)]
    · rcases Nat.lt_or_ge c.toNat 0x7f with hascii | hascii
      · exact .inl ⟨by simp [isPrintableAscii]; omega, hascii⟩
      · exact .inr ⟨hascii, rfl⟩

theorem flatMap_asciiEscape {t : List Char} (h : t.all isPrintableAscii = true) :
    t.flatMap asciiEscape = t := by
  induction t with
  | nil => rfl
  | cons c t ih =>
    rw [List.all_cons, Bool.and_eq_true] at h
    have hc : asciiEscape c = [c] := if_pos (by simpa [isPrintableAscii] using h.1)
    rw [List.flatMap_cons, hc, ih h.2, List.singleton_append]

/-- Escapes are ASCII already; other characters are escaped only if they are not. -/
theorem escapeAscii_cases (c : Char) :
    escapeAscii c = escapeChar c ∧ (escapeChar c).all isPrintableAscii = true ∧ c.toNat < 0x7f ∨
      0x7f ≤ c.toNat ∧ escapeAscii c = asciiEscape c := by
  obtain ⟨hall, hascii⟩ | ⟨hbeyond, heq⟩ := escapeChar_cases c
  · exact .inl ⟨flatMap_asciiEscape hall, hall, hascii⟩
  · exact .inr ⟨hbeyond, by rw [escapeAscii, heq, List.flatMap_singleton]⟩

theorem scanString_escapeAscii {c : Char} {cs rest : List Char} {ns : List Nat}
    (h : scanString cs = .ok (ns, rest)) :
    scanString (escapeAscii c ++ cs) = .ok (codeUnits c ++ ns, rest) := by
  obtain ⟨heq, -, hascii⟩ | ⟨hascii, heq⟩ := escapeAscii_cases c
  · rw [heq, scanString_escapeChar h, codeUnits, if_pos (by omega)]
    rfl
  · rw [heq, asciiEscape, if_neg (by omega), codeUnits]
    split_ifs with hplane
    · exact scanString_unicodeEscape hplane h
    · have hlt : c.toNat < 0x110000 := by
        have hvalid := c.valid
        simp only [UInt32.isValidChar, Nat.isValidChar] at hvalid
        change (c.toNat < 0xd800 ∨ 0xdfff < c.toNat ∧ c.toNat < 0x110000) at hvalid
        omega
      rw [List.append_assoc]
      exact scanString_unicodeEscape (by omega) (scanString_unicodeEscape (by omega) h)

theorem legible_escapeAscii : Legible escapeAscii := by
  have hscan : ∀ (s rest : List Char), scanString (s.flatMap escapeAscii ++ '"' :: rest) =
      .ok (s.flatMap codeUnits, rest) := by
    intro s rest
    induction s with
    | nil => simp [scanString]
    | cons c s ih =>
      rw [List.flatMap_cons, List.flatMap_cons, List.append_assoc]
      exact scanString_escapeAscii ih
  intro s
  refine ⟨s.toList.flatMap escapeAscii ++ ['"'], rfl, fun rest => ?_⟩
  rw [List.append_assoc, List.singleton_append, parseString, hscan]
  simp only [joinSurrogates_codeUnits, ofCodePoints_chars]

section Reads

variable {escape : Char → List Char}

mutual

/-- The text of a proper value reads back as the value. -/
theorem reads_dump (hescape : Legible escape) : ∀ (v : Json) {t : List Char},
    proper v = true → dump escape v = some t → Reads v t
  | null, _, _, h => by
    cases h
    exact reads_word (by decide) (by decide) (by decide) rfl fun _ _ _ => rfl
  | bool true, _, _, h => by
    cases h
    exact reads_word (by decide) (by decide) (by decide) rfl fun _ _ _ => rfl
  | bool false, _, _, h => by
    cases h
    exact reads_word (by decide) (by decide) (by decide) rfl fun _ _ _ => rfl
  | int _, _, _, h => reads_int h
  | float x, _, hproper, h => by
    cases h
    exact reads_float hproper
  | str (.text s), _, _, h => by
    cases h
    exact reads_quoted (hescape s)
  | str (.lone _), _, _, h => by cases h
  | arr vs, _, hproper, h => by
    simp only [dump, Option.bind_eq_bind, Option.bind_eq_some_iff, Option.pure_def,
      Option.some.injEq] at h
    obtain ⟨ts, hts, rfl⟩ := h
    exact reads_arr (reads_dumpItems hescape vs hproper hts)
  | obj ms, _, hproper, h => by
    simp only [dump, Option.bind_eq_bind, Option.bind_eq_some_iff, Option.pure_def,
      Option.some.injEq] at h
    obtain ⟨ts, hts, rfl⟩ := h
    rw [proper, Bool.and_eq_true, decide_eq_true_eq] at hproper
    exact reads_obj (reads_dumpMembers hescape ms hproper.2 hts) hproper.1

theorem reads_dumpItems (hescape : Legible escape) : ∀ (vs : List Json) {ts : List (List Char)},
    properItems vs = true → dumpItems escape vs = some ts → List.Forall₂ Reads vs ts
  | [], _, _, h => by
    cases h
    exact .nil
  | v :: vs, _, hproper, h => by
    simp only [dumpItems, Option.bind_eq_bind, Option.bind_eq_some_iff, Option.pure_def,
      Option.some.injEq] at h
    obtain ⟨t, ht, ts, hts, rfl⟩ := h
    rw [properItems, Bool.and_eq_true] at hproper
    exact .cons (reads_dump hescape v hproper.1 ht) (reads_dumpItems hescape vs hproper.2 hts)

theorem reads_dumpMembers (hescape : Legible escape) :
    ∀ (ms : List (PyStr × Json)) {ts : List (List Char × List Char)}, properMembers ms = true →
      dumpMembers escape ms = some ts → List.Forall₂ ReadsMember ms ts
  | [], _, _, h => by
    cases h
    exact .nil
  | (.lone _, _) :: _, _, _, h => by cases h
  | (.text k, v) :: ms, _, hproper, h => by
    simp only [dumpMembers, Option.bind_eq_bind, Option.bind_eq_some_iff, Option.pure_def,
      Option.some.injEq] at h
    obtain ⟨t, ht, ts, hts, rfl⟩ := h
    rw [properMembers, Bool.and_eq_true] at hproper
    exact .cons ⟨⟨k, rfl, hescape k⟩, reads_dump hescape v hproper.1 ht⟩
      (reads_dumpMembers hescape ms hproper.2 hts)

end

end Reads

/-! Canonical texts -/

theorem floatText_of_repr {x : Double} {t : List Char} (h : x.repr = some t) : floatText x = t := by
  cases x with
  | finite => simp [floatText, h]
  | nan | infinity => cases h

mutual

/-- The canonical text of a proper value reads back as the value, in the order of its keys. -/
theorem reads_print : ∀ (v : Json) {t : List Char}, proper v = true → print v = some t →
    Reads (canonical v) t
  | null, _, _, h => by
    cases h
    exact reads_word (by decide) (by decide) (by decide) rfl fun _ _ _ => rfl
  | bool true, _, _, h => by
    cases h
    exact reads_word (by decide) (by decide) (by decide) rfl fun _ _ _ => rfl
  | bool false, _, _, h => by
    cases h
    exact reads_word (by decide) (by decide) (by decide) rfl fun _ _ _ => rfl
  | int _, _, _, h => reads_int h
  | float x, _, hproper, h => by
    rw [← floatText_of_repr h]
    exact reads_float hproper
  | str (.text s), _, _, h => by
    cases h
    exact reads_quoted (quotes_printString s)
  | str (.lone _), _, _, h => by cases h
  | arr vs, _, hproper, h => by
    simp only [print, Option.bind_eq_bind, Option.bind_eq_some_iff, Option.pure_def,
      Option.some.injEq] at h
    obtain ⟨ts, hts, rfl⟩ := h
    exact reads_arr (reads_printItems vs hproper hts)
  | obj ms, _, hproper, h => by
    simp only [print, Option.bind_eq_bind, Option.bind_eq_some_iff, Option.pure_def,
      Option.some.injEq] at h
    obtain ⟨ts, hts, rfl⟩ := h
    rw [proper, Bool.and_eq_true, decide_eq_true_eq] at hproper
    have hkeys : ((canonicalMembers ms).map Prod.fst).Nodup := by
      rw [canonicalMembers_eq, List.map_map]
      exact hproper.1
    have hperm := List.perm_insertionSort (fun a b => keyLe a b = true) (canonicalMembers ms)
    have hobj := reads_obj (readsMember_sorted (reads_printMembers ms hproper.2 hts))
      ((hperm.map Prod.fst).nodup_iff.mpr hkeys)
    rw [List.map_map] at hobj
    exact hobj

theorem reads_printItems : ∀ (vs : List Json) {ts : List (List Char)}, properItems vs = true →
    printItems vs = some ts → List.Forall₂ Reads (canonicalItems vs) ts
  | [], _, _, h => by
    cases h
    exact .nil
  | v :: vs, _, hproper, h => by
    simp only [printItems, Option.bind_eq_bind, Option.bind_eq_some_iff, Option.pure_def,
      Option.some.injEq] at h
    obtain ⟨t, ht, ts, hts, rfl⟩ := h
    rw [properItems, Bool.and_eq_true] at hproper
    exact .cons (reads_print v hproper.1 ht) (reads_printItems vs hproper.2 hts)

theorem reads_printMembers : ∀ (ms : List (PyStr × Json)) {ts : List (String × List Char)},
    properMembers ms = true → printMembers ms = some ts →
    List.Forall₂ (fun m t => m.1 = .text t.1 ∧ Reads m.2 t.2) (canonicalMembers ms) ts
  | [], _, _, h => by
    cases h
    exact .nil
  | (.lone _, _) :: _, _, _, h => by cases h
  | (.text k, v) :: ms, _, hproper, h => by
    simp only [printMembers, Option.bind_eq_bind, Option.bind_eq_some_iff, Option.pure_def,
      Option.some.injEq] at h
    obtain ⟨t, ht, ts, hts, rfl⟩ := h
    rw [properMembers, Bool.and_eq_true] at hproper
    exact .cons ⟨rfl, reads_print v hproper.1 ht⟩ (reads_printMembers ms hproper.2 hts)

end

mutual

theorem proper_of_plain : ∀ {v : Json}, plain v = true → proper v = true
  | float _, h => by cases h
  | arr vs, h => properItems_of_plain h
  | obj ms, h => by
    rw [plain, Bool.and_eq_true] at h
    rw [proper, Bool.and_eq_true]
    exact ⟨h.1, properMembers_of_plain h.2⟩
  | null, _ | bool _, _ | int _, _ | str _, _ => rfl

theorem properItems_of_plain : ∀ {vs : List Json}, plainItems vs = true → properItems vs = true
  | [], _ => rfl
  | v :: vs, h => by
    rw [plainItems, Bool.and_eq_true] at h
    rw [properItems, Bool.and_eq_true]
    exact ⟨proper_of_plain h.1, properItems_of_plain h.2⟩

theorem properMembers_of_plain : ∀ {ms : List (PyStr × Json)}, plainMembers ms = true →
    properMembers ms = true
  | [], _ => rfl
  | (_, v) :: ms, h => by
    rw [plainMembers, Bool.and_eq_true] at h
    rw [properMembers, Bool.and_eq_true]
    exact ⟨proper_of_plain h.1, properMembers_of_plain h.2⟩

end

/-- Reading what was printed gives the value, up to the order of its members. -/
theorem loads_dumps_of_proper {v : Json} {text : String} {limit : Nat} (hproper : proper v = true)
    (hdepth : v.depth ≤ limit) (h : v.dumps = some text) :
    loads limit text = .ok (canonical v) := by
  simp only [dumps, Option.map_eq_some_iff] at h
  obtain ⟨t, ht, rfl⟩ := h
  rw [loads_of_reads (reads_print v hproper ht), if_pos (depth_canonical_le hdepth)]

theorem loads_dumps {v : Json} {text : String} {limit : Nat} (hplain : plain v = true)
    (hdepth : v.depth ≤ limit) (h : v.dumps = some text) :
    loads limit text = .ok (canonical v) :=
  loads_dumps_of_proper (proper_of_plain hplain) hdepth h

theorem printMembers_eq_some_iff {ms : List (PyStr × Json)} {ts : List (String × List Char)} :
    printMembers ms = some ts ↔
      List.Forall₂ (fun m t => m.1 = .text t.1 ∧ print m.2 = some t.2) ms ts := by
  induction ms generalizing ts with
  | nil => simp [printMembers, eq_comm]
  | cons m ms ih =>
    obtain ⟨k, v⟩ := m
    rw [List.forall₂_cons_left_iff]
    cases k with
    | lone => simp [printMembers]
    | text k =>
      simp only [printMembers, Option.bind_eq_bind, Option.bind_eq_some_iff, Option.pure_def,
        Option.some.injEq, ih, PyStr.text.injEq]
      constructor
      · rintro ⟨t, ht, ts, hts, rfl⟩
        exact ⟨(k, t), ts, ⟨rfl, ht⟩, hts, rfl⟩
      · rintro ⟨⟨_, t⟩, ts, ⟨rfl, ht⟩, hts, rfl⟩
        exact ⟨t, ht, ts, hts, rfl⟩

theorem sortMembers_sortMembers {α : Type} (ts : List (String × α)) :
    sortMembers (sortMembers ts) = sortMembers ts := by
  have : Std.Total fun a b : String × α => a.1 ≤ b.1 := ⟨fun a b => le_total a.1 b.1⟩
  have : IsTrans (String × α) fun a b => a.1 ≤ b.1 := ⟨fun _ _ _ => le_trans⟩
  exact (List.pairwise_insertionSort _ ts).insertionSort_eq

mutual

/-- A value in the order of its keys has the text that it has in any order. -/
theorem print_canonical : ∀ (v : Json) {t : List Char}, print v = some t →
    print (canonical v) = some t
  | arr vs, _, h => by
    simp only [print, Option.bind_eq_bind, Option.bind_eq_some_iff, Option.pure_def,
      Option.some.injEq] at h
    obtain ⟨ts, hts, rfl⟩ := h
    simp [canonical, print, print_canonicalItems vs hts]
  | obj ms, _, h => by
    simp only [print, Option.bind_eq_bind, Option.bind_eq_some_iff, Option.pure_def,
      Option.some.injEq] at h
    obtain ⟨ts, hts, rfl⟩ := h
    have hsorted : printMembers ((canonicalMembers ms).insertionSort fun a b => keyLe a b) =
        some (sortMembers ts) := by
      refine printMembers_eq_some_iff.mpr (forall₂_insertionSort ?_ (print_canonicalMembers ms hts))
      rintro ⟨_, v⟩ ⟨k, t⟩ ⟨_, v'⟩ ⟨k', t'⟩ ⟨rfl, -⟩ ⟨rfl, -⟩
      simp [keyLe]
    simp [canonical, print, hsorted, sortMembers_sortMembers]
  | null, _, h | bool _, _, h | int _, _, h | float _, _, h | str _, _, h => h

theorem print_canonicalItems : ∀ (vs : List Json) {ts : List (List Char)},
    printItems vs = some ts → printItems (canonicalItems vs) = some ts
  | [], _, h => h
  | v :: vs, _, h => by
    simp only [printItems, Option.bind_eq_bind, Option.bind_eq_some_iff, Option.pure_def,
      Option.some.injEq] at h
    obtain ⟨t, ht, ts, hts, rfl⟩ := h
    simp [canonicalItems, printItems, print_canonical v ht, print_canonicalItems vs hts]

theorem print_canonicalMembers : ∀ (ms : List (PyStr × Json)) {ts : List (String × List Char)},
    printMembers ms = some ts → List.Forall₂ (fun m t => m.1 = .text t.1 ∧ print m.2 = some t.2)
      (canonicalMembers ms) ts
  | [], _, h => by
    cases h
    exact .nil
  | (.lone _, _) :: _, _, h => by cases h
  | (.text k, v) :: ms, _, h => by
    simp only [printMembers, Option.bind_eq_bind, Option.bind_eq_some_iff, Option.pure_def,
      Option.some.injEq] at h
    obtain ⟨t, ht, ts, hts, rfl⟩ := h
    exact .cons ⟨rfl, print_canonical v ht⟩ (print_canonicalMembers ms hts)

end

theorem dumps_canonical {v : Json} {text : String} (h : v.dumps = some text) :
    (canonical v).dumps = some text := by
  simp only [dumps, Option.map_eq_some_iff] at h ⊢
  obtain ⟨t, ht, rfl⟩ := h
  exact ⟨t, print_canonical v ht, rfl⟩

theorem properItems_iff {vs : List Json} :
    properItems vs = true ↔ ∀ v ∈ vs, v.proper = true := by
  induction vs with
  | nil => simp [properItems]
  | cons v vs ih => simp [properItems, ih]

theorem properMembers_iff {ms : List (PyStr × Json)} :
    properMembers ms = true ↔ ∀ m ∈ ms, m.2.proper = true := by
  induction ms with
  | nil => simp [properMembers]
  | cons m ms ih => simp [properMembers, ih]

mutual

theorem proper_canonical : ∀ {v : Json}, proper v = true → proper (canonical v) = true
  | arr vs, h => proper_canonicalItems h
  | obj ms, h => by
    rw [proper, Bool.and_eq_true, decide_eq_true_eq] at h
    have hmembers := properMembers_iff.mp (proper_canonicalMembers h.2)
    have hperm := List.perm_insertionSort (fun a b => keyLe a b = true) (canonicalMembers ms)
    rw [canonical, proper, Bool.and_eq_true, decide_eq_true_eq, properMembers_iff]
    refine ⟨?_, fun m hm => hmembers m (hperm.mem_iff.mp hm)⟩
    rw [(hperm.map Prod.fst).nodup_iff, canonicalMembers_eq, List.map_map]
    exact h.1
  | null, h | bool _, h | int _, h | float _, h | str _, h => h

theorem proper_canonicalItems : ∀ {vs : List Json}, properItems vs = true →
    properItems (canonicalItems vs) = true
  | [], h => h
  | v :: vs, h => by
    rw [properItems, Bool.and_eq_true] at h
    rw [canonicalItems, properItems, Bool.and_eq_true]
    exact ⟨proper_canonical h.1, proper_canonicalItems h.2⟩

theorem proper_canonicalMembers : ∀ {ms : List (PyStr × Json)}, properMembers ms = true →
    properMembers (canonicalMembers ms) = true
  | [], h => h
  | (_, v) :: ms, h => by
    rw [properMembers, Bool.and_eq_true] at h
    rw [canonicalMembers, properMembers, Bool.and_eq_true]
    exact ⟨proper_canonical h.1, proper_canonicalMembers h.2⟩

end

/-- Both values have one text, and it reads as one value. -/
theorem canonical_canonical {v : Json} {text : String} (hproper : proper v = true)
    (h : v.dumps = some text) : canonical (canonical v) = canonical v := by
  have hv := loads_dumps_of_proper hproper le_rfl h
  have hcanonical := loads_dumps_of_proper (proper_canonical hproper) (depth_canonical_le le_rfl)
    (dumps_canonical h)
  exact Except.ok.inj (hcanonical.symm.trans hv)

/-! The characters of a text -/

/-- A property of characters that no printable ASCII character has. -/
def BeyondAscii (p : Char → Bool) : Prop := ∀ c : Char, isPrintableAscii c = true → p c = false

section Characters

variable {escape : Char → List Char} {p : Char → Bool}

mutual

theorem anyChar_eq_false (hp : ∀ c, p c = false) : ∀ v : Json, anyChar p v = false
  | str (.text s) => List.any_eq_false.mpr fun c _ => by simp [hp c]
  | str (.lone _) => rfl
  | arr vs => anyCharItems_eq_false hp vs
  | obj ms => anyCharMembers_eq_false hp ms
  | null | bool _ | int _ | float _ => rfl

theorem anyCharItems_eq_false (hp : ∀ c, p c = false) : ∀ vs : List Json,
    anyCharItems p vs = false
  | [] => rfl
  | v :: vs => by rw [anyCharItems, anyChar_eq_false hp v, anyCharItems_eq_false hp vs]; rfl

theorem anyCharMembers_eq_false (hp : ∀ c, p c = false) : ∀ ms : List (PyStr × Json),
    anyCharMembers p ms = false
  | [] => rfl
  | (.text k, v) :: ms => by
    rw [anyCharMembers, anyChar_eq_false hp v, anyCharMembers_eq_false hp ms,
      List.any_eq_false.mpr fun c _ => by simp [hp c]]
    rfl
  | (.lone _, v) :: ms => by
    rw [anyCharMembers, anyChar_eq_false hp v, anyCharMembers_eq_false hp ms]
    rfl

end

theorem any_ascii (hp : BeyondAscii p) {t : List Char} (h : t.all isPrintableAscii = true) :
    t.any p = false := by
  rw [List.any_eq_false]
  intro c hc
  simp [hp c (List.all_eq_true.mp h c hc)]

theorem isPrintableAscii_digit {c : Char} (h : c.isDigit = true) : isPrintableAscii c = true := by
  simp only [Char.isDigit, Bool.and_eq_true, decide_eq_true_eq] at h
  have hlow := UInt32.le_iff_toNat_le.mp h.1
  have hhigh := UInt32.le_iff_toNat_le.mp h.2
  simp only [isPrintableAscii, Bool.and_eq_true, decide_eq_true_eq]
  exact ⟨le_trans (by decide) hlow, hhigh.trans (by decide)⟩

theorem any_printInt (hp : BeyondAscii p) {n : Int} {t : List Char} (h : printInt n = some t) :
    t.any p = false := by
  have hdigits : (Nat.toDigits 10 n.natAbs).all isPrintableAscii = true :=
    List.all_eq_true.mpr fun c hc => isPrintableAscii_digit (toDigits_isDigit hc)
  simp only [printInt] at h
  split_ifs at h
  · cases h
    exact any_ascii hp (by rw [List.all_cons, hdigits]; rfl)
  · cases h
    exact any_ascii hp hdigits

theorem floatText_printable (x : Double) : (floatText x).all isPrintableAscii = true := by
  have hmarks : ['.', 'e', '+', '-'].all isPrintableAscii = true := by decide
  cases x with
  | nan => decide
  | infinity negative => cases negative <;> decide
  | finite negative m e =>
    have hsign : (signText negative).all isPrintableAscii = true := by cases negative <;> decide
    rcases eq_or_ne m 0 with rfl | hm
    · rw [floatText_zero, List.all_append, hsign]
      rfl
    · rw [floatText_of_ne_zero hm, List.all_append, hsign, Bool.true_and, List.all_eq_true]
      intro c hc
      exact (placePoint_chars (fun c hc => toDigits_isDigit hc) _ c hc).elim isPrintableAscii_digit
        fun hmark => List.all_eq_true.mp hmarks c hmark

theorem any_quote (hp : BeyondAscii p) (s : String) :
    (quote escape s).any p = s.toList.any fun c => (escape c).any p := by
  simp [quote, hp '"' (by decide), List.any_flatMap]

theorem any_separated (hp : BeyondAscii p) (ts : List (List Char)) :
    (separated ts).any p = ts.any fun t => t.any p := by
  induction ts with
  | nil => rfl
  | cons t ts ih =>
    cases ts with
    | nil => simp [separated]
    | cons u us =>
      rw [separated_cons_cons, List.any_append, List.any_cons, ih, hp ',' (by decide),
        Bool.false_or, List.any_cons (l := u :: us)]

mutual

/-- A text has the characters of the keys and strings, each as it is escaped, and ASCII. -/
theorem any_dump (hp : BeyondAscii p) : ∀ (v : Json) {t : List Char}, dump escape v = some t →
    t.any p = anyChar (fun c => (escape c).any p) v
  | null, _, h | bool true, _, h | bool false, _, h => by
    cases h
    exact any_ascii hp (by decide)
  | int _, _, h => any_printInt hp h
  | float x, _, h => by
    cases h
    exact any_ascii hp (floatText_printable x)
  | str (.text s), _, h => by
    cases h
    exact any_quote hp s
  | str (.lone _), _, h => by cases h
  | arr vs, _, h => by
    simp only [dump, Option.bind_eq_bind, Option.bind_eq_some_iff, Option.pure_def,
      Option.some.injEq] at h
    obtain ⟨ts, hts, rfl⟩ := h
    have hitems := any_dumpItems hp vs hts
    simp [anyChar, any_separated hp, hitems, hp '[' (by decide),
      hp ']' (by decide)]
  | obj ms, _, h => by
    simp only [dump, Option.bind_eq_bind, Option.bind_eq_some_iff, Option.pure_def,
      Option.some.injEq] at h
    obtain ⟨ts, hts, rfl⟩ := h
    have hmembers := any_dumpMembers hp ms hts
    simp [anyChar, any_separated hp, hmembers, hp '\x7b' (by decide),
      hp '\x7d' (by decide)]

theorem any_dumpItems (hp : BeyondAscii p) : ∀ (vs : List Json) {ts : List (List Char)},
    dumpItems escape vs = some ts →
    ts.any (fun t => t.any p) = anyCharItems (fun c => (escape c).any p) vs
  | [], _, h => by
    cases h
    rfl
  | v :: vs, _, h => by
    simp only [dumpItems, Option.bind_eq_bind, Option.bind_eq_some_iff, Option.pure_def,
      Option.some.injEq] at h
    obtain ⟨t, ht, ts, hts, rfl⟩ := h
    rw [List.any_cons, anyCharItems, any_dump hp v ht, any_dumpItems hp vs hts]

theorem any_dumpMembers (hp : BeyondAscii p) :
    ∀ (ms : List (PyStr × Json)) {ts : List (List Char × List Char)},
    dumpMembers escape ms = some ts →
    (ts.map memberText).any (fun t => t.any p) = anyCharMembers (fun c => (escape c).any p) ms
  | [], _, h => by
    cases h
    rfl
  | (.lone _, _) :: _, _, h => by cases h
  | (.text k, v) :: ms, _, h => by
    simp only [dumpMembers, Option.bind_eq_bind, Option.bind_eq_some_iff, Option.pure_def,
      Option.some.injEq] at h
    obtain ⟨t, ht, ts, hts, rfl⟩ := h
    rw [List.map_cons, List.any_cons, anyCharMembers, memberText, List.any_append, List.any_cons,
      any_quote hp, any_dump hp v ht, any_dumpMembers hp ms hts, hp ':' (by decide),
      Bool.false_or]

end

/-- No character of the text has a property that neither ASCII nor an escape has. -/
theorem dump_any_eq_false (hp : BeyondAscii p) (hescape : ∀ c, (escape c).any p = false) {v : Json}
    {t : List Char} (h : dump escape v = some t) : t.any p = false :=
  (any_dump hp v h).trans (anyChar_eq_false hescape v)

theorem unicodeEscape_printable (n : Nat) : (unicodeEscape n).all isPrintableAscii = true := by
  have hplain : ['\\', 'u'].all isPrintableAscii = true := by decide
  simp_all [unicodeEscape, isPrintableAscii_hexDigit _ (Nat.mod_lt _ (show 0 < 16 by decide))]

theorem escapeAscii_printable (c : Char) : (escapeAscii c).all isPrintableAscii = true := by
  obtain ⟨heq, hall, -⟩ | ⟨hascii, heq⟩ := escapeAscii_cases c
  · rw [heq, hall]
  · rw [heq, asciiEscape, if_neg (by omega)]
    split_ifs
    · exact unicodeEscape_printable _
    · rw [List.all_append, unicodeEscape_printable, unicodeEscape_printable]
      rfl

end Characters

end Base.Json
