import Mathlib

/-! The text format of protocol buffers: words, strings with escapes, and messages in braces. -/
namespace Base.TextProto

/-- A character, or a surrogate that stands alone. -/
inductive CodePoint where
  | char (c : Char)
  | surrogate (n : Nat)
  deriving DecidableEq, Repr

abbrev Text := List CodePoint

def lit (s : String) : Text := s.toList.map .char

inductive Token where
  | word (w : Text)
  | str (v : Text)
  | colon
  | opened
  | closed
  deriving DecidableEq, Repr

/-! Strings -/

/-- The character that a letter stands for behind a backslash; numbers are not read. -/
def unescape : CodePoint → Option CodePoint
  | .char 'a' => some (.char '\x07')
  | .char 'b' => some (.char '\x08')
  | .char 'f' => some (.char '\x0c')
  | .char 'n' => some (.char '\n')
  | .char 'r' => some (.char '\r')
  | .char 't' => some (.char '\t')
  | .char 'v' => some (.char '\x0b')
  | .char '?' => some (.char '?')
  | .char '\'' => some (.char '\'')
  | .char '"' => some (.char '"')
  | .char '\\' => some (.char '\\')
  | _ => none

def escape (c : CodePoint) : Text :=
  if c = .char '\\' then lit "\\\\"
  else if c = .char '"' then lit "\\\""
  else if c = .char '\n' then lit "\\n"
  else if c = .char '\r' then lit "\\r"
  else [c]

/-! Tokens -/

def isWordChar : CodePoint → Bool
  | .char c => c.isAlphanum || c == '_'
  | .surrogate _ => false

def isBlank : CodePoint → Bool
  | .char c => [' ', '\t', '\n', '\r'].contains c
  | .surrogate _ => false

/-- Where the lexer is: between tokens, in a word, in a string, or behind a backslash in one. -/
inductive Mode where
  | plain
  | word (acc : Text)
  | str (acc : Text)
  | escaped (acc : Text)

/-- The token that a character is, if it is one, and the mode behind it. -/
def start (c : CodePoint) : Option (List Token × Mode) :=
  if isBlank c then some ([], .plain)
  else if isWordChar c then some ([], .word [c])
  else if c = .char '"' then some ([], .str [])
  else if c = .char ':' then some ([.colon], .plain)
  else if c = .char '\x7b' then some ([.opened], .plain)
  else if c = .char '\x7d' then some ([.closed], .plain)
  else none

/-- The tokens of a text; a string ends before the end of its line. -/
def scan : Mode → Text → Option (List Token)
  | .plain, [] => some []
  | .word acc, [] => some [.word acc]
  | .str _, [] => none
  | .escaped _, [] => none
  | .plain, c :: cs =>
    match start c with
    | some (tokens, mode) => (scan mode cs).map (tokens ++ ·)
    | none => none
  | .word acc, c :: cs =>
    if isWordChar c then scan (.word (acc ++ [c])) cs
    else match start c with
      | some (tokens, mode) => (scan mode cs).map (.word acc :: tokens ++ ·)
      | none => none
  | .str acc, c :: cs =>
    if c = .char '"' then (scan .plain cs).map (.str acc :: ·)
    else if c = .char '\\' then scan (.escaped acc) cs
    else if c = .char '\n' then none
    else scan (.str (acc ++ [c])) cs
  | .escaped acc, c :: cs =>
    match unescape c with
    | some c => scan (.str (acc ++ [c])) cs
    | none => none

theorem scan_plain_nil : scan .plain [] = some [] := rfl

theorem scan_plain_cons (c : CodePoint) (cs : Text) : scan .plain (c :: cs) =
    match start c with
    | some (tokens, mode) => (scan mode cs).map (tokens ++ ·)
    | none => none := rfl

theorem scan_word_cons (acc : Text) (c : CodePoint) (cs : Text) : scan (.word acc) (c :: cs) =
    if isWordChar c then scan (.word (acc ++ [c])) cs
    else match start c with
      | some (tokens, mode) => (scan mode cs).map (.word acc :: tokens ++ ·)
      | none => none := rfl

theorem scan_str_cons (acc : Text) (c : CodePoint) (cs : Text) : scan (.str acc) (c :: cs) =
    if c = .char '"' then (scan .plain cs).map (.str acc :: ·)
    else if c = .char '\\' then scan (.escaped acc) cs
    else if c = .char '\n' then none
    else scan (.str (acc ++ [c])) cs := rfl

/-! Fields -/

inductive Value where
  | word (w : Text)
  | str (v : Text)
  deriving DecidableEq, Repr

inductive Field where
  | scalar (name : Text) (value : Value)
  | message (name : Text) (fields : List Field)
  deriving Repr

/-- Fields, read into the innermost message that is open; the others wait with their fields. -/
def parse : List (Text × List Field) → List Field → List Token → Option (List Field)
  | [], fields, [] => some fields
  | _ :: _, _, [] => none
  | waiting, fields, .word name :: .colon :: .word w :: rest =>
    parse waiting (fields ++ [.scalar name (.word w)]) rest
  | waiting, fields, .word name :: .colon :: .str v :: rest =>
    parse waiting (fields ++ [.scalar name (.str v)]) rest
  | waiting, fields, .word name :: .opened :: rest => parse ((name, fields) :: waiting) [] rest
  | (name, outer) :: waiting, fields, .closed :: rest =>
    parse waiting (outer ++ [.message name fields]) rest
  | _, _, _ => none

def parseText (text : Text) : Option (List Field) := (scan .plain text).bind (parse [] [])

def Value.token : Value → Token
  | word w => .word w
  | str v => .str v

mutual

def Field.tokens : Field → List Token
  | .scalar name value => [.word name, .colon, value.token]
  | .message name fields => .word name :: .opened :: (tokensOf fields ++ [.closed])

def tokensOf : List Field → List Token
  | [] => []
  | field :: fields => field.tokens ++ tokensOf fields

end

mutual

theorem parse_tokens (field : Field) (waiting : List (Text × List Field)) (fields : List Field)
    (rest : List Token) :
    parse waiting fields (field.tokens ++ rest) = parse waiting (fields ++ [field]) rest := by
  cases field with
  | scalar name value => cases value <;> simp only [Field.tokens, Value.token, List.cons_append,
      List.nil_append, parse]
  | message name inner =>
    rw [Field.tokens]
    simp only [List.cons_append, List.append_assoc, parse]
    rw [parse_tokensOf inner]
    rfl

theorem parse_tokensOf (more : List Field) (waiting : List (Text × List Field))
    (fields : List Field) (rest : List Token) :
    parse waiting fields (tokensOf more ++ rest) = parse waiting (fields ++ more) rest := by
  cases more with
  | nil => rw [tokensOf, List.nil_append, List.append_nil]
  | cons field more =>
    rw [tokensOf, List.append_assoc, parse_tokens field, parse_tokensOf more, List.append_assoc]
    rfl

end

theorem tokensOf_append (fields more : List Field) :
    tokensOf (fields ++ more) = tokensOf fields ++ tokensOf more := by
  induction fields with
  | nil => rfl
  | cons field fields ih => rw [List.cons_append, tokensOf, tokensOf, ih, List.append_assoc]

/-! Texts and their tokens -/

/-- The text has these tokens, whatever follows it. -/
def Lexes (text : Text) (tokens : List Token) : Prop :=
  ∀ rest, scan .plain (text ++ rest) = (scan .plain rest).map (tokens ++ ·)

theorem Lexes.nil : Lexes [] [] := by
  intro rest
  simp

theorem Lexes.append {text more : Text} {tokens others : List Token} (h : Lexes text tokens)
    (hmore : Lexes more others) : Lexes (text ++ more) (tokens ++ others) := by
  intro rest
  rw [List.append_assoc, h, hmore, Option.map_map]
  simp [Function.comp_def]

theorem Lexes.of_start {c : CodePoint} {tokens : List Token}
    (h : start c = some (tokens, .plain)) : Lexes [c] tokens := by
  intro rest
  rw [List.singleton_append, scan_plain_cons, h]

theorem scan_word {acc w : Text} (hw : w.all isWordChar = true) {c : CodePoint}
    {tokens : List Token} (hc : isWordChar c = false) (hstart : start c = some (tokens, .plain))
    (rest : Text) :
    scan (.word acc) (w ++ c :: rest) =
      (scan .plain rest).map (.word (acc ++ w) :: tokens ++ ·) := by
  induction w generalizing acc with
  | nil =>
    rw [List.nil_append, scan_word_cons, if_neg (by simp [hc]), hstart, List.append_nil]
  | cons d w ih =>
    rw [List.all_cons, Bool.and_eq_true] at hw
    rw [List.cons_append, scan_word_cons, if_pos hw.1, ih hw.2, List.append_assoc]
    rfl

/-- A word, and the character that ends it. -/
theorem Lexes.word {w : Text} (hne : w ≠ []) (hw : w.all isWordChar = true) {c : CodePoint}
    {tokens : List Token} (hc : isWordChar c = false) (hstart : start c = some (tokens, .plain)) :
    Lexes (w ++ [c]) (.word w :: tokens) := by
  intro rest
  obtain ⟨d, w, rfl⟩ := List.exists_cons_of_ne_nil hne
  rw [List.all_cons, Bool.and_eq_true] at hw
  have hblank : isBlank d = false := by
    cases d with
    | surrogate n => rfl
    | char d =>
      by_contra hblank
      simp only [Bool.not_eq_false, isBlank, List.contains_iff_mem, List.mem_cons,
        List.not_mem_nil, or_false] at hblank
      rcases hblank with rfl | rfl | rfl | rfl <;> exact absurd hw.1 (by decide)
  have hd : start d = some ([], .word [d]) := by
    rw [start, hblank, if_neg Bool.false_ne_true, if_pos hw.1]
  rw [List.append_assoc, List.cons_append, scan_plain_cons, hd]
  dsimp only
  rw [List.singleton_append, scan_word hw.2 hc hstart]
  simp [Function.comp_def]

theorem scan_escape (acc : Text) (c : CodePoint) (rest : Text) :
    scan (.str acc) (escape c ++ rest) = scan (.str (acc ++ [c])) rest := by
  rw [escape]
  split_ifs with hbackslash hquote hnewline hreturn
  · subst hbackslash; rfl
  · subst hquote; rfl
  · subst hnewline; rfl
  · subst hreturn; rfl
  · rw [List.singleton_append, scan_str_cons, if_neg hquote, if_neg hbackslash, if_neg hnewline]

theorem scan_escapes (v acc rest : Text) :
    scan (.str acc) (v.flatMap escape ++ .char '"' :: rest) =
      (scan .plain rest).map (.str (acc ++ v) :: ·) := by
  induction v generalizing acc with
  | nil => rw [List.flatMap_nil, List.nil_append, scan_str_cons, if_pos rfl, List.append_nil]
  | cons c v ih =>
    rw [List.flatMap_cons, List.append_assoc, scan_escape, ih, List.append_assoc]
    rfl

/-- An escaped string between quotes is read as the string. -/
theorem Lexes.quoted (v : Text) : Lexes (lit "\"" ++ v.flatMap escape ++ lit "\"") [.str v] := by
  intro rest
  have hstart : start (.char '"') = some ([], .str []) := rfl
  have htext : lit "\"" ++ v.flatMap escape ++ lit "\"" ++ rest =
      .char '"' :: (v.flatMap escape ++ .char '"' :: rest) := by
    simp [lit]
  rw [htext, scan_plain_cons, hstart]
  dsimp only
  rw [scan_escapes, List.nil_append]
  simp [Function.comp_def]

/-- A text with the tokens of fields is read as the fields. -/
theorem parseText_of_lexes {text : Text} {fields : List Field} (h : Lexes text (tokensOf fields)) :
    parseText text = some fields := by
  have hscan := h []
  rw [List.append_nil, scan_plain_nil, Option.map_some, List.append_nil] at hscan
  have hparse := parse_tokensOf fields [] [] []
  rw [List.append_nil, List.nil_append] at hparse
  rw [parseText, hscan, Option.bind_some, hparse]
  rfl

end Base.TextProto
