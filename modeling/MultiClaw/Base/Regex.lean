import Mathlib

/-! Regular expressions with backtracking: an expression lists the places where it can end, the
preferred place first. -/
namespace Base

/-- A place in a text; the characters before it stand in reverse. -/
structure Place where
  before : List Char
  after : List Char

inductive Regex where
  | char (p : Char → Bool)
  | seq (r s : Regex)
  | alt (r s : Regex)
  /-- As often as possible. -/
  | star (r : Regex)
  | followedBy (r : Regex)
  | notFollowedBy (r : Regex)
  /-- Between a word character and another character, or an end of the text. -/
  | wordBoundary (isWord : Char → Bool)
  /-- Not right behind such a character. -/
  | notAfter (p : Char → Bool)
  /-- The end of the text, or the line break that ends it. -/
  | atEnd
  | empty

namespace Regex

/-- A repetition goes on as long as it takes something. -/
def repeatEnds (ends : Place → List Place) : Nat → Place → List Place
  | 0, p => [p]
  | n + 1, p =>
    ((ends p).filter fun q => q.after.length < p.after.length).flatMap (repeatEnds ends n) ++ [p]

def ends : Regex → Place → List Place
  | char p, ⟨before, after⟩ =>
    match after with
    | c :: cs => if p c then [⟨c :: before, cs⟩] else []
    | [] => []
  | seq r s, p => (ends r p).flatMap (ends s)
  | alt r s, p => ends r p ++ ends s p
  | star r, p => repeatEnds (ends r) p.after.length p
  | followedBy r, p => if (ends r p).isEmpty then [] else [p]
  | notFollowedBy r, p => if (ends r p).isEmpty then [p] else []
  | wordBoundary isWord, p =>
    if p.before.head?.any isWord != p.after.head?.any isWord then [p] else []
  | notAfter before, p => if p.before.head?.any before then [] else [p]
  | atEnd, p => if p.after = [] ∨ p.after = ['\n'] then [p] else []
  | empty, p => [p]

def plus (r : Regex) : Regex := seq r (star r)

def optional (r : Regex) : Regex := alt r empty

def times : Nat → Regex → Regex
  | 0, _ => empty
  | n + 1, r => seq r (times n r)

def oneOf : List Regex → Regex
  | [] => char fun _ => false
  | [r] => r
  | r :: rs => alt r (oneOf rs)

/-- One character after the other, each up to `same`. -/
def literal (same : Char → Char → Bool) (s : String) : Regex :=
  s.toList.foldr (fun c r => seq (char (same c)) r) empty

def searchFrom (r : Regex) : List Char → List Char → Bool
  | before, [] => !(ends r ⟨before, []⟩).isEmpty
  | before, c :: cs => !(ends r ⟨before, c :: cs⟩).isEmpty || searchFrom r (c :: before) cs

/-- The expression matches somewhere in the text. -/
def search (r : Regex) (s : String) : Bool := searchFrom r [] s.toList

/-- Rewrite the next `n` characters; at each place, `next` tells whether something starts there
that is to be replaced, by what, and where it ends. -/
def rewriteFrom (next : Place → Option (List Char × Place)) : Nat → Place → List Char
  | 0, _ => []
  | n + 1, p =>
    match next p with
    | some (replacement, q) => replacement ++ rewriteFrom next n q
    | none =>
      match p.after with
      | c :: cs => c :: rewriteFrom next n ⟨c :: p.before, cs⟩
      | [] => []

/-- Rewrite a text from left to right. -/
def rewrite (next : Place → Option (List Char × Place)) (s : String) : String :=
  String.ofList (rewriteFrom next s.length ⟨[], s.toList⟩)

/-- Where nothing is replaced by the empty text, a text does not become empty. -/
theorem rewriteFrom_ne_nil {next : Place → Option (List Char × Place)}
    (hnext : ∀ p t q, next p = some (t, q) → t ≠ []) {n : Nat} {p : Place} (hn : n ≠ 0)
    (hp : p.after ≠ []) : rewriteFrom next n p ≠ [] := by
  obtain ⟨n, rfl⟩ := Nat.exists_eq_succ_of_ne_zero hn
  rw [rewriteFrom]
  split
  · rename_i t q h
    simp [hnext p t q h]
  · split
    · simp
    · exact absurd ‹_› hp

/-- Characters where nothing starts are kept. -/
theorem rewriteFrom_replicate {next : Place → Option (List Char × Place)} {c : Char}
    (hnext : ∀ before rest, before.head?.all (· == c) = true → next ⟨before, c :: rest⟩ = none)
    (k n : Nat) (rest : List Char) {before : List Char}
    (hbefore : before.head?.all (· == c) = true) :
    rewriteFrom next (k + n) ⟨before, List.replicate k c ++ rest⟩ =
      List.replicate k c ++ rewriteFrom next n ⟨List.replicate k c ++ before, rest⟩ := by
  induction k generalizing before with
  | zero => simp
  | succ k ih =>
    have hstep : List.replicate k c ++ c :: before = c :: (List.replicate k c ++ before) := by
      rw [← List.singleton_append, ← List.append_assoc, ← List.replicate_succ',
        List.replicate_succ, List.cons_append]
    rw [Nat.succ_add, rewriteFrom, List.replicate_succ, List.cons_append,
      hnext before _ hbefore]
    simp only [List.cons_append]
    rw [ih (by simp), hstep]

/-- The text between two places. -/
def textBetween (p q : Place) : List Char := p.after.take (p.after.length - q.after.length)

/-- The preferred match that takes something. -/
def matchAt (r : Regex) (p : Place) : Option Place :=
  (ends r p).find? fun q => q.after.length < p.after.length

end Regex

end Base
