import Mathlib

/-! Replacement of the occurrences of a text, from left to right and without overlap. -/
namespace Base

variable {α : Type} [DecidableEq α] {old new cs rest : List α} {c d : α} {k : Nat}

/-- Replacement, when so many characters still belong to the last occurrence. -/
def replaceSkipping (old new : List α) : Nat → List α → List α
  | _, [] => []
  | skip + 1, _ :: cs => replaceSkipping old new skip cs
  | 0, c :: cs =>
    if old <+: c :: cs then new ++ replaceSkipping old new (old.length - 1) cs
    else c :: replaceSkipping old new 0 cs

/-- All occurrences of a text that is not empty, replaced. -/
def replaceAll (old new cs : List α) : List α := replaceSkipping old new 0 cs

theorem replaceSkipping_eq_drop :
    replaceSkipping old new k cs = replaceAll old new (cs.drop k) := by
  induction cs generalizing k with
  | nil => cases k <;> rfl
  | cons c cs ih =>
    cases k with
    | zero => rfl
    | succ k => exact ih

@[simp]
theorem replaceAll_nil : replaceAll old new [] = [] := rfl

theorem replaceAll_cons_of_not_starts (h : ¬ old <+: c :: cs) :
    replaceAll old new (c :: cs) = c :: replaceAll old new cs := by
  rw [replaceAll, replaceSkipping, if_neg h]
  rfl

theorem replaceAll_append (hold : old ≠ []) :
    replaceAll old new (old ++ rest) = new ++ replaceAll old new rest := by
  obtain ⟨c, cs, rfl⟩ := List.exists_cons_of_ne_nil hold
  have hstarts : c :: cs <+: c :: (cs ++ rest) := List.prefix_append (c :: cs) rest
  rw [List.cons_append, replaceAll, replaceSkipping, if_pos hstarts, replaceSkipping_eq_drop]
  simp

/-- A text that does not have the first character of an occurrence stays as it is. -/
theorem replaceAll_append_of_notMem (h : d ∉ cs) :
    replaceAll (d :: old) new (cs ++ rest) = cs ++ replaceAll (d :: old) new rest := by
  induction cs with
  | nil => rfl
  | cons c cs ih =>
    rw [List.mem_cons, not_or] at h
    have hnot : ¬ d :: old <+: c :: (cs ++ rest) :=
      fun hstarts => h.1 (List.cons_prefix_cons.mp hstarts).1
    rw [List.cons_append, replaceAll_cons_of_not_starts hnot, ih h.2, List.cons_append]

end Base
