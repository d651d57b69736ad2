import Mathlib

/-! Lists and finite families: sums, maxima and prefixes. -/
namespace Base

open List

variable {α β : Type} {n : Nat}

theorem sum_update_at (g : Fin n → α → Nat) (f : Fin n → α) (i : Fin n) (x : α) :
    ∑ k, g k (Function.update f i x k) + g i (f i) = ∑ k, g k (f k) + g i x := by
  have hnew := Finset.add_sum_erase Finset.univ (fun k => g k (Function.update f i x k))
    (Finset.mem_univ i)
  have hold := Finset.add_sum_erase Finset.univ (fun k => g k (f k)) (Finset.mem_univ i)
  have hrest : ∑ k ∈ Finset.univ.erase i, g k (Function.update f i x k) =
      ∑ k ∈ Finset.univ.erase i, g k (f k) :=
    Finset.sum_congr rfl fun k hk => by rw [Function.update_of_ne (Finset.ne_of_mem_erase hk)]
  simp only [Function.update_self] at hnew
  omega

theorem sum_update (g : α → Nat) (f : Fin n → α) (i : Fin n) (x : α) :
    ∑ k, g (Function.update f i x k) + g (f i) = ∑ k, g (f k) + g x :=
  sum_update_at (fun _ => g) f i x

/-- Rewriting that respects a selection and an order acts on the sorted selection. -/
theorem insertionSort_filter_map {f : α → α} {p : α → Bool} {r : α → α → Prop} [DecidableRel r]
    {l : List α} (hp : ∀ a ∈ l, p (f a) = p a) (hr : ∀ a ∈ l, ∀ b ∈ l, r a b ↔ r (f a) (f b)) :
    ((l.map f).filter p).insertionSort r = ((l.filter p).insertionSort r).map f := by
  have hfilter : l.filter (p ∘ f) = l.filter p := List.filter_congr hp
  rw [List.filter_map, hfilter, List.map_insertionSort r r f]
  intro a ha b hb
  exact hr a (List.mem_of_mem_filter ha) b (List.mem_of_mem_filter hb)

/-- Rewriting that only takes elements out of a selection. -/
theorem filter_map_sublist {f : α → α} {p q : α → Bool} {l : List α}
    (h : ∀ a, p (f a) = true → f a = a ∧ q a = true) : (l.map f).filter p <+ l.filter q := by
  induction l with
  | nil => simp
  | cons a l ih =>
    rw [List.map_cons]
    by_cases hp : p (f a) = true
    · obtain ⟨hfa, hq⟩ := h a hp
      rw [List.filter_cons_of_pos hp, List.filter_cons_of_pos hq, hfa]
      exact ih.cons_cons a
    · rw [List.filter_cons_of_neg hp, List.filter_cons]
      split
      · exact ih.cons a
      · exact ih

/-- Sorting a list and selecting from it gives the selection in order. -/
theorem filter_insertionSort_eq {r : α → α → Prop} [DecidableRel r]
    (htotal : ∀ a b, r a b ∨ r b a) (htrans : ∀ a b c, r a b → r b c → r a c) {p : α → Bool}
    {l m : List α} (hperm : l.filter p = m) (hm : m.Pairwise r)
    (hanti : ∀ a ∈ m, ∀ b ∈ m, r a b → r b a → a = b) :
    (l.insertionSort r).filter p = m := by
  have : Std.Total r := ⟨htotal⟩
  have : IsTrans α r := ⟨htrans⟩
  have hsame : ((l.insertionSort r).filter p).Perm m :=
    hperm ▸ (List.perm_insertionSort r l).filter p
  refine hsame.eq_of_pairwise (fun a b ha hb => ?_) ((List.pairwise_insertionSort r l).filter p) hm
  exact hanti a (hsame.mem_iff.mp ha) b hb

/-- The only element that fits is the one that is found. -/
theorem find?_eq_some_of_unique {p : α → Bool} {l : List α} {a : α} (ha : a ∈ l)
    (hp : p a = true) (hunique : ∀ b ∈ l, p b = true → b = a) : l.find? p = some a := by
  cases h : l.find? p with
  | none => exact absurd hp (List.find?_eq_none.mp h a ha)
  | some b => rw [hunique b (List.mem_of_find?_eq_some h) (List.find?_some h)]

section Sorting

variable {r : α → α → Prop} [DecidableRel r] {a : α} {l : List α}

theorem orderedInsert_eq_append (h : ∀ b ∈ l, ¬r a b) : l.orderedInsert r a = l ++ [a] := by
  induction l with
  | nil => rfl
  | cons b l ih =>
    rw [List.orderedInsert, if_neg (h b (by simp)), ih fun c hc => h c (List.mem_cons_of_mem _ hc),
      List.cons_append]

/-- A list in the opposite order is sorted by reversing it. -/
theorem insertionSort_eq_reverse (h : l.Pairwise fun a b => ¬r a b) :
    l.insertionSort r = l.reverse := by
  induction l with
  | nil => rfl
  | cons a l ih =>
    obtain ⟨ha, hl⟩ := List.pairwise_cons.mp h
    rw [List.insertionSort_cons, ih hl, orderedInsert_eq_append (by simpa using ha),
      List.reverse_cons]

end Sorting

section Order

variable [LinearOrder β] {key : α → β} {p : α → Bool} {l : List α}

/-- The rows before a given one in a sorted list are those with smaller keys. -/
theorem countP_of_sorted {a : α} {xs ys : List α}
    (hl : (xs ++ a :: ys).Pairwise fun a b => key a < key b) (q : α → Bool) :
    (xs ++ a :: ys).countP (fun b => q b && decide (key b < key a)) = xs.countP q := by
  obtain ⟨-, htail, hbefore⟩ := List.pairwise_append.mp hl
  have hafter := (List.pairwise_cons.mp htail).1
  have hxs : xs.countP (fun b => q b && decide (key b < key a)) = xs.countP q := by
    refine List.countP_congr fun b hb => ?_
    simp [hbefore b hb a (by simp)]
  have hys : ys.countP (fun b => q b && decide (key b < key a)) = 0 := by
    refine List.countP_eq_zero.mpr fun b hb => ?_
    simp [(hafter b hb).le]
  simp [hxs, hys]

/-- The first rows of a sorted list contain one with `p` if and only if some row with `p` has few
enough rows without `p` before it. -/
theorem exists_mem_take_iff (hl : l.Pairwise fun a b => key a < key b) :
    (∃ a ∈ l.take n, p a = true) ↔
      ∃ a ∈ l, p a = true ∧ l.countP (fun b => !p b && decide (key b < key a)) < n := by
  constructor
  · rintro ⟨a, ha, hp⟩
    obtain ⟨xs, ys, hxs⟩ := List.append_of_mem ha
    refine ⟨a, List.mem_of_mem_take ha, hp, ?_⟩
    have hsplit : l = xs ++ a :: (ys ++ l.drop n) := by
      conv_lhs => rw [← List.take_append_drop n l, hxs]
      simp
    rw [hsplit] at hl
    have hlength : (l.take n).length ≤ n := List.length_take_le n l
    rw [hxs, List.length_append, List.length_cons] at hlength
    have hcount := List.countP_le_length (p := fun b => !p b) (l := xs)
    rw [hsplit, countP_of_sorted hl]
    omega
  · rintro ⟨a, ha, hp, hfew⟩
    -- the first row with `p` has nothing but rows without `p` before it
    obtain ⟨c, hfind⟩ := Option.isSome_iff_exists.mp (List.find?_isSome.mpr ⟨a, ha, hp⟩)
    obtain ⟨hc, xs, ys, rfl, hxs⟩ := List.find?_eq_some_iff_append.mp hfind
    have hle : key c ≤ key a := by
      obtain ha | rfl | ha := by simpa using ha
      · exact absurd hp (by simpa using hxs a ha)
      · exact le_rfl
      · exact ((List.pairwise_cons.mp (List.pairwise_append.mp hl).2.1).1 a ha).le
    have hlength : xs.length < n := by
      refine lt_of_le_of_lt ?_ hfew
      rw [← List.countP_eq_length.mpr hxs, ← countP_of_sorted hl]
      refine List.countP_mono_left fun b _ hb => ?_
      simp only [Bool.and_eq_true, decide_eq_true_eq] at hb ⊢
      exact ⟨hb.1, hb.2.trans_le hle⟩
    refine ⟨c, ?_, hc⟩
    rw [List.take_append, List.mem_append, List.take_cons (by omega)]
    exact .inr (by simp)

end Order

end Base
