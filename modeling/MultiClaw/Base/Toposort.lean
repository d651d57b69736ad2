import Mathlib

/-! Orders of finitely many keys in which every key comes after the keys it depends on. -/
namespace Base.Toposort

open Relation

variable {κ : Type} {dep : κ → κ → Prop} {keys done rest order other chain : List κ} {k a b : κ}
  {rank : κ → Nat}

/-- Every key of the second list depends only on keys that stand before it. -/
def DepsFirst (dep : κ → κ → Prop) : List κ → List κ → Prop
  | _, [] => True
  | done, k :: rest => (∀ b, dep k b → b ∈ done) ∧ DepsFirst dep (done ++ [k]) rest

/-- The keys that may come next. -/
def Ready (dep : κ → κ → Prop) (keys done : List κ) (k : κ) : Prop :=
  k ∈ keys ∧ k ∉ done ∧ ∀ b, dep k b → b ∈ done

/-- The list that always takes the ready key of least rank, until no key is ready. -/
inductive Greedy (dep : κ → κ → Prop) (keys : List κ) (rank : κ → Nat) :
    List κ → List κ → Prop where
  | stop {done : List κ} (hnone : ∀ k, ¬ Ready dep keys done k) : Greedy dep keys rank done []
  | take {done rest : List κ} {k : κ} (hready : Ready dep keys done k)
      (hleast : ∀ k', Ready dep keys done k' → rank k ≤ rank k')
      (hrest : Greedy dep keys rank (done ++ [k]) rest) : Greedy dep keys rank done (k :: rest)

/-- An arrangement of all keys in which dependencies come first. -/
def IsOrder (dep : κ → κ → Prop) (keys order : List κ) : Prop :=
  order.Perm keys ∧ DepsFirst dep [] order

/-- The first of these arrangements in the lexicographic order of ranks. -/
def IsLeastOrder (dep : κ → κ → Prop) (keys : List κ) (rank : κ → Nat) (order : List κ) : Prop :=
  IsOrder dep keys order ∧
    ∀ other, IsOrder dep keys other → ¬ List.Lex (· < ·) (other.map rank) (order.map rank)

/-! Orders -/

theorem DepsFirst.mem_of_split {pre post : List κ} (h : DepsFirst dep done (pre ++ k :: post))
    (hdep : dep k b) : b ∈ done ++ pre := by
  induction pre generalizing done with
  | nil => simpa using h.1 b hdep
  | cons p pre ih => simpa [List.append_assoc] using ih h.2

theorem DepsFirst.idxOf_lt [DecidableEq κ] (h : DepsFirst dep [] order) (ha : a ∈ order)
    (hdep : dep a b) : order.idxOf b < order.idxOf a := by
  obtain ⟨pre, post, rfl, hpre⟩ := List.eq_append_cons_of_mem ha
  have hb : b ∈ pre := h.mem_of_split hdep
  rw [List.idxOf_append_of_mem hb, List.idxOf_append_of_notMem hpre]
  exact (List.idxOf_lt_length_of_mem hb).trans_le (Nat.le_add_right _ _)

/-- Keys that can be ordered do not depend on themselves. -/
theorem acyclic_of_isOrder (h : IsOrder dep keys order) (hkeys : ∀ a b, dep a b → a ∈ keys) :
    ∀ k, ¬ TransGen dep k k := by
  classical
  have hlt : ∀ a b, TransGen dep a b → order.idxOf b < order.idxOf a := by
    intro a b hab
    induction hab with
    | single hdep => exact h.2.idxOf_lt (h.1.mem_iff.mpr (hkeys _ _ hdep)) hdep
    | tail _ hdep ih =>
      exact (h.2.idxOf_lt (h.1.mem_iff.mpr (hkeys _ _ hdep)) hdep).trans ih
  exact fun k hk => absurd (hlt k k hk) (lt_irrefl _)

/-! Greedy lists -/

theorem Greedy.depsFirst (h : Greedy dep keys rank done rest) : DepsFirst dep done rest := by
  induction h with
  | stop => trivial
  | take hready _ _ ih => exact ⟨hready.2.2, ih⟩

theorem Greedy.fresh (h : Greedy dep keys rank done rest) :
    ∀ k ∈ rest, k ∈ keys ∧ k ∉ done := by
  induction h with
  | stop => exact fun k hk => absurd hk List.not_mem_nil
  | take hready _ _ ih =>
    intro k hk
    rcases List.mem_cons.mp hk with rfl | hk
    · exact ⟨hready.1, hready.2.1⟩
    · exact ⟨(ih k hk).1, fun hdone => (ih k hk).2 (List.mem_append_left _ hdone)⟩

theorem Greedy.nodup (h : Greedy dep keys rank done rest) : rest.Nodup := by
  induction h with
  | stop => exact List.nodup_nil
  | take _ _ hrest ih => exact List.nodup_cons.mpr ⟨fun hk => (hrest.fresh _ hk).2 (by simp), ih⟩

theorem Greedy.none_ready (h : Greedy dep keys rank done rest) :
    ∀ k, ¬ Ready dep keys (done ++ rest) k := by
  induction h with
  | stop hnone => simpa using hnone
  | take _ _ _ ih => simpa using ih

/-- As long as keys remain, one of them is ready, unless they depend on one another in a circle. -/
theorem exists_ready (hacyclic : ∀ k, ¬ TransGen dep k k) (hdeps : ∀ a b, dep a b → b ∈ keys)
    (hrest : ∃ k ∈ keys, k ∉ done) : ∃ k, Ready dep keys done k := by
  let left := { k : κ // k ∈ keys ∧ k ∉ done }
  have : Finite left :=
    Set.Finite.subset (List.finite_toSet keys) fun k (hk : k ∈ keys ∧ k ∉ done) => hk.1
  let below : left → left → Prop := fun a b => TransGen dep b.1 a.1
  have : IsTrans left below := ⟨fun _ _ _ hab hbc => hbc.trans hab⟩
  have : Std.Irrefl below := ⟨fun k hk => hacyclic k.1 hk⟩
  obtain ⟨k, hk, hdone⟩ := hrest
  obtain ⟨m, -, hmin⟩ := (Finite.wellFounded_of_trans_of_irrefl below).has_min Set.univ
    ⟨⟨k, hk, hdone⟩, trivial⟩
  refine ⟨m.1, m.2.1, m.2.2, fun b hb => ?_⟩
  by_contra hnot
  exact hmin ⟨b, hdeps _ _ hb, hnot⟩ trivial (.single hb)

theorem Greedy.isOrder (h : Greedy dep keys rank [] order) (hnodup : keys.Nodup)
    (hacyclic : ∀ k, ¬ TransGen dep k k) (hdeps : ∀ a b, dep a b → b ∈ keys) :
    IsOrder dep keys order := by
  refine ⟨(List.perm_ext_iff_of_nodup h.nodup hnodup).mpr fun k =>
    ⟨fun hk => (h.fresh k hk).1, fun hk => ?_⟩, h.depsFirst⟩
  by_contra hnot
  obtain ⟨k', hready⟩ := exists_ready hacyclic hdeps ⟨k, hk, hnot⟩
  exact h.none_ready k' (by simpa using hready)

/-- No other list of the same keys with dependencies first comes before a greedy one. -/
theorem Greedy.not_lex (h : Greedy dep keys rank done rest)
    (hinj : ∀ a ∈ keys, ∀ b ∈ keys, rank a = rank b → a = b) (hperm : other.Perm rest)
    (hother : DepsFirst dep done other) :
    ¬ List.Lex (· < ·) (other.map rank) (rest.map rank) := by
  induction h generalizing other with
  | stop => exact List.not_lex_nil
  | @take done rest k hready hleast hrest ih =>
    cases other with
    | nil => exact absurd hperm.symm.eq_nil (List.cons_ne_nil _ _)
    | cons k' other =>
      have hgreedy : Greedy dep keys rank done (k :: rest) := .take hready hleast hrest
      obtain ⟨hkeys', hfresh'⟩ := hgreedy.fresh k' (hperm.mem_iff.mp List.mem_cons_self)
      have hle := hleast k' ⟨hkeys', hfresh', hother.1⟩
      rw [List.map_cons, List.map_cons, List.cons_lex_cons_iff]
      rintro (hlt | ⟨heq, hlex⟩)
      · exact absurd hlt (Nat.not_lt.mpr hle)
      · obtain rfl := hinj k' hkeys' k hready.1 heq
        exact ih ((List.perm_cons _).mp hperm) hother.2 hlex

theorem Greedy.isLeastOrder (h : Greedy dep keys rank [] order) (hnodup : keys.Nodup)
    (hacyclic : ∀ k, ¬ TransGen dep k k) (hdeps : ∀ a b, dep a b → b ∈ keys)
    (hinj : ∀ a ∈ keys, ∀ b ∈ keys, rank a = rank b → a = b) :
    IsLeastOrder dep keys rank order := by
  have horder := h.isOrder hnodup hacyclic hdeps
  refine ⟨horder, fun other hother => h.not_lex hinj (hother.1.trans horder.1.symm) hother.2⟩

theorem eq_of_not_lex {l l' : List Nat} (h : ¬ List.Lex (· < ·) l l')
    (h' : ¬ List.Lex (· < ·) l' l) : l = l' := by
  induction l generalizing l' with
  | nil =>
    cases l' with
    | nil => rfl
    | cons => exact absurd .nil h
  | cons x l ih =>
    cases l' with
    | nil => exact absurd .nil h'
    | cons y l' =>
      rcases lt_trichotomy x y with hlt | rfl | hlt
      · exact absurd (.rel hlt) h
      · rw [ih (fun hlex => h (.cons hlex)) fun hlex => h' (.cons hlex)]
      · exact absurd (.rel hlt) h'

theorem IsLeastOrder.unique (h : IsLeastOrder dep keys rank order)
    (h' : IsLeastOrder dep keys rank other)
    (hinj : ∀ a ∈ keys, ∀ b ∈ keys, rank a = rank b → a = b) : order = other := by
  have hmap : order.map rank = other.map rank :=
    eq_of_not_lex (h'.2 order h.1) (h.2 other h'.1)
  have hlength : order.length = other.length := h.1.1.length_eq.trans h'.1.1.length_eq.symm
  refine List.ext_getElem hlength fun i hi hi' => ?_
  refine hinj _ (h.1.1.mem_iff.mp (List.getElem_mem hi)) _
    (h'.1.1.mem_iff.mp (List.getElem_mem hi')) ?_
  have hget := congrArg (·[i]?) hmap
  simpa [hi, hi'] using hget

/-- Nothing stands before the numbers in their order. -/
theorem not_lex_range' {l : List Nat} {s n : Nat} (h : l.Perm (List.range' s n)) :
    ¬ List.Lex (· < ·) l (List.range' s n) := by
  induction n generalizing l s with
  | zero => intro hlex; cases hlex
  | succ n ih =>
    rw [List.range'_succ] at h ⊢
    intro hlex
    cases hlex with
    | nil => cases h.symm.eq_nil
    | cons htail => exact ih h.cons_inv htail
    | rel hlt =>
      rename_i a t
      have hmem : a ∈ s :: List.range' (s + 1) n := h.mem_iff.mp List.mem_cons_self
      rw [← List.range'_succ, List.mem_range'_1] at hmem
      omega

/-- Keys that stand in such an order are in the first one by their own places. -/
theorem isLeastOrder_self [DecidableEq κ] (h : DepsFirst dep [] keys) (hnodup : keys.Nodup) :
    IsLeastOrder dep keys keys.idxOf keys := by
  have hrank : keys.map keys.idxOf = List.range' 0 keys.length := by
    refine List.ext_getElem (by simp) fun i hi _ => ?_
    simp [hnodup.idxOf_getElem]
  refine ⟨⟨.refl _, h⟩, fun other hother => ?_⟩
  rw [hrank]
  exact not_lex_range' (hrank ▸ hother.1.map _)

/-! Chains -/

/-- A number for every key that grows along the dependencies bounds the length of their chains. -/
theorem length_le_of_chain {depth : κ → Nat} (hpos : ∀ k, 1 ≤ depth k)
    (hdepth : ∀ a b, dep a b → depth b + 1 ≤ depth a) (h : (k :: chain).IsChain dep) :
    (k :: chain).length ≤ depth k := by
  induction chain generalizing k with
  | nil => exact hpos k
  | cons b chain ih =>
    obtain ⟨hdep, hrest⟩ := List.isChain_cons_cons.mp h
    have hb := ih hrest
    have hk := hdepth k b hdep
    simp only [List.length_cons] at hb ⊢
    omega

end Base.Toposort
