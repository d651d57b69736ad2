import Mathlib

/-! Dictionaries as lists of members, and lists of members that are computed one by one. -/
namespace Base

variable {α β : Type}

section Lookup

variable [BEq α] [LawfulBEq α] {k : α} {v : β} {l : List (α × β)}

theorem lookup_eq_none_iff_notMem : l.lookup k = none ↔ k ∉ l.map Prod.fst := by
  rw [List.lookup_eq_none_iff]
  simp only [List.mem_map, not_exists, not_and, bne_iff_ne, ne_eq]
  exact forall_congr' fun p => imp_congr_right fun _ => by rw [eq_comm]

theorem mem_of_lookup (h : l.lookup k = some v) : (k, v) ∈ l := by
  obtain ⟨before, after, rfl, -⟩ := List.lookup_eq_some_iff.mp h
  simp

/-- In a dictionary that has every key once, a member is found under its key. -/
theorem lookup_of_mem (hkeys : (l.map Prod.fst).Nodup) (h : (k, v) ∈ l) :
    l.lookup k = some v := by
  cases hfound : l.lookup k with
  | none =>
    exact absurd (List.mem_map_of_mem h) (lookup_eq_none_iff_notMem.mp hfound)
  | some w =>
    have hmem := mem_of_lookup hfound
    have hsame := List.inj_on_of_nodup_map hkeys h hmem rfl
    rw [(Prod.mk.inj hsame).2]

theorem lookup_overwrite (w : β) (h : l.lookup k = some v) :
    (l.map fun m => if m.1 == k then (m.1, w) else m).lookup k = some w := by
  induction l with
  | nil => cases h
  | cons m l ih =>
    obtain ⟨k', u⟩ := m
    rw [List.map_cons]
    by_cases hk : k' = k
    · subst hk
      simp
    · have hne : (k == k') = false := by simpa using fun heq => hk heq.symm
      rw [List.lookup_cons, hne] at h
      rw [if_neg (by simpa using hk), List.lookup_cons, hne]
      exact ih h

end Lookup

/-- A list is computed member by member. -/
theorem mapM_eq_some_iff {f : α → Option β} {l : List α} {r : List β} :
    l.mapM f = some r ↔ List.Forall₂ (fun a b => f a = some b) l r := by
  induction l generalizing r with
  | nil => simp [eq_comm]
  | cons a l ih =>
    rw [List.mapM_cons, List.forall₂_cons_left_iff]
    simp only [Option.bind_eq_bind, Option.bind_eq_some_iff, Option.pure_def, Option.some.injEq, ih]
    constructor
    · rintro ⟨b, hb, bs, hbs, rfl⟩
      exact ⟨b, bs, hb, hbs, rfl⟩
    · rintro ⟨b, bs, hb, hbs, rfl⟩
      exact ⟨b, hb, bs, hbs, rfl⟩

theorem mapM_eq_ok_iff {ε : Type} {f : α → Except ε β} {l : List α} {r : List β} :
    l.mapM f = .ok r ↔ List.Forall₂ (fun a b => f a = .ok b) l r := by
  induction l generalizing r with
  | nil => simp [pure, Except.pure, eq_comm]
  | cons a l ih =>
    rw [List.mapM_cons, List.forall₂_cons_left_iff]
    cases ha : f a with
    | error e => simp [bind, Except.bind]
    | ok b =>
      cases hl : l.mapM f with
      | error e =>
        simp only [bind, Except.bind, reduceCtorEq, false_iff]
        rintro ⟨_, bs, -, hbs, -⟩
        rw [ih.mpr hbs] at hl
        cases hl
      | ok bs =>
        simp only [bind, Except.bind, pure, Except.pure, Except.ok.injEq]
        constructor
        · rintro rfl
          exact ⟨b, bs, rfl, ih.mp hl, rfl⟩
        · rintro ⟨c, cs, rfl, hcs, rfl⟩
          rw [ih.mpr hcs] at hl
          rw [Except.ok.inj hl]

theorem exists_mapM_eq_ok {ε : Type} {f : α → Except ε β} {l : List α}
    (h : ∀ a ∈ l, ∃ b, f a = .ok b) : ∃ r, l.mapM f = .ok r := by
  induction l with
  | nil => exact ⟨[], rfl⟩
  | cons a l ih =>
    obtain ⟨b, hb⟩ := h a List.mem_cons_self
    obtain ⟨bs, hbs⟩ := ih fun c hc => h c (List.mem_cons_of_mem a hc)
    exact ⟨b :: bs, by simp [List.mapM_cons, hb, hbs, bind, Except.bind, pure, Except.pure]⟩

theorem exists_of_mapM_eq_none {f : α → Option β} {l : List α} (h : l.mapM f = none) :
    ∃ a ∈ l, f a = none := by
  induction l with
  | nil => simp at h
  | cons a l ih =>
    cases ha : f a with
    | none => exact ⟨a, List.mem_cons_self, ha⟩
    | some b =>
      have htail : l.mapM f = none := by
        rw [Option.eq_none_iff_forall_ne_some]
        simpa [List.mapM_cons, ha] using h
      obtain ⟨c, hc, hnone⟩ := ih htail
      exact ⟨c, List.mem_cons_of_mem a hc, hnone⟩

theorem Forall₂.exists_left {r : α → β → Prop} {l : List α} {m : List β}
    (h : List.Forall₂ r l m) {b : β} (hb : b ∈ m) : ∃ a ∈ l, r a b := by
  induction h with
  | nil => cases hb
  | cons hr _ ih =>
    rcases List.mem_cons.mp hb with rfl | hb
    · exact ⟨_, List.mem_cons_self, hr⟩
    · obtain ⟨a, ha, hr⟩ := ih hb
      exact ⟨a, List.mem_cons_of_mem _ ha, hr⟩

theorem Forall₂.exists_right {r : α → β → Prop} {l : List α} {m : List β}
    (h : List.Forall₂ r l m) {a : α} (ha : a ∈ l) : ∃ b ∈ m, r a b :=
  Forall₂.exists_left h.flip ha

end Base
