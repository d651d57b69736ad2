import Mathlib

/-! Tables whose rows never share a unique key, with inserts, conditional updates and lookups. -/
namespace Base

variable {ρ κ : Type} {keys : ρ → List κ} {p q : ρ → Bool} {f : ρ → ρ} {r a b : ρ}

/-- Rows in insertion order. Each row has a list of unique keys, and no two rows share one. -/
structure Table (ρ κ : Type) (keys : ρ → List κ) where
  rows : List ρ
  unique : rows.Pairwise fun a b => (keys a).Disjoint (keys b)

namespace Table

variable {t u : Table ρ κ keys}

@[ext] theorem ext (h : t.rows = u.rows) : t = u := by
  cases t
  cases u
  simp_all

def empty : Table ρ κ keys := ⟨[], .nil⟩

/-- The first row that a where-clause selects. -/
def find? (t : Table ρ κ keys) (p : ρ → Bool) : Option ρ := t.rows.find? p

def count (t : Table ρ κ keys) (p : ρ → Bool) : Nat := t.rows.countP p

def any (t : Table ρ κ keys) (p : ρ → Bool) : Bool := t.rows.any p

def filter (t : Table ρ κ keys) (p : ρ → Bool) : List ρ := t.rows.filter p

/-- Append a row, unless it would share a unique key with a stored row. -/
def insert? [DecidableEq κ] (t : Table ρ κ keys) (r : ρ) : Option (Table ρ κ keys) :=
  if h : ∀ a ∈ t.rows, ∀ k ∈ keys a, k ∉ keys r then
    some ⟨t.rows ++ [r], by
      rw [List.pairwise_append]
      refine ⟨t.unique, List.pairwise_singleton _ _, ?_⟩
      intro a ha b hb k hka hkb
      rw [List.mem_singleton] at hb
      exact h a ha k hka (hb ▸ hkb)⟩
  else none

/-- Append several rows, unless one would share a unique key with a row before it. -/
def insertAll? [DecidableEq κ] (t : Table ρ κ keys) (rs : List ρ) : Option (Table ρ κ keys) :=
  rs.foldlM (fun t r => t.insert? r) t

/-- Rewrite the rows that a where-clause selects; the rewriting keeps the keys of each row. -/
def update (t : Table ρ κ keys) (p : ρ → Bool) (f : ρ → ρ) (hf : ∀ r, keys (f r) = keys r) :
    Table ρ κ keys where
  rows := t.rows.map fun r => if p r then f r else r
  unique := by
    rw [List.pairwise_map]
    refine t.unique.imp ?_
    intro a b h
    have hk : ∀ r, keys (if p r then f r else r) = keys r := by
      intro r
      split <;> simp [hf]
    rw [hk, hk]
    exact h

/-- Delete the rows that a where-clause selects. -/
def delete (t : Table ρ κ keys) (p : ρ → Bool) : Table ρ κ keys :=
  ⟨t.rows.filter fun r => !p r, t.unique.filter _⟩

theorem mem_delete : a ∈ (t.delete p).rows ↔ a ∈ t.rows ∧ p a = false := by
  simp [delete]

/-- A count that no deleted row enters. -/
theorem count_delete (h : ∀ r ∈ t.rows, q r = true → p r = false) :
    (t.delete p).count q = t.count q := by
  rw [count, delete, List.countP_filter, count]
  refine List.countP_congr fun r hr => ?_
  cases hq : q r with
  | false => simp
  | true => simp [h r hr hq]

theorem eq_of_shared_key (ha : a ∈ t.rows) (hb : b ∈ t.rows) {k : κ} (hka : k ∈ keys a)
    (hkb : k ∈ keys b) : a = b := by
  by_contra hne
  have : Std.Symm fun a b => (keys a).Disjoint (keys b) := ⟨fun _ _ h => List.Disjoint.symm h⟩
  exact t.unique.forall ha hb hne hka hkb

theorem mem_of_find? (h : t.find? p = some r) : r ∈ t.rows ∧ p r = true :=
  ⟨List.mem_of_find?_eq_some h, List.find?_some h⟩

theorem find?_eq_none : t.find? p = none ↔ ∀ r ∈ t.rows, ¬p r = true := by
  simp [find?]

/-- A where-clause that pins a unique key finds the row it selects. -/
theorem find?_eq_some_of_mem (hr : r ∈ t.rows) (hp : p r = true)
    (hkey : ∀ a ∈ t.rows, p a = true → ∃ k ∈ keys a, k ∈ keys r) : t.find? p = some r := by
  cases h : t.find? p with
  | none => exact absurd hp (find?_eq_none.mp h r hr)
  | some a =>
    obtain ⟨ha, hpa⟩ := mem_of_find? h
    obtain ⟨k, hka, hkr⟩ := hkey a ha hpa
    rw [eq_of_shared_key ha hr hka hkr]

section Insert

variable [DecidableEq κ]

theorem insert?_rows (h : t.insert? r = some u) : u.rows = t.rows ++ [r] := by
  unfold insert? at h
  split at h
  · cases h
    rfl
  · cases h

theorem insert?_fresh (h : t.insert? r = some u) (ha : a ∈ t.rows) {k : κ} (hk : k ∈ keys a) :
    k ∉ keys r := by
  unfold insert? at h
  split at h
  · rename_i hfresh
    exact hfresh a ha k hk
  · cases h

theorem insert?_isSome (h : ∀ a ∈ t.rows, ∀ k ∈ keys a, k ∉ keys r) :
    ∃ u, t.insert? r = some u := by
  unfold insert?
  rw [dif_pos h]
  exact ⟨_, rfl⟩

theorem mem_insert? (h : t.insert? r = some u) : a ∈ u.rows ↔ a ∈ t.rows ∨ a = r := by
  rw [insert?_rows h]
  simp

theorem find?_insert? (h : t.insert? r = some u) :
    u.find? p = (t.find? p).or (if p r then some r else none) := by
  unfold find?
  rw [insert?_rows h, List.find?_append]
  by_cases hp : p r = true <;> simp [hp]

theorem insertAll?_rows {rs : List ρ} (h : t.insertAll? rs = some u) :
    u.rows = t.rows ++ rs := by
  unfold insertAll? at h
  induction rs generalizing t with
  | nil =>
    cases h
    simp
  | cons r rs ih =>
    rw [List.foldlM_cons, Option.bind_eq_bind, Option.bind_eq_some_iff] at h
    obtain ⟨v, hv, hu⟩ := h
    rw [ih hu, insert?_rows hv]
    simp

end Insert

section Update

variable {hf : ∀ r, keys (f r) = keys r}

theorem mem_update : a ∈ (t.update p f hf).rows ↔
    ∃ r ∈ t.rows, (if p r then f r else r) = a := by
  simp [update]

/-- A lookup that the rewriting cannot disturb sees the rewritten row. -/
theorem find?_update (hq : ∀ r ∈ t.rows, p r = true → q (f r) = q r) :
    (t.update p f hf).find? q = (t.find? q).map fun r => if p r then f r else r := by
  unfold find? update
  simp only [List.find?_map]
  rw [List.find?_congr]
  intro r hr
  by_cases hp : p r = true
  · simpa [hp] using hq r hr hp
  · simp [hp]

/-- An attribute that the rewriting keeps. -/
theorem map_update {γ : Type} {g : ρ → γ} (hg : ∀ r ∈ t.rows, p r = true → g (f r) = g r) :
    (t.update p f hf).rows.map g = t.rows.map g := by
  rw [update, List.map_map]
  refine List.map_congr_left fun r hr => ?_
  by_cases hp : p r = true
  · simpa [hp] using hg r hr hp
  · simp [hp]

theorem update_eq_self (h : ∀ r ∈ t.rows, ¬p r = true) : t.update p f hf = t := by
  apply ext
  conv_rhs => rw [← List.map_id t.rows]
  apply List.map_congr_left
  intro r hr
  simp [h r hr]

end Update

/-- A where-clause pins a unique key if any two stored rows that it selects share one. -/
def Pins (t : Table ρ κ keys) (p : ρ → Bool) : Prop :=
  ∀ a ∈ t.rows, ∀ b ∈ t.rows, p a = true → p b = true → ∃ k ∈ keys a, k ∈ keys b

theorem eq_of_pins (hp : t.Pins p) (ha : a ∈ t.rows) (hb : b ∈ t.rows) (hpa : p a = true)
    (hpb : p b = true) : a = b := by
  obtain ⟨k, hka, hkb⟩ := hp a ha b hb hpa hpb
  exact eq_of_shared_key ha hb hka hkb

theorem count_of_pins (hpins : t.Pins p) (hr : r ∈ t.rows) (hp : p r = true) : t.count p = 1 := by
  unfold count
  rw [List.countP_eq_length_filter, List.length_eq_one_iff]
  have hsel : ∀ a ∈ t.rows.filter p, a ∈ t.rows ∧ p a = true := fun a => List.mem_filter.mp
  have hdis := t.unique.filter p
  match hl : t.rows.filter p with
  | [] => exact absurd (List.mem_filter.mpr ⟨hr, hp⟩) (by simp [hl])
  | [x] => exact ⟨x, rfl⟩
  | x :: y :: l =>
    rw [hl] at hsel hdis
    obtain ⟨hx, hpx⟩ := hsel x (by simp)
    obtain ⟨hy, hpy⟩ := hsel y (by simp)
    obtain ⟨k, hkx, hky⟩ := hpins x hx y hy hpx hpy
    exact absurd hky ((List.pairwise_cons.mp hdis).1 y (by simp) hkx)

section Rewrite

variable [DecidableEq κ]

/-- Rewrite the rows that a where-clause selects, unless two rows would then share a unique key. -/
def rewrite? (t : Table ρ κ keys) (p : ρ → Bool) (f : ρ → ρ) : Option (Table ρ κ keys) :=
  if h : (t.rows.map fun r => if p r then f r else r).Pairwise
      fun a b => ∀ k ∈ keys a, k ∉ keys b then
    some ⟨_, h⟩
  else none

theorem rewrite?_rows (h : t.rewrite? p f = some u) :
    u.rows = t.rows.map fun r => if p r then f r else r := by
  unfold rewrite? at h
  split at h
  · cases h
    rfl
  · cases h

theorem find?_rewrite? (h : t.rewrite? p f = some u)
    (hq : ∀ r ∈ t.rows, p r = true → q (f r) = q r) :
    u.find? q = (t.find? q).map fun r => if p r then f r else r := by
  unfold find?
  rw [rewrite?_rows h, List.find?_map, List.find?_congr]
  intro r hr
  by_cases hp : p r = true
  · simpa [hp] using hq r hr hp
  · simp [hp]

theorem rewrite?_eq_self (h : t.rewrite? p f = some u) (hnone : ∀ r ∈ t.rows, ¬p r = true) :
    u = t := by
  apply ext
  rw [rewrite?_rows h]
  conv_rhs => rw [← List.map_id t.rows]
  exact List.map_congr_left fun r hr => by simp [hnone r hr]

/-- One row can be rewritten if no other row has one of its new keys. -/
theorem rewrite?_isSome (hpins : t.Pins p) (hfresh : ∀ r ∈ t.rows, ∀ a ∈ t.rows, p r = true →
    p a = false → ∀ k ∈ keys (f r), k ∉ keys a) : ∃ u, t.rewrite? p f = some u := by
  unfold rewrite?
  rw [dif_pos]
  · exact ⟨_, rfl⟩
  · rw [List.pairwise_map]
    refine t.unique.imp_of_mem fun {a b} ha hb hdisjoint => ?_
    cases hpa : p a with
    | false =>
      cases hpb : p b with
      | false => simpa using fun k hka hkb => hdisjoint hka hkb
      | true => simpa using fun k hka hkb => hfresh b hb a ha hpb hpa k hkb hka
    | true =>
      cases hpb : p b with
      | false => simpa using hfresh a ha b hb hpa hpb
      | true =>
        obtain ⟨k, hka, hkb⟩ := hpins a ha b hb hpa hpb
        exact absurd hkb (hdisjoint hka)

end Rewrite

section Replace

variable [DecidableEq κ]

/-- Put a row in the place of the stored row with its keys. -/
def replace (t : Table ρ κ keys) (r r' : ρ) (h : keys r' = keys r) : Table ρ κ keys :=
  t.update (fun a => keys a = keys r) (fun a => if keys a = keys r then r' else a) (by
    intro a
    split <;> simp_all)

theorem mem_replace {r r' : ρ} {h : keys r' = keys r} :
    a ∈ (t.replace r r' h).rows ↔
      ∃ b ∈ t.rows, (if keys b = keys r then r' else b) = a := by
  unfold replace
  rw [mem_update]
  refine exists_congr fun b => and_congr_right fun _ => ?_
  by_cases hb : keys b = keys r <;> simp [hb]

theorem mem_replace_self {r' : ρ} (h : keys r' = keys r) (hr : r ∈ t.rows) :
    r' ∈ (t.replace r r' h).rows :=
  mem_replace.mpr ⟨r, hr, if_pos rfl⟩

/-- The rows after a replacement: the new row, and the others as they were. -/
theorem mem_replace_iff {r' : ρ} (h : keys r' = keys r) (hr : r ∈ t.rows) (hne : keys r ≠ []) :
    a ∈ (t.replace r r' h).rows ↔ a = r' ∨ (a ∈ t.rows ∧ a ≠ r) := by
  rw [mem_replace]
  obtain ⟨k, hk⟩ := List.exists_mem_of_ne_nil _ hne
  have hkeys : ∀ b ∈ t.rows, keys b = keys r → b = r := fun b hb he =>
    eq_of_shared_key hb hr (he ▸ hk) hk
  constructor
  · rintro ⟨b, hb, rfl⟩
    by_cases he : keys b = keys r
    · exact .inl (if_pos he)
    · exact .inr ⟨by simpa [he] using hb, by rw [if_neg he]; rintro rfl; exact he rfl⟩
  · rintro (rfl | ⟨ha, hne⟩)
    · exact ⟨r, hr, if_pos rfl⟩
    · exact ⟨a, ha, if_neg fun he => hne (hkeys a ha he)⟩

theorem map_replace {γ : Type} {g : ρ → γ} {r' : ρ} {h : keys r' = keys r} (hr : r ∈ t.rows)
    (hne : keys r ≠ []) (hg : g r' = g r) : (t.replace r r' h).rows.map g = t.rows.map g := by
  obtain ⟨k, hk⟩ := List.exists_mem_of_ne_nil _ hne
  refine map_update fun a ha hka => ?_
  have he : keys a = keys r := by simpa using hka
  rw [if_pos he, eq_of_shared_key ha hr (he ▸ hk) hk, hg]

/-- A replacement that selects no more than the old row selects no more rows. -/
theorem count_replace_le {r' : ρ} (h : keys r' = keys r) (hr : r ∈ t.rows) (hne : keys r ≠ [])
    (hp : p r' = true → p r = true) : (t.replace r r' h).count p ≤ t.count p := by
  obtain ⟨k, hk⟩ := List.exists_mem_of_ne_nil _ hne
  rw [count, count, replace, update, List.countP_map]
  refine List.countP_mono_left fun a ha hpa => ?_
  by_cases he : keys a = keys r
  · have : a = r := eq_of_shared_key ha hr (he ▸ hk) hk
    subst this
    exact hp (by simpa using hpa)
  · simpa [he] using hpa

theorem replace_replace {r' r'' : ρ} {h : keys r' = keys r} {h' : keys r'' = keys r'} :
    (t.replace r r' h).replace r' r'' h' = t.replace r r'' (h'.trans h) := by
  apply ext
  simp only [replace, update, List.map_map]
  refine List.map_congr_left fun a _ => ?_
  by_cases ha : keys a = keys r <;> simp [ha, h]

theorem replace_self {h : keys r = keys r} (hr : r ∈ t.rows) (hne : keys r ≠ []) :
    t.replace r r h = t := by
  apply ext
  conv_rhs => rw [← List.map_id t.rows]
  obtain ⟨k, hk⟩ := List.exists_mem_of_ne_nil _ hne
  refine List.map_congr_left fun a ha => ?_
  by_cases he : keys a = keys r
  · simp [eq_of_shared_key ha hr (he ▸ hk) hk]
  · simp [he]

theorem find?_replace {r' : ρ} {h : keys r' = keys r}
    (hq : ∀ a ∈ t.rows, keys a = keys r → q r' = q a) :
    (t.replace r r' h).find? q =
      (t.find? q).map fun a => if keys a = keys r then r' else a := by
  unfold replace
  rw [find?_update]
  · congr 1
    funext a
    by_cases ha : keys a = keys r <;> simp [ha]
  · intro a ha hka
    have he : keys a = keys r := by simpa using hka
    simpa [he] using hq a ha he

/-- An update whose where-clause pins a key rewrites no row, or exactly the one it finds. -/
theorem update_cases (hf : ∀ r, keys (f r) = keys r) (hpins : t.Pins p) :
    (t.find? p = none ∧ t.count p = 0 ∧ t.update p f hf = t) ∨
      ∃ r ∈ t.rows, p r = true ∧ t.find? p = some r ∧ t.count p = 1 ∧
        t.update p f hf = t.replace r (f r) (hf r) := by
  cases h : t.find? p with
  | none =>
    have hnone := find?_eq_none.mp h
    exact .inl ⟨rfl, List.countP_eq_zero.mpr hnone, update_eq_self hnone⟩
  | some r =>
    obtain ⟨hr, hp⟩ := mem_of_find? h
    refine .inr ⟨r, hr, hp, rfl, count_of_pins hpins hr hp, ?_⟩
    apply ext
    refine List.map_congr_left fun a ha => ?_
    obtain ⟨k, hk, -⟩ := hpins r hr r hr hp hp
    by_cases hpa : p a = true
    · rw [eq_of_pins hpins ha hr hpa hp]
      simp [hp]
    · have hne : keys a ≠ keys r := by
        intro he
        exact hpa (eq_of_shared_key ha hr (he ▸ hk) hk ▸ hp)
      simp [hpa, hne]

theorem update_eq_replace {hf : ∀ r, keys (f r) = keys r} (hpins : t.Pins p) (hr : r ∈ t.rows)
    (hp : p r = true) : t.update p f hf = t.replace r (f r) (hf r) := by
  obtain ⟨hnone, -, -⟩ | ⟨a, ha, hpa, -, -, hupd⟩ := update_cases hf hpins
  · exact absurd hp (find?_eq_none.mp hnone r hr)
  · rw [hupd]
    cases eq_of_pins hpins ha hr hpa hp
    rfl

end Replace

end Table

end Base
