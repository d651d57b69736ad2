import MultiClaw.Base.Lists

/-! Locks with owners, lock tables that count the users of each entry, and wait cycles. -/
namespace Base

variable {ι κ ν : Type} {i j : ι} {l : ν}

section Owners

variable {owner : ν → Option ι} {held : ι → List ν} {locks : List ν}

/-- A lock belongs to the process that holds it. -/
def Owned (owner : ν → Option ι) (held : ι → List ν) : Prop :=
  ∀ l i, owner l = some i ↔ l ∈ held i

theorem Owned.eq_of_mem (h : Owned owner held) (hi : l ∈ held i) (hj : l ∈ held j) : i = j :=
  Option.some.inj (((h l i).mpr hi).symm.trans ((h l j).mpr hj))

variable [DecidableEq ι]

theorem Owned.keep (h : Owned owner held) (hlocks : ∀ m, m ∈ locks ↔ m ∈ held i) :
    Owned owner (Function.update held i locks) := by
  intro m j
  by_cases hj : j = i
  · subst hj
    rw [Function.update_self, hlocks, h]
  · rw [Function.update_of_ne hj, h]

variable [DecidableEq ν]

theorem Owned.take (h : Owned owner held) (hfree : owner l = none)
    (hlocks : ∀ m, m ∈ locks ↔ m = l ∨ m ∈ held i) :
    Owned (Function.update owner l (some i)) (Function.update held i locks) := by
  intro m j
  by_cases hj : j = i <;> by_cases hm : m = l
  · subst hj hm
    simp [hlocks]
  · subst hj
    simp [hlocks, hm, h m j]
  · subst hm
    have hnot : m ∉ held j := by simp [← h m j, hfree]
    simp [Function.update_of_ne hj, hnot, Ne.symm hj]
  · simp [Function.update_of_ne hj, Function.update_of_ne hm, h m j]

theorem Owned.release (h : Owned owner held) (hl : l ∈ held i)
    (hlocks : ∀ m, m ∈ locks ↔ m ∈ held i ∧ m ≠ l) :
    Owned (Function.update owner l none) (Function.update held i locks) := by
  intro m j
  by_cases hj : j = i <;> by_cases hm : m = l
  · subst hj hm
    simp [hlocks]
  · subst hj
    simp [hlocks, hm, h m j]
  · subst hm
    have hnot : m ∉ held j := fun hmem => hj (h.eq_of_mem hmem hl)
    simp [Function.update_of_ne hj, hnot]
  · simp [Function.update_of_ne hj, Function.update_of_ne hm, h m j]

end Owners

/-- Entries that are made for a key when it is first used, and dropped with their last user. -/
structure RefTable (κ : Type) where
  entries : κ → Option Nat
  users : Nat → Nat
  nextEntry : Nat

namespace RefTable

variable {k k' : κ} {e : Nat}

def empty : RefTable κ := ⟨fun _ => none, fun _ => 0, 0⟩

/-- The entry of a key, or the number of a new one. -/
def entry (t : RefTable κ) (k : κ) : Nat := (t.entries k).getD t.nextEntry

/-- The entries in use are those of the table, and their users are counted. -/
structure Counts {n : Nat} (t : RefTable κ) (uses : Fin n → List (κ × Nat)) : Prop where
  users_eq : ∀ e, t.users e = ∑ i, (uses i).countP (·.2 == e)
  entry_of_use : ∀ i k e, (k, e) ∈ uses i → t.entries k = some e
  entries_inj : ∀ k k' e, t.entries k = some e → t.entries k' = some e → k = k'
  entries_lt : ∀ k e, t.entries k = some e → e < t.nextEntry

variable {n : Nat} {t : RefTable κ} {uses : Fin n → List (κ × Nat)} {i : Fin n}
  {use : List (κ × Nat)}

theorem counts_empty (h : ∀ i, uses i = []) : (empty : RefTable κ).Counts uses where
  users_eq e := by simp [h, empty]
  entry_of_use i k e hmem := by simp [h] at hmem
  entries_inj k k' e hk := by cases hk
  entries_lt k e hk := by cases hk

theorem Counts.keep (h : t.Counts uses) (huse : use.Perm (uses i)) :
    t.Counts (Function.update uses i use) where
  users_eq e := by
    have hsum := sum_update (·.countP (·.2 == e)) uses i use
    have hcount : use.countP (·.2 == e) = (uses i).countP (·.2 == e) := huse.countP_eq _
    have := h.users_eq e
    omega
  entry_of_use j k e hmem := by
    by_cases hj : j = i
    · subst hj
      rw [Function.update_self, huse.mem_iff] at hmem
      exact h.entry_of_use j k e hmem
    · rw [Function.update_of_ne hj] at hmem
      exact h.entry_of_use j k e hmem
  entries_inj := h.entries_inj
  entries_lt := h.entries_lt

theorem Counts.entry_lt_of_none (h : t.Counts uses) (hk : t.entries k = none) (hk' : t.entries k' =
    some e) : e ≠ t.entry k := by
  have := h.entries_lt k' e hk'
  simp [entry, hk]
  omega

variable [DecidableEq κ]

/-- Become a user of the entry of a key. -/
def retain (t : RefTable κ) (k : κ) : RefTable κ :=
  { entries := Function.update t.entries k (some (t.entry k))
    users := Function.update t.users (t.entry k) (t.users (t.entry k) + 1)
    nextEntry := if t.entries k = none then t.nextEntry + 1 else t.nextEntry }

/-- Stop using an entry. -/
def drop (t : RefTable κ) (k : κ) (e : Nat) : RefTable κ :=
  let users := Function.update t.users e (t.users e - 1)
  { t with
    users
    entries := if t.entries k = some e ∧ users e = 0 then Function.update t.entries k none
      else t.entries }

theorem Counts.retain (h : t.Counts uses) (huse : use.Perm ((k, t.entry k) :: uses i)) :
    (t.retain k).Counts (Function.update uses i use) := by
  have hentry : ∀ k', k' ≠ k → ∀ e, t.entries k' = some e → e ≠ t.entry k := by
    intro k' hne e hk' he
    cases hk : t.entries k with
    | none => exact h.entry_lt_of_none hk hk' he
    | some e' =>
      rw [entry, hk, Option.getD_some] at he
      exact hne (h.entries_inj k' k e hk' (by rw [hk, he]))
  have hold : ∀ k' e, t.entries k' = some e → (t.retain k).entries k' = some e := by
    intro k' e hk'
    by_cases hkk : k' = k
    · subst hkk
      simp [RefTable.retain, entry, hk']
    · simp [RefTable.retain, Function.update_of_ne hkk, hk']
  constructor
  · intro e
    have hsum := sum_update (·.countP (·.2 == e)) uses i use
    have hcount : use.countP (·.2 == e) = (uses i).countP (·.2 == e) +
        if t.entry k = e then 1 else 0 := by
      rw [huse.countP_eq, List.countP_cons]
      simp
    have husers := h.users_eq e
    by_cases he : t.entry k = e
    · subst he
      simp only [RefTable.retain, Function.update_self]
      rw [if_pos rfl] at hcount
      omega
    · simp only [RefTable.retain, Function.update_of_ne (Ne.symm he)]
      rw [if_neg he] at hcount
      omega
  · intro j k' e hmem
    by_cases hj : j = i
    · subst hj
      rw [Function.update_self, huse.mem_iff, List.mem_cons] at hmem
      obtain heq | hmem := hmem
      · cases heq
        simp [RefTable.retain]
      · exact hold k' e (h.entry_of_use j k' e hmem)
    · rw [Function.update_of_ne hj] at hmem
      exact hold k' e (h.entry_of_use j k' e hmem)
  · intro a b e ha hb
    by_cases hak : a = k <;> by_cases hbk : b = k
    · rw [hak, hbk]
    · subst hak
      simp only [RefTable.retain, Function.update_self, Function.update_of_ne hbk,
        Option.some.injEq] at ha hb
      exact absurd ha.symm (hentry b hbk e hb)
    · subst hbk
      simp only [RefTable.retain, Function.update_self, Function.update_of_ne hak,
        Option.some.injEq] at ha hb
      exact absurd hb.symm (hentry a hak e ha)
    · simp only [RefTable.retain, Function.update_of_ne hak, Function.update_of_ne hbk] at ha hb
      exact h.entries_inj a b e ha hb
  · intro k' e hk'
    by_cases hkk : k' = k
    · subst hkk
      simp only [RefTable.retain, Function.update_self, Option.some.injEq] at hk' ⊢
      subst hk'
      cases hk : t.entries k' with
      | none => simp [entry, hk]
      | some e => simpa [entry, hk] using h.entries_lt k' e hk
    · simp only [RefTable.retain, Function.update_of_ne hkk] at hk' ⊢
      have := h.entries_lt k' e hk'
      split_ifs <;> omega

theorem Counts.drop (h : t.Counts uses) (huse : (uses i).Perm ((k, e) :: use)) :
    (t.drop k e).Counts (Function.update uses i use) := by
  have hk : t.entries k = some e := h.entry_of_use i k e (huse.mem_iff.mpr (by simp))
  have hsum : ∀ e', (∑ j, (Function.update uses i use j).countP (·.2 == e')) +
      (if e = e' then 1 else 0) = t.users e' := by
    intro e'
    have hupdate := sum_update (·.countP (·.2 == e')) uses i use
    have hcount : (uses i).countP (·.2 == e') = use.countP (·.2 == e') +
        if e = e' then 1 else 0 := by
      rw [huse.countP_eq, List.countP_cons]
      simp
    have := h.users_eq e'
    omega
  have husers : ∀ e', (t.drop k e).users e' =
      ∑ j, (Function.update uses i use j).countP (·.2 == e') := by
    intro e'
    have := hsum e'
    by_cases he : e' = e
    · subst he
      simp only [RefTable.drop, Function.update_self]
      rw [if_pos rfl] at this
      omega
    · simp only [RefTable.drop, Function.update_of_ne he]
      rw [if_neg (Ne.symm he)] at this
      omega
  have hsub : ∀ k' e', (t.drop k e).entries k' = some e' → t.entries k' = some e' := by
    intro k' e' hk'
    simp only [RefTable.drop] at hk'
    split_ifs at hk' with hlast
    · by_cases hkk : k' = k
      · subst hkk
        simp at hk'
      · rwa [Function.update_of_ne hkk] at hk'
    · exact hk'
  refine ⟨husers, ?_, fun a b e' ha hb => h.entries_inj a b e' (hsub a e' ha) (hsub b e' hb),
    fun k' e' hk' => h.entries_lt k' e' (hsub k' e' hk')⟩
  intro j k' e' hmem
  have hused : t.entries k' = some e' := by
    by_cases hj : j = i
    · subst hj
      rw [Function.update_self] at hmem
      exact h.entry_of_use j k' e' (huse.mem_iff.mpr (List.mem_cons_of_mem _ hmem))
    · rw [Function.update_of_ne hj] at hmem
      exact h.entry_of_use j k' e' hmem
  -- an entry that is still used has a user left, so it is not the one that is dropped
  have hpos : 0 < (t.drop k e).users e' := by
    rw [husers]
    refine lt_of_lt_of_le ?_ (Finset.single_le_sum (fun _ _ => Nat.zero_le _) (Finset.mem_univ j))
    exact List.countP_pos_iff.mpr ⟨(k', e'), hmem, by simp⟩
  simp only [RefTable.drop] at hpos ⊢
  split_ifs with hlast
  · by_cases hkk : k' = k
    · subst hkk
      rw [hk] at hused
      cases hused
      omega
    · rw [Function.update_of_ne hkk]
      exact hused
  · exact hused

end RefTable

theorem nodup_update {n : Nat} {i : Fin n} {locks : Fin n → List ν} {held : List ν}
    (h : ∀ j, (locks j).Nodup) (hheld : held.Nodup) (j : Fin n) :
    (Function.update locks i held j).Nodup := by
  by_cases hj : j = i
  · subst hj
    simpa using hheld
  · simpa [Function.update_of_ne hj] using h j

/-- What one process sees of the locks: their owners, the table, what it holds and what it uses. -/
structure LockView (ν κ ι : Type) where
  owner : ν → Option ι
  table : RefTable κ
  locks : List ν
  uses : List (κ × Nat)

section Moves

variable [DecidableEq ν] [DecidableEq κ] {n : Nat} {i : Fin n}

/-- What one process does to the locks in one step. -/
inductive LockMoves [DecidableEq ι] (i : ι) : LockView ν κ ι → LockView ν κ ι → Prop where
  | take {o : ν → Option ι} {t : RefTable κ} {locks : List ν} {uses : List (κ × Nat)} {l : ν}
      (hfree : o l = none) :
      LockMoves i ⟨o, t, locks, uses⟩ ⟨Function.update o l (some i), t, l :: locks, uses⟩
  | release {o : ν → Option ι} {t : RefTable κ} {locks : List ν} {uses : List (κ × Nat)} {l : ν} :
      LockMoves i ⟨o, t, l :: locks, uses⟩ ⟨Function.update o l none, t, locks, uses⟩
  | retain {o : ν → Option ι} {t : RefTable κ} {locks : List ν} {uses : List (κ × Nat)} {k : κ} :
      LockMoves i ⟨o, t, locks, uses⟩ ⟨o, t.retain k, locks, (k, t.entry k) :: uses⟩
  | drop {o : ν → Option ι} {t : RefTable κ} {locks : List ν} {uses : List (κ × Nat)} {k : κ}
      {e : Nat} : LockMoves i ⟨o, t, locks, (k, e) :: uses⟩ ⟨o, t.drop k e, locks, uses⟩
  | perm {o : ν → Option ι} {t : RefTable κ} {locks locks' : List ν} {uses uses' : List (κ × Nat)}
      (hlocks : locks.Perm locks') (huses : uses.Perm uses') :
      LockMoves i ⟨o, t, locks, uses⟩ ⟨o, t, locks', uses'⟩
  | trans {v v' v'' : LockView ν κ ι} (h : LockMoves i v v') (h' : LockMoves i v' v'') :
      LockMoves i v v''

theorem LockMoves.refl [DecidableEq ι] {i : ι} {v : LockView ν κ ι} : LockMoves i v v :=
  .perm (.refl _) (.refl _)

/-- What else the process holds and uses does not matter. -/
theorem LockMoves.frame [DecidableEq ι] {i : ι} {v v' : LockView ν κ ι} (h : LockMoves i v v')
    (locks : List ν) (uses : List (κ × Nat)) :
    LockMoves i ⟨v.owner, v.table, locks ++ v.locks, uses ++ v.uses⟩
      ⟨v'.owner, v'.table, locks ++ v'.locks, uses ++ v'.uses⟩ := by
  induction h with
  | take hfree => exact .trans (.take hfree) (.perm List.perm_middle.symm (.refl _))
  | release => exact .trans (.perm List.perm_middle (.refl _)) .release
  | retain => exact .trans .retain (.perm (.refl _) List.perm_middle.symm)
  | drop => exact .trans (.perm (.refl _) List.perm_middle) .drop
  | perm hlocks huses => exact .perm (hlocks.append_left _) (huses.append_left _)
  | trans _ _ ih ih' => exact .trans ih ih'

/-- Owners and counts agree with what the processes hold and use. -/
structure LocksAgree (owner : ν → Option (Fin n)) (table : RefTable κ) (locks : Fin n → List ν)
    (uses : Fin n → List (κ × Nat)) : Prop where
  owned : Owned owner locks
  nodup : ∀ i, (locks i).Nodup
  counts : table.Counts uses

variable {locks : Fin n → List ν} {uses : Fin n → List (κ × Nat)}

theorem LocksAgree.moves {v v' : LockView ν κ (Fin n)} (hm : LockMoves i v v')
    (h : LocksAgree v.owner v.table locks uses) (hlocks : locks i = v.locks)
    (huses : uses i = v.uses) :
    LocksAgree v'.owner v'.table (Function.update locks i v'.locks)
      (Function.update uses i v'.uses) := by
  induction hm generalizing locks uses with
  | @take o t held used l hfree =>
    simp only at hlocks
    have hnot : l ∉ held := by
      intro hmem
      have := (h.owned l i).mpr (hlocks ▸ hmem)
      simp [hfree] at this
    exact ⟨h.owned.take hfree (by simp [hlocks]),
      nodup_update h.nodup (List.nodup_cons.mpr ⟨hnot, hlocks ▸ h.nodup i⟩),
      h.counts.keep (huses ▸ .refl _)⟩
  | @release o t held used l =>
    have hnodup := h.nodup i
    simp only at hlocks
    rw [hlocks, List.nodup_cons] at hnodup
    refine ⟨h.owned.release (by simp [hlocks]) fun m => ?_, nodup_update h.nodup hnodup.2,
      h.counts.keep (huses ▸ .refl _)⟩
    rw [hlocks, List.mem_cons]
    constructor
    · intro hm
      exact ⟨.inr hm, by rintro rfl; exact hnodup.1 hm⟩
    · rintro ⟨rfl | hm, hne⟩
      · exact absurd rfl hne
      · exact hm
  | retain =>
    exact ⟨h.owned.keep (by simp [hlocks]), nodup_update h.nodup (hlocks ▸ h.nodup i),
      h.counts.retain (by simp [huses])⟩
  | drop =>
    exact ⟨h.owned.keep (by simp [hlocks]), nodup_update h.nodup (hlocks ▸ h.nodup i),
      h.counts.drop (by simp [huses])⟩
  | perm hl hu =>
    simp only at hlocks huses
    exact ⟨h.owned.keep fun m => by rw [hlocks, hl.mem_iff],
      nodup_update h.nodup (hl.nodup_iff.mp (hlocks ▸ h.nodup i)),
      h.counts.keep (huses ▸ hu.symm)⟩
  | trans _ _ ih ih' =>
    have hfirst := ih h hlocks huses
    simpa using ih' hfirst (by simp) (by simp)

end Moves

/-- Nobody in a finite set of processes waits for another one of the set forever, if a process that
is waited for and waits itself always ranks higher. -/
theorem no_wait_cycle {waitsFor : ι → ι → Prop} (rank : ι → Nat)
    (h : ∀ i j k, waitsFor i j → waitsFor j k → rank i < rank j) (s : Finset ι)
    (hs : s.Nonempty) : ¬∀ i ∈ s, ∃ j ∈ s, waitsFor i j := by
  intro hwait
  obtain ⟨i, hi, hmax⟩ := s.exists_max_image rank hs
  obtain ⟨j, hj, hij⟩ := hwait i hi
  obtain ⟨k, -, hjk⟩ := hwait j hj
  exact absurd (h i j k hij hjk) (not_lt.mpr (hmax j hj))

end Base
