import Mathlib

/-! Byte strings behind their lengths, or a mark for an absent one, written one after the other. -/
namespace Base

def bigEndian32 (n : Nat) : List UInt8 :=
  [UInt8.ofNat (n / 2 ^ 24), UInt8.ofNat (n / 2 ^ 16), UInt8.ofNat (n / 2 ^ 8), UInt8.ofNat n]

/-- The length that marks an absent value. -/
def absentMark : Nat := 0xFFFFFFFF

def frame : Option (List UInt8) → List UInt8
  | none => bigEndian32 absentMark
  | some bytes => bigEndian32 bytes.length ++ bytes

/-- The value is absent, or its length is below the mark. -/
def Framable (value : Option (List UInt8)) : Prop := ∀ bytes ∈ value, bytes.length < absentMark

variable {m n : Nat} {v w : Option (List UInt8)} {vs ws : List (Option (List UInt8))}
  {r r' : List UInt8}

theorem bigEndian32_inj (hm : m < 2 ^ 32) (hn : n < 2 ^ 32)
    (h : bigEndian32 m = bigEndian32 n) : m = n := by
  have hbyte : ∀ {a b : Nat}, UInt8.ofNat a = UInt8.ofNat b → a % 256 = b % 256 := fun h => by
    simpa using congrArg UInt8.toNat h
  simp only [bigEndian32, List.cons.injEq, and_true] at h
  obtain ⟨h3, h2, h1, h0⟩ := h
  have := hbyte h3
  have := hbyte h2
  have := hbyte h1
  have := hbyte h0
  omega

theorem Framable.lt (h : Framable v) : (v.elim absentMark List.length) < 2 ^ 32 := by
  cases v with
  | none => decide
  | some bytes => exact Nat.lt_trans (h bytes rfl) (by decide)

theorem frame_eq (v : Option (List UInt8)) :
    frame v = bigEndian32 (v.elim absentMark List.length) ++ v.getD [] := by
  cases v <;> simp [frame]

/-- The first frame can be read off the front. -/
theorem frame_append_inj (hv : Framable v) (hw : Framable w)
    (h : frame v ++ r = frame w ++ r') : v = w ∧ r = r' := by
  rw [frame_eq, frame_eq, List.append_assoc, List.append_assoc] at h
  obtain ⟨hmark, hrest⟩ := List.append_inj h rfl
  have hlength := bigEndian32_inj hv.lt hw.lt hmark
  cases v with
  | none =>
    cases w with
    | none => exact ⟨rfl, hrest⟩
    | some bytes => exact absurd hlength.symm (Nat.ne_of_lt (hw bytes rfl))
  | some bytes =>
    cases w with
    | none => exact absurd hlength (Nat.ne_of_lt (hv bytes rfl))
    | some bytes' =>
      obtain ⟨rfl, rfl⟩ := List.append_inj hrest hlength
      exact ⟨rfl, rfl⟩

/-- A known number of frames can be read off the front. -/
theorem frames_append_inj (hlength : vs.length = ws.length) (hvs : ∀ v ∈ vs, Framable v)
    (hws : ∀ w ∈ ws, Framable w) (h : vs.flatMap frame ++ r = ws.flatMap frame ++ r') :
    vs = ws ∧ r = r' := by
  induction vs generalizing ws with
  | nil =>
    obtain rfl := List.length_eq_zero_iff.mp hlength.symm
    exact ⟨rfl, h⟩
  | cons v vs ih =>
    cases ws with
    | nil => cases hlength
    | cons w ws =>
      rw [List.flatMap_cons, List.flatMap_cons, List.append_assoc, List.append_assoc] at h
      obtain ⟨rfl, htail⟩ := frame_append_inj (hvs v (by simp)) (hws w (by simp)) h
      obtain ⟨rfl, hr⟩ := ih (Nat.succ.inj hlength) (fun x hx => hvs x (by simp [hx]))
        (fun x hx => hws x (by simp [hx])) htail
      exact ⟨rfl, hr⟩

end Base
