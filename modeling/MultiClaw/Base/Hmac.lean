import MultiClaw.Base.Sha256

/-! Keyed digests: HMAC over SHA-256. -/
namespace Base.Sha256

def bytesOfWord (w : Word) : List UInt8 :=
  [(w >>> 24).toUInt8, (w >>> 16).toUInt8, (w >>> 8).toUInt8, w.toUInt8]

/-- The digest as bytes. -/
def digest (bytes : List UInt8) : List UInt8 :=
  let ws := words (bytes ++ padding bytes.length)
  let s := blocks (ws.length / 16) ws initial
  [s.a, s.b, s.c, s.d, s.e, s.f, s.g, s.h].flatMap bytesOfWord

/-- A key as long as a block: hashed if it is longer, and filled up with zeros. -/
def blockKey (key : List UInt8) : List UInt8 :=
  let short := if 64 < key.length then digest key else key
  short ++ List.replicate (64 - short.length) 0

/-- The message of the outer hash. -/
def hmacMessage (key message : List UInt8) : List UInt8 :=
  (blockKey key).map (· ^^^ 0x5c) ++ digest ((blockKey key).map (· ^^^ 0x36) ++ message)

def hmac (key message : List UInt8) : List UInt8 := digest (hmacMessage key message)

def hmacHexdigest (key message : List UInt8) : String := hexdigest (hmacMessage key message)

theorem hexDigit_mem (n : Nat) : hexDigit n ∈ "0123456789abcdef".toList := by
  by_cases h : n < 16
  · revert n
    decide
  · have hlength : "0123456789abcdef".toList.length ≤ n := by
      rw [show "0123456789abcdef".toList.length = 16 from by decide]
      omega
    rw [hexDigit, List.getD_eq_getElem?_getD, List.getElem?_eq_none hlength]
    decide

theorem mem_hexdigest {bytes : List UInt8} {c : Char} (h : c ∈ (hexdigest bytes).toList) :
    c ∈ "0123456789abcdef".toList := by
  rw [hexdigest, String.toList_ofList, List.mem_flatMap] at h
  obtain ⟨w, -, hc⟩ := h
  obtain ⟨i, -, rfl⟩ := List.mem_map.mp hc
  exact hexDigit_mem _

end Base.Sha256
