import MultiClaw.Base.JsonDump

/-! Texts of JSON values as lists of code points, in any style of writing them. -/
namespace Base

/-- The code points of a string. -/
def PyStr.points : PyStr → List Nat
  | text s => s.toList.map Char.toNat
  | lone points => points

def codePoints (s : String) : List Nat := (PyStr.text s).points

end Base
