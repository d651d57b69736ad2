import Mathlib

/-! IEEE 754 double precision numbers, read from decimals and printed with the fewest digits. -/
namespace Base

/-- A finite double is `mantissa * 2 ^ exponent`, with at most 53 bits of mantissa. -/
inductive Double where
  | finite (negative : Bool) (mantissa : Nat) (exponent : Int)
  | infinity (negative : Bool)
  | nan
  deriving DecidableEq, Repr

namespace Double

/-- `num / den` to the nearest integer, a tie to the even one. -/
def roundHalfEven (num den : Nat) : Nat :=
  let q := num / den
  let twice := 2 * (num % den)
  if den < twice || (twice == den && q % 2 == 1) then q + 1 else q

/-- Scale `num / den` by a power of `b`. -/
def scale (b : Nat) (num den : Nat) (e : Int) : Nat × Nat :=
  if 0 ≤ e then (num * b ^ e.toNat, den) else (num, den * b ^ (-e).toNat)

/-- The largest `e` with `b ^ e ≤ num / den`. -/
def floorLog (b num den : Nat) : Int :=
  let guess : Int := Nat.log b num - Nat.log b den
  let (n, d) := scale b num den (-guess)
  if d ≤ n then guess else guess - 1

/-- The double nearest to `num / den`. -/
def ofRatio (negative : Bool) (num den : Nat) : Double :=
  if num = 0 then finite negative 0 0 else
    let e := max (floorLog 2 num den - 52) (-1074)
    let (n, d) := scale 2 num den (-e)
    let m := roundHalfEven n d
    let (m, e) := if m = 2 ^ 53 then (2 ^ 52, e + 1) else (m, e)
    if 971 < e then infinity negative else finite negative m e

def ofDecimal (negative : Bool) (digits : Nat) (exponent : Int) : Double :=
  let (n, d) := scale 10 digits 1 exponent
  ofRatio negative n d

/-- The candidates with `count` significant digits around `num / den`, the nearer one first. -/
def candidates (num den count : Nat) (log10 : Int) : List (Nat × Int) :=
  let e := log10 - (count : Int) + 1
  let (n, d) := scale 10 num den (-e)
  let low := n / d
  if 2 * (n % d) ≤ d then [(low, e), (low + 1, e)] else [(low + 1, e), (low, e)]

/-- The shortest decimal that reads back as the double, searched up to seventeen digits. -/
def shortest (x : Double) (num den : Nat) : Nat × Int :=
  let log10 := floorLog 10 num den
  let back := fun c : Nat × Int => ofDecimal false c.1 c.2 == x
  let found := (List.range 17).findSome? fun i => (candidates num den (i + 1) log10).find? back
  found.getD (num, 0)

def dropTrailingZeros : Nat → Nat → Int → Nat × Int
  | 0, digits, e => (digits, e)
  | fuel + 1, digits, e =>
    if digits % 10 = 0 ∧ digits ≠ 0 then dropTrailingZeros fuel (digits / 10) (e + 1)
    else (digits, e)

/-- The digits of a decimal placed around its point, or in exponent form far from it. -/
def placePoint (digits : List Char) (point : Int) : List Char :=
  if -4 < point ∧ point ≤ 16 then
    if point ≤ 0 then '0' :: '.' :: List.replicate (-point).toNat '0' ++ digits
    else if digits.length ≤ point.toNat then
      digits ++ List.replicate (point.toNat - digits.length) '0' ++ ['.', '0']
    else digits.take point.toNat ++ '.' :: digits.drop point.toNat
  else
    let e := point - 1
    let text := (toString e.natAbs).toList
    let padded := if text.length < 2 then '0' :: text else text
    let head := match digits with
      | [] => []
      | [c] => [c]
      | c :: rest => c :: '.' :: rest
    head ++ 'e' :: (if e < 0 then '-' else '+') :: padded

/-- The text of `repr`, for the doubles that JSON can carry. -/
def repr : Double → Option (List Char)
  | finite negative mantissa exponent =>
    let sign := if negative then ['-'] else []
    if mantissa = 0 then some (sign ++ ['0', '.', '0']) else
      let (num, den) := scale 2 mantissa 1 exponent
      let (digits, e) := shortest (finite false mantissa exponent) num den
      let (digits, e) := dropTrailingZeros 17 digits e
      let text := (toString digits).toList
      some (sign ++ placePoint text (e + text.length))
  | infinity _ => none
  | nan => none

/-- The mantissa has 53 bits, or fewer at the least exponent. -/
def isDouble : Double → Bool
  | finite _ mantissa exponent =>
    mantissa == 0 && exponent == 0 ||
      0 < mantissa && mantissa < 2 ^ 53 && -1074 ≤ exponent && exponent ≤ 971 &&
        (2 ^ 52 ≤ mantissa || exponent == -1074)
  | _ => true

/-- Equality with the integer one, as a dynamically typed comparison makes it. -/
def isOne (x : Double) : Bool := x == finite false (2 ^ 52) (-52)

end Double

end Base
