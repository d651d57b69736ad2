import MultiClaw.Base.Double

/-! JSON values as a dynamic language reads and prints them: `loads` and compact `dumps`. -/
namespace Base

/-- A string: Unicode text, or code points among which a surrogate is left unpaired. -/
inductive PyStr where
  | text (s : String)
  | lone (codePoints : List Nat)
  deriving DecidableEq, Repr

inductive Json where
  | null
  | bool (b : Bool)
  | int (n : Int)
  | float (x : Double)
  | str (s : PyStr)
  | arr (items : List Json)
  | obj (members : List (PyStr × Json))
  deriving Repr

namespace Json

/-- A JSON text is refused as malformed, for an integer literal that is too long, or for nesting
beyond the recursion limit. -/
inductive LoadsError where
  | malformed
  | intTooLong
  | recursion
  | outOfFuel
  deriving DecidableEq, Repr

abbrev Parser (α : Type) := Except LoadsError (α × List Char)

def maxIntDigits : Nat := 4300

def isWhitespace (c : Char) : Bool := c == ' ' || c == '\t' || c == '\n' || c == '\r'

def skipWhitespace : List Char → List Char
  | c :: cs => if isWhitespace c then skipWhitespace cs else c :: cs
  | [] => []

/-! Strings -/

def hexValue (c : Char) : Option Nat :=
  if '0' ≤ c ∧ c ≤ '9' then some (c.toNat - '0'.toNat)
  else if 'a' ≤ c ∧ c ≤ 'f' then some (c.toNat - 'a'.toNat + 10)
  else if 'A' ≤ c ∧ c ≤ 'F' then some (c.toNat - 'A'.toNat + 10)
  else none

def hex4 (a b c d : Char) : Option Nat :=
  match hexValue a, hexValue b, hexValue c, hexValue d with
  | some a, some b, some c, some d => some (((a * 16 + b) * 16 + c) * 16 + d)
  | _, _, _, _ => none

def simpleEscape : Char → Option Nat
  | '"' => some '"'.toNat
  | '\\' => some '\\'.toNat
  | '/' => some '/'.toNat
  | 'b' => some 8
  | 'f' => some 12
  | 'n' => some 10
  | 'r' => some 13
  | 't' => some 9
  | _ => none

/-- The code units of a string literal after its opening quote, and the text behind it. -/
def scanString : List Char → Parser (List Nat)
  | [] => .error .malformed
  | '"' :: rest => .ok ([], rest)
  | '\\' :: 'u' :: a :: b :: c :: d :: rest =>
    match hex4 a b c d, scanString rest with
    | some n, .ok (ns, rest) => .ok (n :: ns, rest)
    | some _, .error e => .error e
    | none, _ => .error .malformed
  | '\\' :: c :: rest =>
    match simpleEscape c, scanString rest with
    | some n, .ok (ns, rest) => .ok (n :: ns, rest)
    | some _, .error e => .error e
    | none, _ => .error .malformed
  | '\\' :: [] => .error .malformed
  | c :: rest =>
    if c.toNat < 0x20 then .error .malformed
    else match scanString rest with
      | .ok (ns, rest) => .ok (c.toNat :: ns, rest)
      | .error e => .error e

def isHighSurrogate (n : Nat) : Bool := 0xd800 ≤ n && n ≤ 0xdbff

def isLowSurrogate (n : Nat) : Bool := 0xdc00 ≤ n && n ≤ 0xdfff

/-- Join the surrogate pairs of a list of code units. -/
def joinSurrogates : List Nat → List Nat
  | h :: l :: rest =>
    if isHighSurrogate h && isLowSurrogate l then
      (0x10000 + (h - 0xd800) * 0x400 + (l - 0xdc00)) :: joinSurrogates rest
    else h :: joinSurrogates (l :: rest)
  | [n] => [n]
  | [] => []

end Json

def PyStr.ofCodePoints (ns : List Nat) : PyStr :=
  if ns.all fun n => decide n.isValidChar then .text (String.ofList (ns.map Char.ofNat))
  else .lone ns

namespace Json

def parseString (cs : List Char) : Parser PyStr :=
  match scanString cs with
  | .ok (ns, rest) => .ok (.ofCodePoints (joinSurrogates ns), rest)
  | .error e => .error e

/-! Numbers -/

def digitsValue (ds : List Char) : Nat := Nat.ofDigitChars 10 ds 0

def spanDigits (cs : List Char) : List Char × List Char :=
  (cs.takeWhile Char.isDigit, cs.dropWhile Char.isDigit)

/-- The integer part of a number literal: a single zero, or digits that start with another one. -/
def scanInteger : List Char → Option (List Char × List Char)
  | '0' :: rest => some (['0'], rest)
  | c :: rest => if c.isDigit then some (spanDigits (c :: rest)) else none
  | [] => none

def scanFraction : List Char → Option (List Char × List Char)
  | '.' :: rest =>
    match spanDigits rest with
    | ([], _) => none
    | (ds, rest) => some (ds, rest)
  | _ => none

def scanExponent (cs : List Char) : Option (Int × List Char) :=
  match cs with
  | c :: rest =>
    if c == 'e' || c == 'E' then
      let (negative, rest) := match rest with
        | '-' :: rest => (true, rest)
        | '+' :: rest => (false, rest)
        | rest => (false, rest)
      match spanDigits rest with
      | ([], _) => none
      | (ds, rest) => some (if negative then -(digitsValue ds : Int) else digitsValue ds, rest)
    else none
  | [] => none

def parseNumber (cs : List Char) : Parser Json :=
  let (negative, body) := match cs with
    | '-' :: rest => (true, rest)
    | cs => (false, cs)
  match scanInteger body with
  | none =>
    match negative, body with
    | true, 'I' :: 'n' :: 'f' :: 'i' :: 'n' :: 'i' :: 't' :: 'y' :: rest =>
      .ok (float (.infinity true), rest)
    | _, _ => .error .malformed
  | some (whole, rest) =>
    match scanFraction rest, scanExponent ((scanFraction rest).elim rest Prod.snd) with
    | none, none =>
      if maxIntDigits < whole.length then .error .intTooLong
      else .ok (int (if negative then -(digitsValue whole : Int) else digitsValue whole), rest)
    | none, some (e, rest) => .ok (float (.ofDecimal negative (digitsValue whole) e), rest)
    | some (ds, rest), none =>
      .ok (float (.ofDecimal negative (digitsValue (whole ++ ds)) (-(ds.length : Int))), rest)
    | some (ds, _), some (e, rest) =>
      .ok (float (.ofDecimal negative (digitsValue (whole ++ ds)) (e - ds.length)), rest)

/-! Values -/

/-- Store a member; a repeated key keeps its place and takes the new value. -/
def setMember (key : PyStr) (value : Json) : List (PyStr × Json) → List (PyStr × Json)
  | [] => [(key, value)]
  | (k, v) :: rest => if k = key then (k, value) :: rest else (k, v) :: setMember key value rest

mutual

/-- Parse one value; `depth` is what the recursion limit still allows. -/
def parseValue : (fuel depth : Nat) → List Char → Parser Json
  | 0, _, _ => .error .outOfFuel
  | fuel + 1, depth, cs =>
    match cs with
    | '"' :: rest =>
      match parseString rest with
      | .ok (s, rest) => .ok (str s, rest)
      | .error e => .error e
    | '{' :: rest =>
      match depth with
      | 0 => .error .recursion
      | depth + 1 =>
        match skipWhitespace rest with
        | '}' :: rest => .ok (obj [], rest)
        | rest => parseMembers fuel depth [] rest
    | '[' :: rest =>
      match depth with
      | 0 => .error .recursion
      | depth + 1 =>
        match skipWhitespace rest with
        | ']' :: rest => .ok (arr [], rest)
        | rest => parseItems fuel depth [] rest
    | 'n' :: 'u' :: 'l' :: 'l' :: rest => .ok (null, rest)
    | 't' :: 'r' :: 'u' :: 'e' :: rest => .ok (bool true, rest)
    | 'f' :: 'a' :: 'l' :: 's' :: 'e' :: rest => .ok (bool false, rest)
    | 'N' :: 'a' :: 'N' :: rest => .ok (float .nan, rest)
    | 'I' :: 'n' :: 'f' :: 'i' :: 'n' :: 'i' :: 't' :: 'y' :: rest =>
      .ok (float (.infinity false), rest)
    | cs => parseNumber cs

/-- Parse the members of an object behind its first brace, after those already read. -/
def parseMembers : (fuel depth : Nat) → List (PyStr × Json) → List Char → Parser Json
  | 0, _, _, _ => .error .outOfFuel
  | fuel + 1, depth, members, cs =>
    match cs with
    | '"' :: rest =>
      match parseString rest with
      | .error e => .error e
      | .ok (key, rest) =>
        match skipWhitespace rest with
        | ':' :: rest =>
          match parseValue fuel depth (skipWhitespace rest) with
          | .error e => .error e
          | .ok (value, rest) =>
            match skipWhitespace rest with
            | '}' :: rest => .ok (obj (setMember key value members), rest)
            | ',' :: rest =>
              parseMembers fuel depth (setMember key value members) (skipWhitespace rest)
            | _ => .error .malformed
        | _ => .error .malformed
    | _ => .error .malformed

/-- Parse the items of an array behind its first bracket, after those already read. -/
def parseItems : (fuel depth : Nat) → List Json → List Char → Parser Json
  | 0, _, _, _ => .error .outOfFuel
  | fuel + 1, depth, items, cs =>
    match parseValue fuel depth cs with
    | .error e => .error e
    | .ok (value, rest) =>
      match skipWhitespace rest with
      | ']' :: rest => .ok (arr (items ++ [value]), rest)
      | ',' :: rest => parseItems fuel depth (items ++ [value]) (skipWhitespace rest)
      | _ => .error .malformed

end

def byteOrderMark : Char := Char.ofNat 0xfeff

/-- Read a whole JSON text. -/
def loads (recursionLimit : Nat) (text : String) : Except LoadsError Json :=
  let cs := text.toList
  if cs.head? = some byteOrderMark then .error .malformed
  else match parseValue (2 * cs.length + 2) recursionLimit (skipWhitespace cs) with
    | .error e => .error e
    | .ok (value, rest) =>
      match skipWhitespace rest with
      | [] => .ok value
      | _ => .error .malformed

/-! Printing -/

def hexDigit (n : Nat) : Char := if n < 10 then Char.ofNat (48 + n) else Char.ofNat (87 + n)

def escapeChar (c : Char) : List Char :=
  match c with
  | '"' => ['\\', '"']
  | '\\' => ['\\', '\\']
  | '\n' => ['\\', 'n']
  | '\r' => ['\\', 'r']
  | '\t' => ['\\', 't']
  | c =>
    if c.toNat = 12 then ['\\', 'f']
    else if c.toNat = 8 then ['\\', 'b']
    else if c.toNat < 0x20 then
      ['\\', 'u', '0', '0', hexDigit (c.toNat / 16), hexDigit (c.toNat % 16)]
    else [c]

def printString (s : String) : List Char := '"' :: s.toList.flatMap escapeChar ++ ['"']

/-- The decimal digits of an integer; too long ones have no text. -/
def printInt (n : Int) : Option (List Char) :=
  let digits := Nat.toDigits 10 n.natAbs
  if maxIntDigits < digits.length then none
  else some (if n < 0 then '-' :: digits else digits)

def separated : List (List Char) → List Char
  | [] => []
  | [t] => t
  | t :: ts => t ++ ',' :: separated ts

def printMember (m : String × List Char) : List Char := printString m.1 ++ ':' :: m.2

def sortMembers {α : Type} (ms : List (String × α)) : List (String × α) :=
  ms.insertionSort fun a b => a.1 ≤ b.1

mutual

/-- Compact JSON with sorted keys and plain Unicode; nothing for a value that has no such text. -/
def print : Json → Option (List Char)
  | null => some ['n', 'u', 'l', 'l']
  | bool true => some ['t', 'r', 'u', 'e']
  | bool false => some ['f', 'a', 'l', 's', 'e']
  | int n => printInt n
  | float x => x.repr
  | str (.text s) => some (printString s)
  | str (.lone _) => none
  | arr items => do
    let ts ← printItems items
    return '[' :: separated ts ++ [']']
  | obj members => do
    let ms ← printMembers members
    return '{' :: separated ((sortMembers ms).map printMember) ++ ['}']

def printItems : List Json → Option (List (List Char))
  | [] => some []
  | v :: vs => do return (← print v) :: (← printItems vs)

def printMembers : List (PyStr × Json) → Option (List (String × List Char))
  | [] => some []
  | (.text k, v) :: ms => do return (k, ← print v) :: (← printMembers ms)
  | (.lone _, _) :: _ => none

end

/-- The canonical text of a value, if it has one. -/
def dumps (v : Json) : Option String := (print v).map String.ofList

def unicodeEscape (n : Nat) : List Char :=
  '\\' :: 'u' :: [n / 4096 % 16, n / 256 % 16, n / 16 % 16, n % 16].map hexDigit

/-- The escape of a character outside printable ASCII; beyond the basic plane, as a surrogate
pair. -/
def asciiEscape (c : Char) : List Char :=
  if 0x20 ≤ c.toNat ∧ c.toNat ≤ 0x7e then [c]
  else if c.toNat < 0x10000 then unicodeEscape c.toNat
  else
    unicodeEscape (0xd800 + (c.toNat - 0x10000) / 0x400) ++
      unicodeEscape (0xdc00 + (c.toNat - 0x10000) % 0x400)

/-- The canonical text in ASCII. -/
def dumpsAscii (v : Json) : Option String :=
  (print v).map fun cs => String.ofList (cs.flatMap asciiEscape)

end Json

end Base
