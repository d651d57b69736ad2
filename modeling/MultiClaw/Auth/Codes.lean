import MultiClaw.Base.Hmac
import MultiClaw.Base.Table
import MultiClaw.Base.Transaction

/-! The verification codes of the authentication routes and their repository. -/
namespace MultiClaw

open Base Transaction

inductive CodePurpose where
  | login
  | deletionRecovery
  deriving DecidableEq, Repr

def CodePurpose.value : CodePurpose → String
  | login => "login"
  | deletionRecovery => "deletion_recovery"

def verificationCodeTtlSeconds : Nat := 15 * 60

def maxSendsPerDay : Nat := 3

def maxVerificationFailuresPerCode : Nat := 5

def verificationCodeKeyContext : String := "multiclaw.verification-code-key.v1"

inductive AuthError where
  | http (status : Nat) (detail : String)
  | value (message : String)
  | runtime (message : String)
  | integrity
  deriving DecidableEq, Repr

/-! Digests -/

def utf8Bytes (s : String) : List UInt8 := s.toUTF8.data.toList

/-- The keyed digest of a code; the address is stripped and in lower case. -/
def deriveVerificationCodeDigest (signingKey : List UInt8) (purpose : CodePurpose)
    (email code : String) : String :=
  let digestKey := Sha256.hmac signingKey (utf8Bytes verificationCodeKeyContext)
  let message := utf8Bytes purpose.value ++ 0 :: (utf8Bytes email ++ 0 :: utf8Bytes code)
  Sha256.hmacHexdigest digestKey message

def isHexDigest (value : String) : Bool :=
  value.length == 64 && value.toList.all fun c => "0123456789abcdef".toList.contains c

structure CodeDigestState where
  baseDigest : String
  failures : Nat
  deriving DecidableEq, Repr

/-- Split at the first two colons. -/
def splitDigestParts (value : List Char) : Option (List Char × List Char × List Char) :=
  match value.span (· != ':') with
  | (version, _ :: rest) =>
    match rest.span (· != ':') with
    | (failures, _ :: base) => some (version, failures, base)
    | _ => none
  | _ => none

def parseVerificationCodeDigest (value : String) : Option CodeDigestState :=
  if isHexDigest value then some ⟨value, 0⟩ else
    match splitDigestParts value.toList with
    | none => none
    | some (version, failures, base) =>
      if version ≠ ['v', '1'] then none
      else if failures = [] ∨ ¬failures.all Char.isDigit then none
      else if maxVerificationFailuresPerCode < Nat.ofDigitChars 10 failures 0 then none
      else if isHexDigest (String.ofList base) = false then none
      else some ⟨String.ofList base, Nat.ofDigitChars 10 failures 0⟩

def encodeVerificationCodeDigest (baseDigest : String) (failures : Nat) :
    Except AuthError String :=
  if isHexDigest baseDigest = false then
    .error (.value "verification code digest must be a 64-character hex digest")
  else if maxVerificationFailuresPerCode < failures then
    .error (.value "verification code failures out of range")
  else if failures = 0 then .ok baseDigest
  else .ok ("v1:" ++ toString failures ++ ":" ++ baseDigest)

/-! The table -/

structure CodeRow where
  id : String
  email : String
  codeDigest : String
  purpose : CodePurpose
  expiresAt : Nat
  usedAt : Option Nat
  createdAt : Nat
  deriving DecidableEq, Repr

def CodeRow.keys (r : CodeRow) : List String := [r.id]

def CodeRow.isFor (email : String) (purpose : CodePurpose) (r : CodeRow) : Bool :=
  r.email == email && r.purpose == purpose

/-- The code was accepted, or guessed at too often. -/
def CodeRow.use (now : Nat) (r : CodeRow) : CodeRow := { r with usedAt := some now }

/-- A wrong guess was charged to the code. -/
def CodeRow.charge (now failures : Nat) (encoded : String) (r : CodeRow) : CodeRow :=
  { r with
    codeDigest := encoded
    usedAt := if maxVerificationFailuresPerCode ≤ failures then some now else r.usedAt }

theorem CodeRow.use_keys (now : Nat) (r : CodeRow) : (r.use now).keys = r.keys := rfl

theorem CodeRow.charge_keys (now failures : Nat) (encoded : String) (r : CodeRow) :
    (r.charge now failures encoded).keys = r.keys := rfl

abbrev Codes := Table CodeRow String CodeRow.keys

/-- Transactions on the codes; the environment is the clock of the database in milliseconds. -/
abbrev CodeTx (α : Type) := Transaction Nat Codes AuthError α

/-- Newer codes first, by creation and then by id. -/
def CodeRow.newestFirst (a b : CodeRow) : Bool :=
  decide (b.createdAt < a.createdAt) || (a.createdAt == b.createdAt && decide (b.id ≤ a.id))

namespace VerificationCodeRepository

def countRecentCodes (email : String) (purpose : CodePurpose) (windowMs : Nat) : CodeTx Nat := do
  let now ← ask
  let codes ← get
  pure (codes.count fun r => r.isFor email purpose && decide (now < r.createdAt + windowMs))

def latestCreatedAt (codes : Codes) (email : String) (purpose : CodePurpose) : Option Nat :=
  ((codes.filter (CodeRow.isFor email purpose)).map (·.createdAt)).max?

/-- The row of a new code, created after the codes that its address has. -/
def newCode (codes : Codes) (now : Nat) (codeId email : String) (purpose : CodePurpose)
    (codeDigest : String) (ttlSeconds : Nat) : CodeRow where
  id := codeId
  email := email
  codeDigest := codeDigest
  purpose := purpose
  expiresAt := now + ttlSeconds * 1000
  usedAt := none
  createdAt := (latestCreatedAt codes email purpose).elim now fun latest => max now (latest + 1)

def issueCode (codeId email : String) (purpose : CodePurpose) (codeDigest : String)
    (ttlSeconds : Nat) : CodeTx String := do
  let now ← ask
  let codes ← get
  match codes.insert? (newCode codes now codeId email purpose codeDigest ttlSeconds) with
  | none => throw .integrity
  | some codes =>
    set codes
    pure codeId

def deleteCodeById (codeId email : String) (purpose : CodePurpose) : CodeTx Bool := do
  let codes ← get
  let selected := fun r : CodeRow => r.id == codeId && r.isFor email purpose && r.usedAt.isNone
  set (codes.delete selected)
  pure (codes.count selected == 1)

/-- The newest code of an address that has not expired. -/
def latestUnexpired (codes : Codes) (email : String) (purpose : CodePurpose) (now : Nat) :
    Option CodeRow :=
  ((codes.filter fun r => r.isFor email purpose && decide (now < r.expiresAt)).insertionSort
    fun a b => a.newestFirst b).head?

/-- The where-clause of an update: the row is as it was read, unused and not expired. -/
def unchanged (record : CodeRow) (now : Nat) (r : CodeRow) : Bool :=
  r.id == record.id && r.codeDigest == record.codeDigest && r.usedAt.isNone &&
    decide (now < r.expiresAt)

/-- Rewrite a row that was read; returns how many rows were rewritten. -/
def updateUnchanged (record : CodeRow) (f : CodeRow → CodeRow) (hf : ∀ r, (f r).keys = r.keys) :
    CodeTx Nat := do
  let now ← ask
  let codes ← get
  set (codes.update (unchanged record now) f hf)
  pure (codes.count (unchanged record now))

def consumeLatestCode (email : String) (purpose : CodePurpose) (codeDigest : String) :
    CodeTx (Option CodeRow) := do
  let now ← ask
  let codes ← get
  match latestUnexpired codes email purpose now with
  | none => pure none
  | some record =>
    if record.usedAt.isSome then pure none else
      match parseVerificationCodeDigest record.codeDigest with
      | none => pure none
      | some state =>
        if state.baseDigest = codeDigest then do
          let updated ← updateUnchanged record (CodeRow.use now) (CodeRow.use_keys now)
          pure (if updated = 1 then some record else none)
        else do
          let nextFailures := state.failures + 1
          let encoded ← ofExcept (encodeVerificationCodeDigest state.baseDigest
            (min nextFailures maxVerificationFailuresPerCode))
          let _ ← updateUnchanged record (CodeRow.charge now nextFailures encoded)
            (CodeRow.charge_keys now nextFailures encoded)
          pure none

def deleteExpiredCodes : CodeTx Nat := do
  let now ← ask
  let codes ← get
  let expired := fun r : CodeRow => decide (r.expiresAt ≤ now)
  set (codes.delete expired)
  pure (codes.count expired)

end VerificationCodeRepository

end MultiClaw
