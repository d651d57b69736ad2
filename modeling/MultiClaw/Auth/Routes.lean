import MultiClaw.Auth.Codes

/-! The transactions of the authentication routes, for requests that are well formed. -/
namespace MultiClaw

open Base Transaction VerificationCodeRepository

def dayMs : Nat := 24 * 60 * 60 * 1000

namespace AuthRouter

/-- Reserve a code, unless the address had its share of codes. -/
def reserveCode (key : List UInt8) (purpose : CodePurpose) (email code codeId : String) :
    CodeTx String := do
  let recent ← countRecentCodes email purpose dayMs
  if maxSendsPerDay ≤ recent then
    throw (.http 429 "Too many attempts, please try again tomorrow")
  else
    issueCode codeId email purpose (deriveVerificationCodeDigest key purpose email code)
      verificationCodeTtlSeconds

def sendCode (key : List UInt8) (email code codeId : String) : CodeTx (Option String) :=
  some <$> reserveCode key .login email code codeId

/-- `scheduled` says whether the account of the address is scheduled for deletion. Otherwise the
route answers as if it had sent a code. -/
def sendDeletionRecoveryCode (key : List UInt8) (email code codeId : String) (scheduled : Bool) :
    CodeTx (Option String) :=
  if scheduled then some <$> reserveCode key .deletionRecovery email code codeId else pure none

def invalidCode : AuthError := .http 401 "Invalid or expired verification code"

/-- What a refused guess changed is committed before the answer. An account that cannot be
bootstrapped takes the acceptance back. -/
def verify (key : List UInt8) (email code : String) (bootstrapped : Bool) :
    CodeTx (Except AuthError Unit) := do
  match ← consumeLatestCode email .login (deriveVerificationCodeDigest key .login email code) with
  | none => pure (.error invalidCode)
  | some _ =>
    if bootstrapped then pure (.ok ())
    else throw (.runtime "existing user is not fully bootstrapped")

def verifyDeletionRecoveryCode (key : List UInt8) (email code : String) (scheduled : Bool) :
    CodeTx (Except AuthError Unit) := do
  match ← consumeLatestCode email .deletionRecovery
    (deriveVerificationCodeDigest key .deletionRecovery email code) with
  | none => pure (.error invalidCode)
  | some _ => pure (if scheduled then .ok () else .error invalidCode)

end AuthRouter

end MultiClaw
