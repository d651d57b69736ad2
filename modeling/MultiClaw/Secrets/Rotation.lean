import MultiClaw.Base.Table
import MultiClaw.Secrets.EnvelopeSpec

/-! The stored secrets: puts, and the rotation of their keys, which other writers may overtake. -/
namespace MultiClaw

open Base

/-- What a secret is looked up by. -/
structure SecretKey where
  tenantId : String
  providerKind : String
  providerName : String
  secretName : String
  deriving DecidableEq, Repr

/-- The unique keys of `user_secrets`. -/
inductive SecretUnique where
  | id (id : String)
  | key (key : SecretKey)
  | nonce (keyProviderName : String) (keyVersion : Int) (nonce : List UInt8)
  deriving DecidableEq, Repr

/-- A row of `user_secrets`. No text that a database stores is as long as the mark. -/
structure UserSecret where
  fields : EnvelopeFields
  record : EncryptedSecretRecord
  createdAt : Nat
  updatedAt : Nat
  rotatedAt : Option Nat
  fits : fields.Fits

namespace UserSecret

def key (row : UserSecret) : SecretKey :=
  ⟨row.fields.tenantId, row.fields.providerKind, row.fields.providerName, row.fields.secretName⟩

def uniques (row : UserSecret) : List SecretUnique :=
  [.id row.fields.secretId, .key row.key,
    .nonce row.record.keyProviderName row.record.keyVersion row.record.nonce]

/-- The plaintext of a row, if it can be decrypted. -/
def plaintext? (row : UserSecret) (service : SecretEnvelopeService) : Option (List UInt8) :=
  (service.decrypt row.record row.fields).toOption

end UserSecret

abbrev SecretTable := Table UserSecret SecretUnique UserSecret.uniques

inductive SecretStoreError where
  | value (message : String)
  | secret (error : SecretError)
  | integrity
  deriving DecidableEq, Repr

/-! Puts -/

def validateName (name value : String) (maxLength : Nat) : Except SecretStoreError Unit :=
  if value = "" ∨ maxLength < value.length then .error (.value (name ++ " is invalid")) else .ok ()

/-- A request to store a secret, under a new identifier. -/
structure SecretPut where
  tenantId : String
  secretId : String
  providerKind : String
  providerName : String
  secretName : String
  value : List UInt8
  fits : EnvelopeFields.Fits
    ⟨tenantId, none, secretId, providerKind, providerName, secretName⟩

namespace SecretPut

def fields (put : SecretPut) : EnvelopeFields :=
  ⟨put.tenantId, none, put.secretId, put.providerKind, put.providerName, put.secretName⟩

def key (put : SecretPut) : SecretKey :=
  ⟨put.tenantId, put.providerKind, put.providerName, put.secretName⟩

/-- The row that a put inserts. -/
def newRow (put : SecretPut) (now : Nat) (record : EncryptedSecretRecord) : UserSecret :=
  ⟨put.fields, record, now, now, none, put.fits⟩

/-- The row that a put makes of the stored one. -/
def changedRow (put : SecretPut) (now : Nat) (record : EncryptedSecretRecord) (row : UserSecret) :
    UserSecret :=
  ⟨put.fields, record, row.createdAt, now, row.rotatedAt, put.fits⟩

end SecretPut

namespace SecretTable

def getEncrypted (table : SecretTable) (key : SecretKey) : Option UserSecret :=
  table.find? (·.key = key)

def putEncrypted (table : SecretTable) (now : Nat) (put : SecretPut)
    (record : EncryptedSecretRecord) : Except SecretStoreError SecretTable := do
  validateName "provider_kind" put.providerKind 32
  validateName "provider_name" put.providerName 128
  validateName "secret_name" put.secretName 128
  validateName "secret_id" put.secretId 36
  let written := match table.getEncrypted put.key with
    | none => table.insert? (put.newRow now record)
    | some _ => table.rewrite? (·.key = put.key) (put.changedRow now record)
  match written with
  | some table => return table
  | none => .error .integrity

/-- `put_secret`: the value is encrypted with the active key. -/
def putSecret (table : SecretTable) (service : SecretEnvelopeService) (now : Nat)
    (nonce : List UInt8) (put : SecretPut) : Except SecretStoreError SecretTable := do
  let record ← (service.encrypt nonce put.value put.fields none).mapError .secret
  table.putEncrypted now put record

/-- The plaintext of a secret. -/
def plaintext? (table : SecretTable) (service : SecretEnvelopeService) (key : SecretKey) :
    Option (List UInt8) :=
  (table.getEncrypted key).bind (·.plaintext? service)

/-! Rotation -/

/-- The where-clause of the swap: the row is still as it was read. -/
def unchanged (tenantId secretId : String) (expected : EncryptedSecretRecord) (row : UserSecret) :
    Bool :=
  row.fields.tenantId = tenantId && row.fields.secretId = secretId &&
    row.fields.workspaceId = none && row.record.keyVersion = expected.keyVersion &&
    row.record.nonce = expected.nonce && row.record.ciphertext = expected.ciphertext

def swapped (now : Nat) (record : EncryptedSecretRecord) (row : UserSecret) : UserSecret :=
  { row with record, updatedAt := now, rotatedAt := some now }

/-- The new table, and whether a row was swapped. -/
def compareAndSwapRotation (table : SecretTable) (now : Nat) (tenantId secretId : String)
    (expected new : EncryptedSecretRecord) : Except SecretStoreError (SecretTable × Bool) :=
  match table.rewrite? (unchanged tenantId secretId expected) (swapped now new) with
  | some table' => .ok (table', table.any (unchanged tenantId secretId expected))
  | none => .error .integrity

end SecretTable

structure RotationResult where
  rotated : Nat := 0
  skipped : Nat := 0
  failed : Nat := 0
  deriving DecidableEq, Repr

inductive RotationOutcome where
  | rotated
  | skipped
  | failed
  deriving DecidableEq, Repr

def RotationResult.count (result : RotationResult) : RotationOutcome → RotationResult
  | .rotated => { result with rotated := result.rotated + 1 }
  | .skipped => { result with skipped := result.skipped + 1 }
  | .failed => { result with failed := result.failed + 1 }

namespace SecretTable

variable (table : SecretTable) (service : SecretEnvelopeService) (now : Nat)

/-- One row of a batch, as it was read. -/
def rotateRow (nonce : List UInt8) (row : UserSecret) : SecretTable × RotationOutcome :=
  let attempt : Except SecretStoreError (SecretTable × Bool) := do
    let plaintext ← (service.decrypt row.record row.fields).mapError .secret
    let record ← (service.encrypt nonce plaintext row.fields
      (some service.keyring.activeKeyVersion)).mapError .secret
    table.compareAndSwapRotation now row.fields.tenantId row.fields.secretId row.record record
  match attempt with
  | .ok (table', true) => (table', .rotated)
  | .ok (table', false) => (table', .skipped)
  | .error _ => (table, .failed)

/-- The older row comes first; rows of the same time are ordered by their identifiers. -/
def comesFirst (a b : UserSecret) : Bool :=
  a.createdAt < b.createdAt ||
    (a.createdAt = b.createdAt && a.fields.secretId ≤ b.fields.secretId)

/-- The rows that a batch reads. -/
def selectForRotation (limit : Nat) : List UserSecret :=
  ((table.filter (·.record.keyVersion ≠ service.keyring.activeKeyVersion)).mergeSort
    comesFirst).take limit

end SecretTable

/-- The loop of a batch; the nonces are what the source of nonces returns row by row. -/
def rotateRows (service : SecretEnvelopeService) (now : Nat) :
    (Nat → List UInt8) → List UserSecret → SecretTable → RotationResult →
      SecretTable × RotationResult
  | _, [], table, result => (table, result)
  | nonces, row :: rows, table, result =>
    let (table, outcome) := table.rotateRow service now (nonces 0) row
    rotateRows service now (fun i => nonces (i + 1)) rows table (result.count outcome)

/-- `rotate_batch` without another writer. -/
def SecretTable.rotateBatch (table : SecretTable) (service : SecretEnvelopeService) (now : Nat)
    (nonces : Nat → List UInt8) (limit : Nat) : SecretTable × RotationResult :=
  rotateRows service now nonces (table.selectForRotation service limit) table {}

/-! Batches and puts at the same time -/

/-- The table, the rows that batches have read and not come to yet, and, for the statements, the
values that were put, with the latest first. -/
structure SecretSystem where
  table : SecretTable
  selected : List UserSecret := []
  written : List (SecretKey × List UInt8) := []

inductive SecretMove where
  | put (now : Nat) (nonce : List UInt8) (put : SecretPut)
  /-- A batch begins. -/
  | select (limit : Nat)
  /-- A batch comes to a row that it has read. -/
  | rotate (i : Nat) (now : Nat) (nonce : List UInt8)

namespace SecretSystem

/-- A put that fails leaves everything as it is. -/
def step (service : SecretEnvelopeService) (s : SecretSystem) : SecretMove → SecretSystem
  | .put now nonce put =>
    match s.table.putSecret service now nonce put with
    | .ok table => { s with table, written := (put.key, put.value) :: s.written }
    | .error _ => s
  | .select limit => { s with selected := s.selected ++ s.table.selectForRotation service limit }
  | .rotate i now nonce =>
    match s.selected[i]? with
    | some row =>
      { s with
        table := (s.table.rotateRow service now nonce row).1
        selected := s.selected.eraseIdx i }
    | none => s

def run (service : SecretEnvelopeService) (s : SecretSystem) (moves : List SecretMove) :
    SecretSystem :=
  moves.foldl (step service) s

end SecretSystem

end MultiClaw
