import MultiClaw.Base.Dicts
import MultiClaw.Base.Frames

/-! Secrets at rest: the deployment keyring, and envelopes that bind a ciphertext to its row. -/
namespace MultiClaw

open Base

def keyringProviderName : String := "deployment-keyring"

def secretEnvelopeFormatVersion : Int := 1

def secretEnvelopeAlgorithm : String := "AES-256-GCM"

def utf8 (s : String) : List UInt8 := s.toUTF8.data.toList

def secretEnvelopeAadPrefix : List UInt8 := utf8 "multiclaw.secret-envelope.v1\x00"

inductive SecretError where
  | keyring (message : String)
  | envelope (message : String)
  /-- A text is too long for the length before it. -/
  | pack
  deriving DecidableEq, Repr

/-- The row that a secret belongs to. -/
structure EnvelopeFields where
  tenantId : String
  workspaceId : Option String
  secretId : String
  providerKind : String
  providerName : String
  secretName : String
  deriving DecidableEq, Repr

structure EncryptedSecretRecord where
  keyProviderName : String
  formatVersion : Int
  algorithm : String
  keyVersion : Int
  nonce : List UInt8
  ciphertext : List UInt8
  deriving DecidableEq, Repr

/-! The associated data -/

def encodeAadField : Option String → Except SecretError (List UInt8)
  | none => .ok (frame none)
  | some value =>
    if (utf8 value).length ≤ 0xFFFFFFFF then .ok (frame (some (utf8 value))) else .error .pack

namespace EnvelopeFields

/-- The fields in the order in which they are encoded. -/
def pieces (fields : EnvelopeFields) : List (Option String) :=
  [some fields.tenantId, fields.workspaceId, some fields.secretId, some fields.providerKind,
    some fields.providerName, some fields.secretName]

end EnvelopeFields

def buildEnvelopeAad (fields : EnvelopeFields) (keyProviderName : String)
    (keyVersion formatVersion : Int) (algorithm : String) : Except SecretError (List UInt8) := do
  let pieces := fields.pieces ++
    [some keyProviderName, some (toString keyVersion), some (toString formatVersion),
      some algorithm]
  let encoded ← pieces.mapM encodeAadField
  return secretEnvelopeAadPrefix ++ encoded.flatten

/-! The keyring and the cipher -/

/-- The digits of the longest numeral that `int` reads. -/
def intMaxStrDigits : Nat := 4300

/-- A keyring as it is loaded: every version is positive and has a key of 32 bytes, and the active
version is one of them. -/
structure DeploymentKeyring where
  activeKeyVersion : Int
  keys : List (Int × List UInt8)
  positive : ∀ e ∈ keys, 0 < e.1
  readable : ∀ e ∈ keys, e.1 < 10 ^ intMaxStrDigits
  length_key : ∀ e ∈ keys, e.2.length = 32
  active_mem : activeKeyVersion ∈ keys.map Prod.fst

def DeploymentKeyring.getKey (keyring : DeploymentKeyring) (version : Int) :
    Except SecretError (List UInt8) :=
  match keyring.keys.lookup version with
  | some key => .ok key
  | none => .error (.keyring "unknown key version")

/-- An authenticated cipher with associated data. Its arguments are the key, the nonce, the
plaintext or ciphertext, and the associated data; a ciphertext ends in a tag of 16 bytes. -/
structure Aead where
  encrypt : List UInt8 → List UInt8 → List UInt8 → List UInt8 → List UInt8
  decrypt : List UInt8 → List UInt8 → List UInt8 → List UInt8 → Option (List UInt8)
  decrypt_encrypt : ∀ key nonce plaintext aad,
    decrypt key nonce (encrypt key nonce plaintext aad) aad = some plaintext
  tag_le : ∀ key nonce plaintext aad, 16 ≤ (encrypt key nonce plaintext aad).length

/-- No ciphertext is accepted with two different associated data. -/
def Aead.Authentic (cipher : Aead) : Prop :=
  ∀ key nonce key' nonce' ciphertext aad aad' plaintext plaintext',
    cipher.decrypt key nonce ciphertext aad = some plaintext →
      cipher.decrypt key' nonce' ciphertext aad' = some plaintext' → aad = aad'

/-! The service -/

structure SecretEnvelopeService where
  cipher : Aead
  keyring : DeploymentKeyring

namespace SecretEnvelopeService

variable (service : SecretEnvelopeService)

/-- The version that a secret is encrypted with; zero counts as none. -/
def versionFor (keyVersion : Option Int) : Int :=
  (keyVersion.filter (· ≠ 0)).getD service.keyring.activeKeyVersion

/-- `nonce` is what the source of nonces returns. -/
def encrypt (nonce plaintext : List UInt8) (fields : EnvelopeFields) (keyVersion : Option Int) :
    Except SecretError EncryptedSecretRecord := do
  let version := service.versionFor keyVersion
  let key ← service.keyring.getKey version
  if nonce.length ≠ 12 then .error (.envelope "nonce must be 12 bytes")
  else do
    let aad ← buildEnvelopeAad fields keyringProviderName version secretEnvelopeFormatVersion
      secretEnvelopeAlgorithm
    return {
      keyProviderName := keyringProviderName
      formatVersion := secretEnvelopeFormatVersion
      algorithm := secretEnvelopeAlgorithm
      keyVersion := version
      nonce
      ciphertext := service.cipher.encrypt key nonce plaintext aad }

def validateRecord (record : EncryptedSecretRecord) : Except SecretError Unit :=
  if record.keyProviderName ≠ keyringProviderName then
    .error (.envelope "invalid envelope provider")
  else if record.formatVersion ≠ secretEnvelopeFormatVersion then
    .error (.envelope "invalid envelope format")
  else if record.algorithm ≠ secretEnvelopeAlgorithm then
    .error (.envelope "invalid envelope algorithm")
  else if record.nonce.length ≠ 12 then .error (.envelope "invalid envelope nonce")
  else if record.ciphertext.length < 16 then .error (.envelope "invalid envelope ciphertext")
  else .ok ()

def decrypt (record : EncryptedSecretRecord) (fields : EnvelopeFields) :
    Except SecretError (List UInt8) := do
  validateRecord record
  let key ← (service.keyring.getKey record.keyVersion).mapError
    fun _ => .envelope "unknown key version"
  let aad ← buildEnvelopeAad fields record.keyProviderName record.keyVersion record.formatVersion
    record.algorithm
  match service.cipher.decrypt key record.nonce record.ciphertext aad with
  | some plaintext => return plaintext
  | none => .error (.envelope "secret envelope integrity check failed")

end SecretEnvelopeService

end MultiClaw
