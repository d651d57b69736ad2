import MultiClaw.Base.Transaction
import MultiClaw.Secrets.Envelope

/-! An envelope opens with the fields it was made for, and with no others. -/
namespace MultiClaw

open Base

theorem utf8_injective : Function.Injective utf8 := by
  intro s t h
  have hdata : s.toUTF8.data = t.toUTF8.data := Array.toList_inj.mp h
  exact String.toByteArray_inj.mp (ByteArray.ext hdata)

/-- Every field is shorter than the mark of an absent one. -/
def EnvelopeFields.Fits (fields : EnvelopeFields) : Prop :=
  ∀ piece ∈ fields.pieces, Framable (piece.map utf8)

instance (value : Option (List UInt8)) : Decidable (Framable value) :=
  inferInstanceAs (Decidable (∀ bytes ∈ value, bytes.length < absentMark))

instance (fields : EnvelopeFields) : Decidable fields.Fits :=
  inferInstanceAs (Decidable (∀ piece ∈ fields.pieces, Framable (piece.map utf8)))

variable {fields fields' : EnvelopeFields} {keyProviderName keyProviderName' : String}
  {keyVersion keyVersion' formatVersion formatVersion' : Int} {algorithm algorithm' : String}
  {aad : List UInt8}

/-! The associated data -/

theorem encodeAadField_eq_ok {value : Option String} {bytes : List UInt8}
    (h : encodeAadField value = .ok bytes) : bytes = frame (value.map utf8) := by
  cases value with
  | none => exact (Except.ok.inj h).symm
  | some value =>
    simp only [encodeAadField] at h
    split at h
    · exact (Except.ok.inj h).symm
    · cases h

theorem encodeAadField_ok {value : Option String} (h : Framable (value.map utf8)) :
    encodeAadField value = .ok (frame (value.map utf8)) := by
  cases value with
  | none => rfl
  | some value => exact if_pos (Nat.le_of_lt (h _ rfl))

theorem flatten_of_mapM_encode {pieces : List (Option String)} {encoded : List (List UInt8)}
    (h : pieces.mapM encodeAadField = .ok encoded) :
    encoded.flatten = (pieces.map (Option.map utf8)).flatMap frame := by
  have hmap : encoded = (pieces.map (Option.map utf8)).map frame := by
    rw [mapM_eq_ok_iff] at h
    induction h with
    | nil => rfl
    | cons hpiece _ ih => rw [encodeAadField_eq_ok hpiece, ih, List.map_cons, List.map_cons]
  rw [hmap, List.flatMap_def]

/-- The frames of the fields come first. -/
theorem buildEnvelopeAad_eq_ok
    (h : buildEnvelopeAad fields keyProviderName keyVersion formatVersion algorithm = .ok aad) :
    ∃ rest, aad = secretEnvelopeAadPrefix ++
      ((fields.pieces.map (Option.map utf8)).flatMap frame ++ rest) := by
  obtain ⟨encoded, hencoded, h⟩ := bind_eq_ok.mp h
  obtain rfl := Except.ok.inj h
  rw [flatten_of_mapM_encode hencoded, List.map_append, List.flatMap_append]
  exact ⟨_, rfl⟩

theorem EnvelopeFields.eq_of_pieces
    (h : fields.pieces.map (Option.map utf8) = fields'.pieces.map (Option.map utf8)) :
    fields = fields' := by
  have hpieces := List.map_injective_iff.mpr (Option.map_injective utf8_injective) h
  cases fields
  cases fields'
  simpa [pieces] using hpieces

/-- The fields can be read back from the associated data, whatever stands after them. -/
theorem fields_eq_of_buildEnvelopeAad (hfits : fields.Fits) (hfits' : fields'.Fits)
    (h : buildEnvelopeAad fields keyProviderName keyVersion formatVersion algorithm = .ok aad)
    (h' : buildEnvelopeAad fields' keyProviderName' keyVersion' formatVersion' algorithm' =
      .ok aad) : fields = fields' := by
  obtain ⟨rest, rfl⟩ := buildEnvelopeAad_eq_ok h
  obtain ⟨rest', heq⟩ := buildEnvelopeAad_eq_ok h'
  have hframes := List.append_cancel_left heq
  refine EnvelopeFields.eq_of_pieces (frames_append_inj (by simp [EnvelopeFields.pieces]) ?_ ?_
    hframes).1
  · simpa [EnvelopeFields.Fits] using hfits
  · simpa [EnvelopeFields.Fits] using hfits'

theorem exists_buildEnvelopeAad (hfits : fields.Fits)
    (hheader : ∀ text ∈ [keyProviderName, toString keyVersion, toString formatVersion, algorithm],
      Framable (some (utf8 text))) :
    ∃ aad, buildEnvelopeAad fields keyProviderName keyVersion formatVersion algorithm =
      .ok aad := by
  have hpieces : ∀ piece ∈ fields.pieces ++ [keyProviderName, toString keyVersion,
      toString formatVersion, algorithm].map some, ∃ bytes, encodeAadField piece = .ok bytes := by
    intro piece hpiece
    refine ⟨_, encodeAadField_ok ?_⟩
    rcases List.mem_append.mp hpiece with hpiece | hpiece
    · exact hfits piece hpiece
    · obtain ⟨text, htext, rfl⟩ := List.mem_map.mp hpiece
      exact hheader text htext
  obtain ⟨encoded, hencoded⟩ := exists_mapM_eq_ok hpieces
  exact ⟨_, bind_eq_ok.mpr ⟨encoded, hencoded, rfl⟩⟩

/-! The text of a key version -/

theorem length_utf8_le (s : String) : (utf8 s).length ≤ 4 * s.length := by
  have hbytes : utf8 s = s.toList.flatMap String.utf8EncodeChar := by
    rw [utf8, String.toUTF8_eq_toByteArray, ← String.utf8Encode_toList]
    exact List.toList_data_toByteArray
  rw [hbytes, ← String.length_toList]
  induction s.toList with
  | nil => simp
  | cons c cs ih =>
    have := c.utf8Size_le_four
    simp only [List.flatMap_cons, List.length_append, String.length_utf8EncodeChar,
      List.length_cons]
    omega

theorem DeploymentKeyring.framable_version {keyring : DeploymentKeyring} {version : Int}
    (h : version ∈ keyring.keys.map Prod.fst) : Framable (some (utf8 (toString version))) := by
  obtain ⟨e, he, rfl⟩ := List.mem_map.mp h
  obtain ⟨n, hn⟩ := Int.eq_ofNat_of_zero_le (Int.le_of_lt (keyring.positive e he))
  have hlt := keyring.readable e he
  rw [hn] at hlt ⊢
  have hdigits : n.repr.length ≤ intMaxStrDigits :=
    Nat.repr_length n intMaxStrDigits (by decide) (by exact_mod_cast hlt)
  rintro bytes ⟨⟩
  have hle := length_utf8_le n.repr
  have hmark : 4 * intMaxStrDigits < absentMark := by decide
  exact lt_of_le_of_lt (hle.trans (Nat.mul_le_mul_left 4 hdigits)) hmark

namespace SecretEnvelopeService

variable {service : SecretEnvelopeService} {nonce plaintext : List UInt8}
  {version : Option Int} {record : EncryptedSecretRecord}

/-! The service -/

theorem encrypt_eq_ok : service.encrypt nonce plaintext fields version = .ok record ↔
    ∃ key aad, service.keyring.getKey (service.versionFor version) = .ok key ∧
      nonce.length = 12 ∧
      buildEnvelopeAad fields keyringProviderName (service.versionFor version)
        secretEnvelopeFormatVersion secretEnvelopeAlgorithm = .ok aad ∧
      record = {
        keyProviderName := keyringProviderName
        formatVersion := secretEnvelopeFormatVersion
        algorithm := secretEnvelopeAlgorithm
        keyVersion := service.versionFor version
        nonce
        ciphertext := service.cipher.encrypt key nonce plaintext aad } := by
  constructor
  · intro h
    obtain ⟨key, hkey, h⟩ := bind_eq_ok.mp h
    split at h
    · cases h
    · next hnonce =>
      obtain ⟨aad, haad, h⟩ := bind_eq_ok.mp h
      exact ⟨key, aad, hkey, not_not.mp hnonce, haad, (Except.ok.inj h).symm⟩
  · rintro ⟨key, aad, hkey, hnonce, haad, rfl⟩
    refine bind_eq_ok.mpr ⟨key, hkey, ?_⟩
    rw [if_neg (not_not.mpr hnonce)]
    exact bind_eq_ok.mpr ⟨aad, haad, rfl⟩

theorem validateRecord_eq_ok : validateRecord record = .ok () ↔
    record.keyProviderName = keyringProviderName ∧
      record.formatVersion = secretEnvelopeFormatVersion ∧
      record.algorithm = secretEnvelopeAlgorithm ∧ record.nonce.length = 12 ∧
      16 ≤ record.ciphertext.length := by
  unfold validateRecord
  grind

theorem decrypt_eq_ok : service.decrypt record fields = .ok plaintext ↔
    validateRecord record = .ok () ∧ ∃ key aad,
      service.keyring.getKey record.keyVersion = .ok key ∧
      buildEnvelopeAad fields record.keyProviderName record.keyVersion record.formatVersion
        record.algorithm = .ok aad ∧
      service.cipher.decrypt key record.nonce record.ciphertext aad = some plaintext := by
  constructor
  · intro h
    obtain ⟨⟨⟩, hvalid, h⟩ := bind_eq_ok.mp h
    obtain ⟨key, hkey, h⟩ := bind_eq_ok.mp h
    obtain ⟨aad, haad, h⟩ := bind_eq_ok.mp h
    refine ⟨hvalid, key, aad, ?_, haad, ?_⟩
    · cases hget : service.keyring.getKey record.keyVersion with
      | error e =>
        rw [hget] at hkey
        cases hkey
      | ok key' =>
        rw [hget] at hkey
        exact hkey
    · split at h
      · next hplain => rw [hplain, Except.ok.inj h]
      · cases h
  · rintro ⟨hvalid, key, aad, hkey, haad, hplain⟩
    refine bind_eq_ok.mpr ⟨(), hvalid, bind_eq_ok.mpr ⟨key, ?_, bind_eq_ok.mpr ⟨aad, haad, ?_⟩⟩⟩
    · rw [hkey]
      rfl
    · rw [hplain]
      rfl

/-- What was encrypted can be decrypted with the same fields. -/
theorem decrypt_of_encrypt (h : service.encrypt nonce plaintext fields version = .ok record) :
    service.decrypt record fields = .ok plaintext := by
  obtain ⟨key, aad, hkey, hnonce, haad, rfl⟩ := encrypt_eq_ok.mp h
  refine decrypt_eq_ok.mpr ⟨validateRecord_eq_ok.mpr ⟨rfl, rfl, rfl, hnonce, ?_⟩, key, aad, hkey,
    haad, service.cipher.decrypt_encrypt key nonce plaintext aad⟩
  exact service.cipher.tag_le key nonce plaintext aad

theorem exists_encrypt (hversion : service.versionFor version ∈ service.keyring.keys.map Prod.fst)
    (hnonce : nonce.length = 12) (hfits : fields.Fits) :
    ∃ record, service.encrypt nonce plaintext fields version = .ok record := by
  obtain ⟨key, hkey⟩ : ∃ key, service.keyring.getKey (service.versionFor version) = .ok key := by
    unfold DeploymentKeyring.getKey
    cases hlookup : service.keyring.keys.lookup (service.versionFor version) with
    | some key => exact ⟨key, rfl⟩
    | none => exact absurd hversion (lookup_eq_none_iff_notMem.mp hlookup)
  have hheader : ∀ text ∈ [keyringProviderName, toString (service.versionFor version),
      toString secretEnvelopeFormatVersion, secretEnvelopeAlgorithm],
      Framable (some (utf8 text)) := by
    simp only [List.forall_mem_cons]
    exact ⟨by decide +kernel, DeploymentKeyring.framable_version hversion, by decide +kernel,
      by decide +kernel, by simp⟩
  obtain ⟨aad, haad⟩ := exists_buildEnvelopeAad hfits hheader
  exact ⟨_, encrypt_eq_ok.mpr ⟨key, aad, hkey, hnonce, haad, rfl⟩⟩

/-- Two records with the same ciphertext open with the same fields only. -/
theorem fields_eq_of_decrypt {record' : EncryptedSecretRecord} {plaintext' : List UInt8}
    (hauthentic : service.cipher.Authentic) (hfits : fields.Fits) (hfits' : fields'.Fits)
    (hciphertext : record'.ciphertext = record.ciphertext)
    (h : service.decrypt record fields = .ok plaintext)
    (h' : service.decrypt record' fields' = .ok plaintext') : fields' = fields := by
  obtain ⟨-, key, aad, -, haad, hplain⟩ := decrypt_eq_ok.mp h
  obtain ⟨-, key', aad', -, haad', hplain'⟩ := decrypt_eq_ok.mp h'
  rw [hciphertext] at hplain'
  obtain rfl := hauthentic _ _ _ _ _ _ _ _ _ hplain' hplain
  exact fields_eq_of_buildEnvelopeAad hfits' hfits haad' haad

/-- The associated data determine the fields; the ciphertext of a record opens only with the fields
that it was encrypted for; and with these it opens, for every version of the keyring. -/
structure BindsFields (service : SecretEnvelopeService) : Prop where
  aad_injective : ∀ fields fields' keyProviderName keyProviderName' keyVersion keyVersion'
    formatVersion formatVersion' algorithm algorithm' aad,
    EnvelopeFields.Fits fields → EnvelopeFields.Fits fields' →
    buildEnvelopeAad fields keyProviderName keyVersion formatVersion algorithm = .ok aad →
    buildEnvelopeAad fields' keyProviderName' keyVersion' formatVersion' algorithm' = .ok aad →
    fields = fields'
  opens_only : ∀ nonce plaintext fields version record,
    service.encrypt nonce plaintext fields version = .ok record → fields.Fits →
    ∀ record' fields' plaintext', record'.ciphertext = record.ciphertext → fields'.Fits →
    service.decrypt record' fields' = .ok plaintext' → fields' = fields
  opens : ∀ nonce plaintext fields version,
    service.versionFor version ∈ service.keyring.keys.map Prod.fst → nonce.length = 12 →
    fields.Fits → ∃ record, service.encrypt nonce plaintext fields version = .ok record ∧
      record.keyVersion = service.versionFor version ∧
      service.decrypt record fields = .ok plaintext

/-- The associated data, with a mark before every byte and another one at the end. -/
def sampleMarks (aad : List UInt8) : List UInt8 := aad.flatMap (fun b => [1, b]) ++ [0]

theorem sampleMarks_append_inj {r r' aad aad' : List UInt8}
    (h : sampleMarks aad ++ r = sampleMarks aad' ++ r') : aad = aad' := by
  induction aad generalizing aad' with
  | nil =>
    cases aad' with
    | nil => rfl
    | cons => simp [sampleMarks] at h
  | cons b aad ih =>
    cases aad' with
    | nil => simp [sampleMarks] at h
    | cons b' aad' =>
      simp only [sampleMarks, List.flatMap_cons, List.cons_append, List.nil_append,
        List.cons.injEq, true_and] at h
      rw [h.1, ih h.2]

def sampleHeader (aad : List UInt8) : List UInt8 := List.replicate 16 0 ++ sampleMarks aad

def sampleAead : Aead where
  encrypt _ _ plaintext aad := sampleHeader aad ++ plaintext
  decrypt _ _ ciphertext aad :=
    if sampleHeader aad <+: ciphertext then some (ciphertext.drop (sampleHeader aad).length)
    else none
  decrypt_encrypt := by simp
  tag_le _ _ plaintext aad := by
    simp only [sampleHeader, List.length_append, List.length_replicate]
    omega

theorem sampleAead_authentic : sampleAead.Authentic := by
  intro key nonce key' nonce' ciphertext aad aad' plaintext plaintext' h h'
  simp only [sampleAead, Option.ite_none_right_eq_some] at h h'
  obtain ⟨⟨r, hr⟩, -⟩ := h
  obtain ⟨⟨r', hr'⟩, -⟩ := h'
  rw [← hr', sampleHeader, sampleHeader, List.append_assoc, List.append_assoc] at hr
  exact sampleMarks_append_inj (List.append_cancel_left hr)

def sampleKeyring : DeploymentKeyring where
  activeKeyVersion := 2
  keys := [(1, List.replicate 32 7), (2, List.replicate 32 9)]
  positive := by simp
  readable := by
    have hten : (10 : Int) ≤ 10 ^ intMaxStrDigits := le_self_pow₀ (by decide) (by decide)
    simp only [List.forall_mem_cons]
    exact ⟨by omega, by omega, by simp⟩
  length_key := by simp
  active_mem := by simp

def sampleEnvelopes : SecretEnvelopeService := ⟨sampleAead, sampleKeyring⟩

end SecretEnvelopeService

end MultiClaw
