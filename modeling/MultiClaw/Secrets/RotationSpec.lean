import MultiClaw.Secrets.Rotation

/-! The rotation of keys loses no secret, and what it needs to get on. -/
namespace MultiClaw

open Base

variable {service : SecretEnvelopeService} {table table' : SecretTable} {now : Nat}
  {nonce plaintext : List UInt8} {put : SecretPut} {record : EncryptedSecretRecord}
  {row : UserSecret} {key : SecretKey}

theorem mapError_eq_ok {ε ε' α : Type} {f : ε → ε'} {x : Except ε α} {a : α} :
    x.mapError f = .ok a ↔ x = .ok a := by
  cases x <;> simp [Except.mapError]

theorem UserSecret.plaintext?_eq_some :
    row.plaintext? service = some plaintext ↔
      service.decrypt row.record row.fields = .ok plaintext := by
  unfold plaintext?
  cases service.decrypt row.record row.fields <;> simp [Except.toOption]

namespace SecretTable

/-! Puts -/

theorem putEncrypted_eq_ok (h : table.putEncrypted now put record = .ok table') :
    (table.getEncrypted put.key = none ∧ table.insert? (put.newRow now record) = some table') ∨
      ((table.getEncrypted put.key).isSome ∧
        table.rewrite? (·.key = put.key) (put.changedRow now record) = some table') := by
  obtain ⟨⟨⟩, -, h⟩ := bind_eq_ok.mp h
  obtain ⟨⟨⟩, -, h⟩ := bind_eq_ok.mp h
  obtain ⟨⟨⟩, -, h⟩ := bind_eq_ok.mp h
  obtain ⟨⟨⟩, -, h⟩ := bind_eq_ok.mp h
  cases hget : table.getEncrypted put.key with
  | none =>
    rw [hget] at h
    cases hinsert : table.insert? (put.newRow now record) with
    | none => simp [hinsert] at h
    | some u => simp_all [pure, Except.pure]
  | some row =>
    rw [hget] at h
    cases hrewrite : table.rewrite? (·.key = put.key) (put.changedRow now record) with
    | none => simp [hrewrite] at h
    | some u => simp_all [pure, Except.pure]

/-- After a put its key is found with the new record, and every other key as before. -/
theorem getEncrypted_put (h : table.putEncrypted now put record = .ok table') :
    (∃ row, table'.getEncrypted put.key = some row ∧ row.fields = put.fields ∧
        row.record = record) ∧
      ∀ key ≠ put.key, table'.getEncrypted key = table.getEncrypted key := by
  rcases putEncrypted_eq_ok h with ⟨hnone, hinsert⟩ | ⟨hsome, hrewrite⟩
  · have hfind := fun p => Table.find?_insert? (p := p) hinsert
    constructor
    · refine ⟨put.newRow now record, ?_, rfl, rfl⟩
      rw [getEncrypted] at hnone ⊢
      rw [hfind, hnone]
      exact if_pos (decide_eq_true rfl)
    · intro key hne
      have hrow : ¬(decide ((put.newRow now record).key = key) = true) := by
        rw [decide_eq_true_eq]
        exact fun heq => hne heq.symm
      rw [getEncrypted, hfind, if_neg hrow, Option.or_none, getEncrypted]
  · have hfind := fun key => Table.find?_rewrite? (q := fun row : UserSecret => row.key = key)
      hrewrite fun row _ hrow => by
        have hkey : row.key = put.key := by simpa using hrow
        rw [hkey]
        rfl
    constructor
    · obtain ⟨row, hrow⟩ := Option.isSome_iff_exists.mp hsome
      refine ⟨put.changedRow now record row, ?_, rfl, rfl⟩
      have hkey := (Table.mem_of_find? hrow).2
      rw [getEncrypted] at hrow ⊢
      rw [hfind, hrow, Option.map_some, if_pos hkey]
    · intro key hne
      rw [getEncrypted, hfind, getEncrypted]
      cases hrow : table.find? (fun row => row.key = key) with
      | none => rfl
      | some row =>
        have hkey : row.key = key := by simpa using (Table.mem_of_find? hrow).2
        simp [hkey, hne]

/-- After a put its key has the new value, and every other key the value it had. -/
theorem plaintext?_put (h : table.putSecret service now nonce put = .ok table') :
    table'.plaintext? service put.key = some put.value ∧
      ∀ key ≠ put.key, table'.plaintext? service key = table.plaintext? service key := by
  obtain ⟨record, hencrypt, hput⟩ := bind_eq_ok.mp h
  rw [mapError_eq_ok] at hencrypt
  obtain ⟨⟨row, hrow, hfields, hrecord⟩, hother⟩ := getEncrypted_put hput
  constructor
  · rw [plaintext?, hrow, Option.bind_some, UserSecret.plaintext?_eq_some, hfields, hrecord]
    exact SecretEnvelopeService.decrypt_of_encrypt hencrypt
  · intro key hne
    rw [plaintext?, hother key hne, plaintext?]

/-! One row of a batch -/

theorem unchanged_iff {tenantId secretId : String} {expected : EncryptedSecretRecord} :
    unchanged tenantId secretId expected row = true ↔
      row.fields.tenantId = tenantId ∧ row.fields.secretId = secretId ∧
        row.fields.workspaceId = none ∧ row.record.keyVersion = expected.keyVersion ∧
        row.record.nonce = expected.nonce ∧ row.record.ciphertext = expected.ciphertext := by
  simp [unchanged, and_assoc]

theorem rotateRow_of_encrypt (hdecrypt : service.decrypt row.record row.fields = .ok plaintext)
    (hencrypt : service.encrypt nonce plaintext row.fields
      (some service.keyring.activeKeyVersion) = .ok record) :
    table.rotateRow service now nonce row =
      match table.compareAndSwapRotation now row.fields.tenantId row.fields.secretId row.record
        record with
      | .ok (table', true) => (table', .rotated)
      | .ok (table', false) => (table', .skipped)
      | .error _ => (table, .failed) := by
  simp only [rotateRow, hdecrypt, hencrypt, Except.mapError, bind, Except.bind] <;> rfl

/-- A row of a batch leaves the table alone, or its record is swapped for a new one with the same
plaintext. -/
theorem rotateRow_cases (table : SecretTable) (service : SecretEnvelopeService) (now : Nat)
    (nonce : List UInt8) (row : UserSecret) :
    table.rotateRow service now nonce row = (table, .failed) ∨
      ∃ plaintext record table' outcome,
        service.decrypt row.record row.fields = .ok plaintext ∧
        service.encrypt nonce plaintext row.fields (some service.keyring.activeKeyVersion) =
          .ok record ∧
        table.rewrite? (unchanged row.fields.tenantId row.fields.secretId row.record)
          (swapped now record) = some table' ∧
        table.rotateRow service now nonce row = (table', outcome) ∧
        (outcome = .rotated ↔
          table.any (unchanged row.fields.tenantId row.fields.secretId row.record) = true) := by
  cases hdecrypt : service.decrypt row.record row.fields with
  | error e => exact .inl (by simp [rotateRow, hdecrypt, Except.mapError, bind, Except.bind])
  | ok plaintext =>
    cases hencrypt : service.encrypt nonce plaintext row.fields
      (some service.keyring.activeKeyVersion) with
    | error e =>
      exact .inl (by simp [rotateRow, hdecrypt, hencrypt, Except.mapError, bind, Except.bind])
    | ok record =>
      rw [rotateRow_of_encrypt hdecrypt hencrypt, compareAndSwapRotation]
      cases hrewrite : table.rewrite?
          (unchanged row.fields.tenantId row.fields.secretId row.record) (swapped now record) with
      | none => exact .inl rfl
      | some table' =>
        refine .inr ⟨plaintext, record, table', ?_⟩
        cases table.any (unchanged row.fields.tenantId row.fields.secretId row.record) with
        | true => exact ⟨.rotated, rfl, hencrypt, hrewrite, rfl, by simp⟩
        | false => exact ⟨.skipped, rfl, hencrypt, hrewrite, rfl, by simp⟩

/-- Two records that can be decrypted do not differ where a swap does not look. -/
theorem record_eq_of_unchanged {other : UserSecret} {plaintext' : List UInt8}
    (hunchanged : unchanged row.fields.tenantId row.fields.secretId row.record other = true)
    (h : service.decrypt row.record row.fields = .ok plaintext)
    (h' : service.decrypt other.record other.fields = .ok plaintext') :
    other.record = row.record := by
  obtain ⟨-, -, -, hversion, hnonce, hciphertext⟩ := unchanged_iff.mp hunchanged
  obtain ⟨hprovider, hformat, halgorithm, -⟩ :=
    SecretEnvelopeService.validateRecord_eq_ok.mp (SecretEnvelopeService.decrypt_eq_ok.mp h).1
  obtain ⟨hprovider', hformat', halgorithm', -⟩ :=
    SecretEnvelopeService.validateRecord_eq_ok.mp (SecretEnvelopeService.decrypt_eq_ok.mp h').1
  cases hrow : row.record
  cases hother : other.record
  simp_all

/-- A batch keeps the plaintext of every secret, whichever rows it has read before. -/
theorem plaintext?_rotateRow (hauthentic : service.cipher.Authentic)
    (h : table.plaintext? service key = some plaintext) :
    (table.rotateRow service now nonce row).1.plaintext? service key = some plaintext := by
  rcases rotateRow_cases table service now nonce row with
    hsame | ⟨plaintext', record, table', outcome, hdecrypt, hencrypt, hrewrite, heq, -⟩
  · rw [hsame]
    exact h
  · rw [heq]
    obtain ⟨other, hother, hplain⟩ := Option.bind_eq_some_iff.mp h
    rw [UserSecret.plaintext?_eq_some] at hplain
    rw [getEncrypted] at hother
    rw [plaintext?, getEncrypted, Table.find?_rewrite? hrewrite fun _ _ _ => rfl, hother,
      Option.map_some, Option.bind_some, UserSecret.plaintext?_eq_some]
    split
    · next hunchanged =>
      have hciphertext := (unchanged_iff.mp hunchanged).2.2.2.2.2
      have hfields : other.fields = row.fields :=
        SecretEnvelopeService.fields_eq_of_decrypt hauthentic row.fits other.fits hciphertext
          hdecrypt hplain
      rw [record_eq_of_unchanged hunchanged hdecrypt hplain, hfields, hdecrypt,
        Except.ok.injEq] at hplain
      subst hplain
      change service.decrypt record other.fields = _
      rw [hfields]
      exact SecretEnvelopeService.decrypt_of_encrypt hencrypt
    · exact hplain

end SecretTable

/-! Interleavings -/

namespace SecretSystem

variable {s : SecretSystem}

/-- The value that a secret should have: the one that was put last, or that it had at first. -/
def expected (service : SecretEnvelopeService) (first : SecretTable) (s : SecretSystem)
    (key : SecretKey) : Option (List UInt8) :=
  (s.written.lookup key).or (first.plaintext? service key)

/-- Every secret that should have a value has it. -/
def Kept (service : SecretEnvelopeService) (first : SecretTable) (s : SecretSystem) : Prop :=
  ∀ key plaintext, s.expected service first key = some plaintext →
    s.table.plaintext? service key = some plaintext

theorem Kept.step {first : SecretTable} (hauthentic : service.cipher.Authentic)
    (h : s.Kept service first) (move : SecretMove) : (s.step service move).Kept service first := by
  cases move with
  | put now nonce put =>
    cases hput : s.table.putSecret service now nonce put with
    | error e => simpa only [SecretSystem.step, hput] using h
    | ok table' =>
      simp only [SecretSystem.step, hput]
      obtain ⟨hself, hother⟩ := SecretTable.plaintext?_put hput
      intro key plaintext hexpected
      by_cases hkey : key = put.key
      · subst hkey
        rw [expected, List.lookup_cons_self, Option.some_or] at hexpected
        exact hself.trans hexpected
      · rw [expected, List.lookup_cons, beq_false_of_ne hkey] at hexpected
        exact (hother key hkey).trans (h key plaintext hexpected)
  | select limit => exact h
  | rotate i now nonce =>
    cases hrow : s.selected[i]? with
    | none => simpa only [SecretSystem.step, hrow] using h
    | some row =>
      simp only [SecretSystem.step, hrow]
      intro key plaintext hexpected
      exact SecretTable.plaintext?_rotateRow hauthentic (h key plaintext hexpected)

theorem Kept.run {first : SecretTable} (hauthentic : service.cipher.Authentic)
    (h : s.Kept service first) (moves : List SecretMove) :
    (s.run service moves).Kept service first := by
  induction moves generalizing s with
  | nil => exact h
  | cons move moves ih => exact ih (h.step hauthentic move)

theorem kept_first (service : SecretEnvelopeService) (table : SecretTable) :
    Kept service table { table } := fun _ _ h => h

end SecretSystem

/-! Progress -/

namespace SecretTable

variable {nonces : Nat → List UInt8}

/-- A row that a batch can rotate: it belongs to no workspace and can be decrypted. -/
def Rotatable (service : SecretEnvelopeService) (row : UserSecret) : Prop :=
  row.fields.workspaceId = none ∧ (row.plaintext? service).isSome

/-- A nonce as the active key needs it: it has twelve bytes, and no row uses it with the key. -/
def FreshNonce (table : SecretTable) (service : SecretEnvelopeService) (nonce : List UInt8) :
    Prop :=
  nonce.length = 12 ∧ ∀ row ∈ table.rows, (row.record.keyProviderName, row.record.keyVersion,
    row.record.nonce) ≠ (keyringProviderName, service.keyring.activeKeyVersion, nonce)

/-- A swap can only meet the stored row that was read. -/
theorem eq_of_unchanged {other : UserSecret} (hrow : row ∈ table.rows) (hother : other ∈ table.rows)
    (h : unchanged row.fields.tenantId row.fields.secretId row.record other = true) :
    other = row := by
  refine Table.eq_of_shared_key hother hrow (k := .id row.fields.secretId) ?_ ?_
  · simp [UserSecret.uniques, (unchanged_iff.mp h).2.1]
  · simp [UserSecret.uniques]

theorem rotateRow_of_not_rotatable (hrow : row ∈ table.rows) (h : ¬Rotatable service row) :
    (table.rotateRow service now nonce row).1 = table := by
  rcases rotateRow_cases table service now nonce row with
    hsame | ⟨plaintext, record, table', outcome, hdecrypt, -, hrewrite, heq, -⟩
  · rw [hsame]
  · rw [heq]
    refine Table.rewrite?_eq_self hrewrite fun other hother hunchanged => h ?_
    have hworkspace := (unchanged_iff.mp hunchanged).2.2.1
    rw [eq_of_unchanged hrow hother hunchanged] at hworkspace
    exact ⟨hworkspace, by rw [UserSecret.plaintext?_eq_some.mpr hdecrypt]; rfl⟩

theorem versionFor_active (service : SecretEnvelopeService) :
    service.versionFor (some service.keyring.activeKeyVersion) =
      service.keyring.activeKeyVersion := by
  obtain ⟨e, he, hactive⟩ := List.mem_map.mp service.keyring.active_mem
  have hpositive := service.keyring.positive e he
  have hne : service.keyring.activeKeyVersion ≠ 0 := by omega
  rw [SecretEnvelopeService.versionFor, Option.filter_some_pos (by simpa using hne),
    Option.getD_some]

theorem rotateRow_of_rotatable (hrow : row ∈ table.rows) (h : Rotatable service row)
    (hnonce : table.FreshNonce service nonce) :
    (table.rotateRow service now nonce row).2 = .rotated := by
  obtain ⟨hworkspace, hplain⟩ := h
  obtain ⟨plaintext, hplain⟩ := Option.isSome_iff_exists.mp hplain
  have hdecrypt := UserSecret.plaintext?_eq_some.mp hplain
  have hself : unchanged row.fields.tenantId row.fields.secretId row.record row = true :=
    unchanged_iff.mpr ⟨rfl, rfl, hworkspace, rfl, rfl, rfl⟩
  have hversion := versionFor_active service
  obtain ⟨record, hencrypt⟩ : ∃ record, service.encrypt nonce plaintext row.fields
      (some service.keyring.activeKeyVersion) = .ok record :=
    SecretEnvelopeService.exists_encrypt (by rw [hversion]; exact service.keyring.active_mem)
      hnonce.1 row.fits
  obtain ⟨_, _, -, -, -, hrecord⟩ := SecretEnvelopeService.encrypt_eq_ok.mp hencrypt
  rw [hversion] at hrecord
  obtain ⟨table', hrewrite⟩ : ∃ table', table.rewrite?
      (unchanged row.fields.tenantId row.fields.secretId row.record) (swapped now record) =
        some table' := by
    refine Table.rewrite?_isSome ?_ ?_
    · intro a ha b hb hua hub
      rw [eq_of_unchanged hrow ha hua, eq_of_unchanged hrow hb hub]
      exact ⟨.id row.fields.secretId, by simp [UserSecret.uniques], by simp [UserSecret.uniques]⟩
    · intro r hr a ha hur hua k hk hka
      obtain rfl := eq_of_unchanged hrow hr hur
      -- the identifier and the key are those of the row itself, and the nonce is fresh
      have hold : k ∉ r.uniques := by
        intro hkr
        rw [Table.eq_of_shared_key ha hr hka hkr, hself] at hua
        cases hua
      have hcases : k ∈ r.uniques ∨
          k = .nonce keyringProviderName service.keyring.activeKeyVersion nonce := by
        simp only [UserSecret.uniques, swapped, hrecord, List.mem_cons, List.not_mem_nil,
          or_false] at hk ⊢
        tauto
      rcases hcases with hkr | rfl
      · exact hold hkr
      · refine hnonce.2 a ha ?_
        simpa [UserSecret.uniques, eq_comm] using hka
  have hany : table.any (unchanged row.fields.tenantId row.fields.secretId row.record) = true :=
    List.any_eq_true.mpr ⟨row, hrow, hself⟩
  rw [rotateRow_of_encrypt hdecrypt hencrypt, compareAndSwapRotation, hrewrite, hany]

end SecretTable

theorem RotationResult.rotated_le_count (result : RotationResult) (outcome : RotationOutcome) :
    result.rotated ≤ (result.count outcome).rotated := by
  cases outcome <;> simp [count]

theorem rotateRows_cons {nonces : Nat → List UInt8} {rows : List UserSecret}
    {result : RotationResult} :
    rotateRows service now nonces (row :: rows) table result =
      rotateRows service now (fun i => nonces (i + 1)) rows
        (table.rotateRow service now (nonces 0) row).1
        (result.count (table.rotateRow service now (nonces 0) row).2) := rfl

theorem rotateRows_rotated_le {nonces : Nat → List UInt8} {rows : List UserSecret}
    {result : RotationResult} :
    result.rotated ≤ (rotateRows service now nonces rows table result).2.rotated := by
  induction rows generalizing nonces table result with
  | nil => exact le_rfl
  | cons row rows ih =>
    rw [rotateRows_cons]
    exact le_trans (result.rotated_le_count _) ih

theorem rotateRows_rotated_pos {nonces : Nat → List UInt8} {rows : List UserSecret}
    {result : RotationResult} (hrows : ∀ row ∈ rows, row ∈ table.rows)
    (hnonces : ∀ i, table.FreshNonce service (nonces i))
    (h : ∃ row ∈ rows, SecretTable.Rotatable service row) :
    1 ≤ (rotateRows service now nonces rows table result).2.rotated := by
  induction rows generalizing nonces result with
  | nil => simp at h
  | cons row rows ih =>
    have hrow := hrows row (by simp)
    rw [rotateRows_cons]
    by_cases hrotatable : SecretTable.Rotatable service row
    · refine le_trans ?_ rotateRows_rotated_le
      rw [SecretTable.rotateRow_of_rotatable hrow hrotatable (hnonces 0)]
      exact Nat.le_add_left 1 _
    · -- the table stays as it was read until the first row that can be rotated
      rw [SecretTable.rotateRow_of_not_rotatable hrow hrotatable]
      refine ih (fun r hr => hrows r (by simp [hr])) (fun i => hnonces (i + 1)) ?_
      obtain ⟨r, hr, hrr⟩ := h
      rcases List.mem_cons.mp hr with rfl | hr
      · exact absurd hrr hrotatable
      · exact ⟨r, hr, hrr⟩

theorem SecretTable.mem_selectForRotation {limit : Nat}
    (h : row ∈ table.selectForRotation service limit) : row ∈ table.rows :=
  (List.mem_filter.mp (List.mem_mergeSort.mp (List.mem_of_mem_take h))).1

def sampleFields (id name : String) : EnvelopeFields := ⟨"tenant", none, id, "llm", "openai", name⟩

def sampleBrokenRecord (nonce : List UInt8) : EncryptedSecretRecord :=
  ⟨keyringProviderName, 1, secretEnvelopeAlgorithm, 1, nonce, List.replicate 16 0⟩

def sampleOldRecord : EncryptedSecretRecord :=
  match SecretEnvelopeService.sampleEnvelopes.encrypt (List.replicate 12 1) [42]
    (sampleFields "b" "second") (some 1) with
  | .ok record => record
  | .error _ => sampleBrokenRecord []

def sampleBrokenRow : UserSecret :=
  ⟨sampleFields "a" "first", sampleBrokenRecord (List.replicate 12 0), 0, 0, none,
    by decide +kernel⟩

def sampleOldRow : UserSecret :=
  ⟨sampleFields "b" "second", sampleOldRecord, 1, 1, none, by decide +kernel⟩

def sampleSecrets : SecretTable where
  rows := [sampleBrokenRow, sampleOldRow]
  unique := by
    simp only [List.pairwise_cons, List.mem_singleton, forall_eq]
    refine ⟨?_, by simp⟩
    rw [List.disjoint_left]
    decide +kernel

def sampleNonces (_ : Nat) : List UInt8 := List.replicate 12 2

theorem sampleNonces_fresh (i : Nat) :
    sampleSecrets.FreshNonce SecretEnvelopeService.sampleEnvelopes (sampleNonces i) := by
  constructor
  · rfl
  · change ∀ row ∈ [sampleBrokenRow, sampleOldRow], _ ≠ (_, _, List.replicate 12 2)
    decide +kernel

theorem sampleOldRow_plaintext :
    (sampleOldRow.plaintext? SecretEnvelopeService.sampleEnvelopes).isSome = true := by
  decide +kernel

theorem sampleSelection (limit : Nat) :
    sampleSecrets.selectForRotation SecretEnvelopeService.sampleEnvelopes limit =
      [sampleBrokenRow, sampleOldRow].take limit := by
  have hfilter : sampleSecrets.filter (fun row => row.record.keyVersion ≠
      SecretEnvelopeService.sampleEnvelopes.keyring.activeKeyVersion) =
        [sampleBrokenRow, sampleOldRow] :=
    List.filter_eq_self.mpr (by
      change ∀ row ∈ [sampleBrokenRow, sampleOldRow], _
      decide +kernel)
  rw [SecretTable.selectForRotation, hfilter, List.mergeSort_of_pairwise]
  simp [SecretTable.comesFirst, sampleBrokenRow, sampleOldRow]

end MultiClaw
