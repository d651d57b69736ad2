import MultiClaw.Base.JsonDump
import MultiClaw.Workflow.Checkpoint

/-! What a validated checkpoint payload looks like, and that decoding inverts encoding. -/
namespace MultiClaw

open Base

variable {host : Host} {payload : CheckpointPayload} {phase : CheckpointPhase}
  {fields : List Field} {values : FieldValues} {maxBytes n : Nat}

/-- What the fields accept: no arrays, objects or floating point numbers. -/
def isScalar : Json → Bool
  | .null | .int _ | .str (.text _) => true
  | _ => false

theorem FieldKind.isScalar_of_accepts {kind : FieldKind} {v : Json} (h : kind.accepts v = true) :
    isScalar v = true := by
  unfold accepts at h
  split at h <;> first | rfl | cases h

theorem fits_names (h : CheckpointPhase.fits fields values = true) :
    values.map Prod.fst = fields.map Field.name := by
  induction fields generalizing values with
  | nil =>
    cases values with
    | nil => rfl
    | cons m values => cases h
  | cons f fields ih =>
    cases values with
    | nil => cases h
    | cons m values =>
      simp only [CheckpointPhase.fits, Bool.and_eq_true, beq_iff_eq] at h
      rw [List.map_cons, List.map_cons, ih h.2, h.1.1]

theorem fits_isScalar (h : CheckpointPhase.fits fields values = true) :
    ∀ m ∈ values, isScalar m.2 = true := by
  induction fields generalizing values with
  | nil =>
    cases values with
    | nil => simp
    | cons m values => cases h
  | cons f fields ih =>
    cases values with
    | nil => cases h
    | cons m values =>
      simp only [CheckpointPhase.fits, Bool.and_eq_true] at h
      simp only [List.forall_mem_cons]
      exact ⟨FieldKind.isScalar_of_accepts h.1.2, ih h.2⟩

theorem fields_nodup (phase : CheckpointPhase) : (phase.fields.map Field.name).Nodup := by
  cases phase <;> decide

/-! Secrets -/

/-- A name in ASCII whose letters and digits contain no secret marker. -/
def isPublicName (name : String) : Bool :=
  name.toList.all (fun c => c.toNat < 128) && name.toLower.toList.all (fun c => c.toNat < 128) &&
    secretKeyMarkers.all fun m => !hasBlock m.toList (name.toLower.toList.filter Char.isAlphanum)

theorem isSecretKey_of_isPublicName {name : String} (h : isPublicName name = true) :
    isSecretKey host (.text name) = false := by
  simp only [isPublicName, Bool.and_eq_true] at h
  obtain ⟨⟨hascii, hlower⟩, hmarkers⟩ := h
  have hnormal : normalizeKey host (.text name) =
      name.toLower.toList.filter Char.isAlphanum := by
    simp only [normalizeKey, host.lower_ascii name hascii]
    refine List.filter_congr fun c hc => host.isAlnum_ascii c ?_
    simpa using List.all_eq_true.mp hlower c hc
  rw [isSecretKey, hnormal, List.any_eq_false]
  simpa using hmarkers

theorem fields_public (phase : CheckpointPhase) :
    ∀ f ∈ phase.fields, isPublicName f.name = true := by
  cases phase <;> decide +kernel

theorem secretField?_of_isScalar {v : Json} (h : isScalar v = true) :
    secretField? host v = none := by
  unfold isScalar at h
  split at h <;> first | rfl | cases h

theorem secretMember?_of_public {ms : List (String × Json)}
    (hnames : ∀ m ∈ ms, isPublicName m.1 = true) (hscalar : ∀ m ∈ ms, isScalar m.2 = true) :
    secretMember? host (ms.map fun m => (.text m.1, m.2)) = none := by
  induction ms with
  | nil => rfl
  | cons m ms ih =>
    simp only [List.forall_mem_cons] at hnames hscalar
    rw [List.map_cons, secretMember?, isSecretKey_of_isPublicName hnames.1,
      secretField?_of_isScalar hscalar.1, ih hnames.2 hscalar.2]
    rfl

/-- No payload has a field that looks like the name of a secret. -/
theorem rejectSecretFields_payload (payload : CheckpointPayload) :
    rejectSecretFields host payload.toJson = .ok () := by
  have hnames : ∀ m ∈ payload.values, isPublicName m.1 = true := by
    intro m hm
    have hname : m.1 ∈ payload.phase.fields.map Field.name := by
      rw [← fits_names payload.fits]
      exact List.mem_map_of_mem hm
    obtain ⟨f, hf, hname⟩ := List.mem_map.mp hname
    rw [← hname]
    exact fields_public payload.phase f hf
  unfold rejectSecretFields CheckpointPayload.toJson secretField?
  rw [secretMember?_of_public hnames (fits_isScalar payload.fits)]

/-! Encoding -/

theorem encodeCheckpointPayload_eq (h : payload.toJson.bytes = some n) :
    ∃ text, payload.toJson.dumps = some text ∧
      encodeCheckpointPayload host payload maxBytes =
        if maxBytes < n then .error (.checkpointTooLarge maxBytes n)
        else .ok ⟨text, sha256Hex text, 1⟩ := by
  rw [← Json.utf8ByteSize_dumps, Option.map_eq_some_iff] at h
  obtain ⟨text, htext, rfl⟩ := h
  refine ⟨text, htext, ?_⟩
  simp only [encodeCheckpointPayload, rejectSecretFields_payload, canonicalJson, htext, utf8Length]
  rfl

/-- A payload that was encoded has a text, and it was within the limit. -/
theorem encodeCheckpointPayload_eq_ok {encoded : EncodedCheckpointPayload}
    (h : encodeCheckpointPayload host payload maxBytes = .ok encoded) :
    payload.toJson.dumps = some encoded.payloadJson ∧
      encoded.payloadHash = sha256Hex encoded.payloadJson ∧ encoded.schemaVersion = 1 := by
  cases hbytes : payload.toJson.bytes with
  | none =>
    rw [← Json.utf8ByteSize_dumps, Option.map_eq_none_iff] at hbytes
    simp only [encodeCheckpointPayload, rejectSecretFields_payload, canonicalJson, hbytes] at h
    cases h
  | some n =>
    obtain ⟨text, htext, hencode⟩ := encodeCheckpointPayload_eq hbytes
    rw [hencode] at h
    split at h <;> cases h
    exact ⟨htext, rfl, rfl⟩

/-! Validation -/

theorem modelValidate_eq {data : List (PyStr × Json)}
    (hkeys : (data.all fun m => phase.fields.any fun f => m.1 == .text f.name) = true)
    (hread : phase.fields.mapM (·.read data) = some values) :
    phase.modelValidate data =
      if h : CheckpointPhase.fits phase.fields values = true ∧ phase.consistent values = true then
        some ⟨phase, values, h.1, h.2⟩
      else none := by
  rw [CheckpointPhase.modelValidate, if_pos hkeys, hread]

theorem read_fields {data : List (PyStr × Json)}
    (hfits : CheckpointPhase.fits fields values = true)
    (hlookup : ∀ m ∈ values, data.lookup (.text m.1) = some m.2) :
    fields.mapM (·.read data) = some values := by
  induction fields generalizing values with
  | nil =>
    cases values with
    | nil => rfl
    | cons m values => cases hfits
  | cons f fields ih =>
    cases values with
    | nil => cases hfits
    | cons m values =>
      simp only [CheckpointPhase.fits, Bool.and_eq_true, beq_iff_eq] at hfits
      simp only [List.forall_mem_cons] at hlookup
      rw [List.mapM_cons, ih hfits.2 hlookup.2]
      simp [Field.read, hfits.1.1, hlookup.1]

/-- A dictionary with the values of a payload, in any order, validates to the payload. -/
theorem modelValidate_payload (payload : CheckpointPayload) {data : List (PyStr × Json)}
    (hlookup : ∀ m ∈ payload.values, data.lookup (.text m.1) = some m.2)
    (hkeys : ∀ m ∈ data, ∃ v ∈ payload.values, m.1 = .text v.1) :
    payload.phase.modelValidate data = some payload := by
  rw [modelValidate_eq ?_ (read_fields payload.fits hlookup),
    dif_pos ⟨payload.fits, payload.consistent⟩]
  rw [List.all_eq_true]
  intro m hm
  obtain ⟨v, hv, hm⟩ := hkeys m hm
  have hname : v.1 ∈ payload.phase.fields.map Field.name := by
    rw [← fits_names payload.fits]
    exact List.mem_map_of_mem hv
  obtain ⟨f, hf, hname⟩ := List.mem_map.mp hname
  rw [List.any_eq_true]
  exact ⟨f, hf, by simp [hm, hname]⟩

/-! Decoding -/

theorem lookup_eq_some_of_mem {α β : Type} [BEq α] [LawfulBEq α] {ms : List (α × β)}
    (hkeys : (ms.map Prod.fst).Nodup) {k : α} {v : β} (h : (k, v) ∈ ms) :
    ms.lookup k = some v := by
  induction ms with
  | nil => cases h
  | cons m ms ih =>
    rw [List.map_cons, List.nodup_cons] at hkeys
    rw [List.lookup_cons]
    rcases List.mem_cons.mp h with rfl | h
    · simp
    · have hne : (k == m.1) = false := by
        rw [beq_eq_false_iff_ne]
        rintro rfl
        exact hkeys.1 (List.mem_map.mpr ⟨_, h, rfl⟩)
      rw [hne]
      exact ih hkeys.2 h

theorem isScalar_spec {v : Json} (h : isScalar v = true) :
    v.plain = true ∧ v.depth = 0 ∧ v.canonical = v := by
  unfold isScalar at h
  split at h <;> first | exact ⟨rfl, rfl, rfl⟩ | cases h

theorem plainMembers_of_isScalar {ms : List (PyStr × Json)}
    (h : ∀ m ∈ ms, isScalar m.2 = true) :
    Json.plainMembers ms = true ∧ Json.depthMembers ms = 0 ∧ Json.canonicalMembers ms = ms := by
  induction ms with
  | nil => exact ⟨rfl, rfl, rfl⟩
  | cons m ms ih =>
    simp only [List.forall_mem_cons] at h
    obtain ⟨hplain, hdepth, hcanonical⟩ := isScalar_spec h.1
    obtain ⟨ihplain, ihdepth, ihcanonical⟩ := ih h.2
    obtain ⟨k, v⟩ := m
    simp_all [Json.plainMembers, Json.depthMembers, Json.canonicalMembers]

namespace CheckpointPayload

/-- The members of the payload's dictionary. -/
def members (payload : CheckpointPayload) : List (PyStr × Json) :=
  payload.values.map fun m => (.text m.1, m.2)

theorem toJson_eq (payload : CheckpointPayload) : payload.toJson = .obj payload.members := rfl

theorem members_keys_nodup (payload : CheckpointPayload) :
    (payload.members.map Prod.fst).Nodup := by
  have hkeys : payload.members.map Prod.fst = (payload.values.map Prod.fst).map .text := by
    simp [members]
  rw [hkeys, fits_names payload.fits]
  refine (fields_nodup payload.phase).map ?_
  intro a b hab
  injection hab

theorem members_isScalar (payload : CheckpointPayload) :
    ∀ m ∈ payload.members, isScalar m.2 = true := by
  intro m hm
  obtain ⟨v, hv, rfl⟩ := List.mem_map.mp hm
  exact fits_isScalar payload.fits v hv

/-- A stored payload reads back as a dictionary with the payload's values. -/
theorem loads_dumps (payload : CheckpointPayload) {text : String}
    (h : payload.toJson.dumps = some text) :
    ∃ data, Json.loads host.recursionLimit text = .ok (.obj data) ∧
      data.Perm payload.members := by
  obtain ⟨hplain, hdepth, hcanonical⟩ := plainMembers_of_isScalar payload.members_isScalar
  have hjson : payload.toJson.plain = true := by
    rw [toJson_eq, Json.plain, hplain, Bool.and_true, decide_eq_true_eq]
    exact payload.members_keys_nodup
  have hlimit : payload.toJson.depth ≤ host.recursionLimit := by
    rw [toJson_eq, Json.depth, hdepth]
    exact le_trans (by decide) host.recursionLimit_ge
  have hloads := Json.loads_dumps hjson hlimit h
  rw [toJson_eq, Json.canonical, hcanonical] at hloads
  exact ⟨_, hloads, List.perm_insertionSort _ _⟩

theorem modelValidate_perm (payload : CheckpointPayload) {data : List (PyStr × Json)}
    (hdata : data.Perm payload.members) : payload.phase.modelValidate data = some payload := by
  refine modelValidate_payload payload ?_ ?_
  · intro m hm
    refine lookup_eq_some_of_mem ?_ (hdata.mem_iff.mpr (List.mem_map_of_mem hm))
    exact (hdata.map Prod.fst).nodup_iff.mpr payload.members_keys_nodup
  · intro m hm
    obtain ⟨v, hv, rfl⟩ := List.mem_map.mp (hdata.mem_iff.mp hm)
    exact ⟨v, hv, rfl⟩

theorem schemaVersion_mem (payload : CheckpointPayload) :
    (.text "schema_version", .int 1) ∈ payload.members := by
  have hfits := payload.fits
  rw [CheckpointPhase.fields, List.cons_append] at hfits
  unfold members
  generalize payload.values = values at hfits
  match values, hfits with
  | m :: values, hfits =>
    simp only [CheckpointPhase.fits, Bool.and_eq_true, beq_iff_eq] at hfits
    obtain ⟨⟨hname, haccepts⟩, -⟩ := hfits
    obtain ⟨name, v⟩ := m
    have hv : v = .int 1 := by
      unfold FieldKind.accepts at haccepts
      split at haccepts <;> simp_all
    exact List.mem_map.mpr ⟨(name, v), by simp, by simp [hv, show name = _ from hname.symm]⟩

end CheckpointPayload

theorem parsePhase_value (phase : CheckpointPhase) : parsePhase host phase.value = .ok phase := by
  cases phase <;> rfl

/-- Decoding a row that holds an encoded payload gives the payload, if the row's scope fits. -/
theorem decodeCheckpoint_encoded {checkpoint : CheckpointRow} {encoded : EncodedCheckpointPayload}
    (hencode : encodeCheckpointPayload host payload maxBytes = .ok encoded)
    (hjson : checkpoint.payloadJson = encoded.payloadJson)
    (hhash : checkpoint.payloadHash = encoded.payloadHash)
    (hversion : checkpoint.schemaVersion = encoded.schemaVersion)
    (hphase : checkpoint.phase = payload.phase.value) :
    decodeCheckpoint host checkpoint =
      (validateCheckpointScope checkpoint payload).map fun _ => payload := by
  obtain ⟨htext, hsha, hone⟩ := encodeCheckpointPayload_eq_ok hencode
  obtain ⟨data, hloads, hdata⟩ : ∃ data, Json.loads host.recursionLimit encoded.payloadJson =
      .ok (.obj data) ∧ data.Perm payload.members := payload.loads_dumps htext
  have hschema : data.lookup (.text "schema_version") = some (.int 1) :=
    lookup_eq_some_of_mem ((hdata.map Prod.fst).nodup_iff.mpr payload.members_keys_nodup)
      (hdata.mem_iff.mpr payload.schemaVersion_mem)
  have hone' : checkpoint.schemaVersion = 1 := hversion.trans hone
  simp only [decodeCheckpoint, hone', ne_eq, not_true_eq_false, if_false, decodeJsonObject, hjson,
    hloads, hphase, hhash, hsha]
  have hdigest : canonicalJson payload.toJson = .ok encoded.payloadJson := by
    rw [canonicalJson, htext]
  simp only [bind, Except.bind, hschema, parsePhase_value, payload.modelValidate_perm hdata,
    hdigest, rejectSecretFields_payload]
  cases validateCheckpointScope checkpoint payload <;> simp [isOne, Except.map, pure, Except.pure]

end MultiClaw
