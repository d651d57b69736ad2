import MultiClaw.Agent.Resumption
import MultiClaw.Base.Dicts
import MultiClaw.Base.JsonDump
import MultiClaw.Mcp.Arguments
import MultiClaw.Tools.Parameters

/-! Whether the recorded input of a tool call can be read back as the parameters it was made of. -/
namespace MultiClaw

open Base

variable {host : Host} {library : Pydantic} {args values data : Members}
  {input : CanonicalToolInput}

/-! The text -/

theorem secretMember?_eq_none_iff {ms : Members} : secretMember? host ms = none ↔
    ∀ m ∈ ms, isSecretKey host m.1 = false ∧ secretField? host m.2 = none := by
  induction ms with
  | nil => simp [secretMember?]
  | cons m ms ih =>
    rw [secretMember?, List.forall_mem_cons, ← ih]
    cases isSecretKey host m.1 <;> simp

mutual

/-- The order of the members does not matter to the names that are refused. -/
theorem secretField?_canonical : ∀ {v : Json}, secretField? host v = none →
    secretField? host v.canonical = none
  | .arr vs, h => secretItem?_canonical h
  | .obj ms, h => by
    have hcanonical := secretMember?_eq_none_iff.mp (secretMember?_canonical h)
    refine secretMember?_eq_none_iff.mpr fun m hm => hcanonical m ?_
    exact (List.perm_insertionSort _ _).mem_iff.mp hm
  | .null, h | .bool _, h | .int _, h | .float _, h | .str _, h => h

theorem secretItem?_canonical : ∀ {vs : List Json}, secretItem? host vs = none →
    secretItem? host (Json.canonicalItems vs) = none
  | [], _ => rfl
  | v :: vs, h => by
    rw [secretItem?, Option.or_eq_none_iff] at h
    rw [Json.canonicalItems, secretItem?, Option.or_eq_none_iff]
    exact ⟨secretField?_canonical h.1, secretItem?_canonical h.2⟩

theorem secretMember?_canonical : ∀ {ms : Members}, secretMember? host ms = none →
    secretMember? host (Json.canonicalMembers ms) = none
  | [], _ => rfl
  | (k, v) :: ms, h => by
    rw [secretMember?] at h
    rw [Json.canonicalMembers, secretMember?]
    split_ifs at h ⊢
    rw [Option.or_eq_none_iff] at h ⊢
    exact ⟨secretField?_canonical h.1, secretMember?_canonical h.2⟩

end

/-- The members that reading a recorded input gives. -/
def recordedMembers (values : Members) : Members :=
  (Json.canonicalMembers values).insertionSort fun a b => Json.keyLe a b

theorem canonicalizeInput_eq_ok (h : CoreToolScheduler.canonicalizeInput host values = .ok input) :
    secretField? host (.obj values) = none ∧ (Json.obj values).dumps = some input.payloadJson ∧
      input.payloadHash = sha256Hex input.payloadJson ∧
      utf8Length input.payloadJson ≤ CoreToolScheduler.maxCanonicalInputBytes := by
  unfold CoreToolScheduler.canonicalizeInput at h
  split at h
  · cases h
  · rename_i hsecret
    obtain ⟨text, htext, h⟩ := bind_eq_ok.mp h
    unfold canonicalJson at htext
    split at htext <;> cases htext
    split at h <;> cases h
    exact ⟨hsecret, by assumption, rfl, Nat.le_of_not_lt (by assumption)⟩

theorem canonicalizeInput_of_dumps {text : String}
    (hsecret : secretField? host (.obj values) = none)
    (htext : (Json.obj values).dumps = some text)
    (hlength : utf8Length text ≤ CoreToolScheduler.maxCanonicalInputBytes) :
    CoreToolScheduler.canonicalizeInput host values = .ok ⟨text, sha256Hex text⟩ := by
  simp only [CoreToolScheduler.canonicalizeInput, hsecret, canonicalJson, htext]
  exact if_neg (by omega)

/-- What was recorded is read back, up to the order of the members. -/
theorem loads_recorded (h : CoreToolScheduler.canonicalizeInput host values = .ok input)
    (hproper : (Json.obj values).proper = true)
    (hdepth : (Json.obj values).depth ≤ host.recursionLimit) :
    Json.loads host.recursionLimit input.payloadJson = .ok (.obj (recordedMembers values)) :=
  Json.loads_dumps_of_proper hproper hdepth (canonicalizeInput_eq_ok h).2.1

theorem validatedExecutionInput_recorded
    (h : CoreToolScheduler.canonicalizeInput host values = .ok input)
    (hproper : (Json.obj values).proper = true)
    (hdepth : (Json.obj values).depth ≤ host.recursionLimit) :
    validatedExecutionInput host input.payloadJson input.payloadHash = .ok input.payloadJson := by
  obtain ⟨hsecret, htext, hhash, -⟩ := canonicalizeInput_eq_ok h
  have hagain : (Json.obj (recordedMembers values)).dumps = some input.payloadJson :=
    Json.dumps_canonical htext
  have hclean : secretField? host (.obj (recordedMembers values)) = none :=
    secretField?_canonical hsecret
  simp only [validatedExecutionInput, decodeJsonObject, loads_recorded h hproper hdepth,
    rejectSecretFields, hclean, canonicalJson, hagain, hhash, bind, Except.bind]
  simp [pure, Except.pure]

/-! The parameters -/

theorem lookup_recordedMembers (hkeys : (values.map Prod.fst).Nodup) (key : PyStr) :
    (recordedMembers values).lookup key = (values.lookup key).map Json.canonical := by
  have hperm : (recordedMembers values).Perm (values.map fun m => (m.1, m.2.canonical)) := by
    rw [← Json.canonicalMembers_eq]
    exact List.perm_insertionSort _ _
  have hnodup : ((recordedMembers values).map Prod.fst).Nodup := by
    refine ((hperm.map Prod.fst).nodup_iff).mpr ?_
    rwa [List.map_map]
  cases hfound : values.lookup key with
  | none =>
    rw [lookup_eq_none_iff_notMem] at hfound
    rw [Option.map_none, lookup_eq_none_iff_notMem, (hperm.map Prod.fst).mem_iff, List.map_map]
    exact hfound
  | some v =>
    refine lookup_of_mem hnodup (hperm.mem_iff.mpr ?_)
    exact List.mem_map.mpr ⟨(key, v), mem_of_lookup hfound, rfl⟩

theorem canonical_of_exact {t : PyType} {w : Json} (hscalar : t.isScalar = true)
    (h : t.exact w = true) : w.canonical = w := by
  unfold PyType.exact at h
  split at h <;> first | rfl | cases hscalar | cases h

theorem ne_null_of_exact {t : PyType} {w : Json} (h : t.exact w = true) : w ≠ .null := by
  rintro rfl
  cases t <;> cases h

theorem validateField_again {t : PyType} {v w : Json} (hscalar : t.isScalar = true)
    (h : library.validateField t v = some w) :
    w.canonical = w ∧ library.validateField t w = some w := by
  have hexact := exact_of_validateField h
  exact ⟨canonical_of_exact hscalar hexact, if_pos hexact⟩

/-- A value that a field has taken is taken again, as it is. -/
theorem ScalarField.take_again {f : ScalarField} {v w : Json} (h : f.take library v = some w) :
    w.canonical = w ∧ f.take library w = some w := by
  unfold ScalarField.take at h
  split at h
  · rename_i hnullable
    cases h
    exact ⟨rfl, by simp [ScalarField.take, hnullable]⟩
  · obtain ⟨hvalid, hholds⟩ := Option.filter_eq_some_iff.mp h
    obtain ⟨hcanonical, hagain⟩ := validateField_again f.isScalar hvalid
    refine ⟨hcanonical, ?_⟩
    unfold ScalarField.take
    split
    · exact absurd rfl (ne_null_of_exact (exact_of_validateField hvalid))
    · rw [hagain, Option.filter_some, if_pos hholds]

theorem readField_eq_some {name : String} {default : Option Json} {take : Json → Option Json}
    {m : PyStr × Json} (h : readField name default take args = some m) :
    m.1 = .text name ∧ ((∃ v, args.lookup (.text name) = some v ∧ take v = some m.2) ∨
      args.lookup (.text name) = none ∧ default = some m.2) := by
  obtain ⟨w, hw, rfl⟩ := Option.map_eq_some_iff.mp h
  refine ⟨rfl, ?_⟩
  cases hfound : args.lookup (.text name) with
  | none => exact .inr ⟨rfl, by simpa [hfound] using hw⟩
  | some v => exact .inl ⟨v, rfl, by simpa [hfound] using hw⟩

/-- Fields that take what they printed read the same members from it. -/
theorem readFields_again {F : Type} {fields : List F} {name : F → String}
    {default : F → Option Json} {take : F → Json → Option Json}
    (hvalues : fields.mapM (fun f => readField (name f) (default f) (take f) args) = some values)
    (hkeys : (values.map Prod.fst).Nodup)
    (hdata : ∀ key, data.lookup key = (values.lookup key).map Json.canonical)
    (htake : ∀ f ∈ fields, ∀ m ∈ values,
      readField (name f) (default f) (take f) args = some m → take f m.2.canonical = some m.2) :
    fields.mapM (fun f => readField (name f) (default f) (take f) data) = some values := by
  rw [mapM_eq_some_iff] at hvalues ⊢
  have hread : ∀ f ∈ fields, ∀ m ∈ values,
      readField (name f) (default f) (take f) args = some m →
        readField (name f) (default f) (take f) data = some m := by
    rintro f hf ⟨key, w⟩ hm hargs
    obtain rfl := (readField_eq_some hargs).1
    rw [readField, hdata, lookup_of_mem hkeys hm, Option.map_some, Option.elim_some,
      htake f hf _ hm hargs, Option.map_some]
  clear hkeys hdata htake
  induction hvalues with
  | nil => exact .nil
  | @cons f m fields values hargs _ ih =>
    refine .cons (hread f List.mem_cons_self m List.mem_cons_self hargs) (ih ?_)
    intro g hg n hn
    exact hread g (List.mem_cons_of_mem f hg) n (List.mem_cons_of_mem m hn)

theorem mapM_canonicalItems {take : Json → Option Json} {items ws : List Json}
    (hitems : items.mapM take = some ws)
    (htake : ∀ v ∈ items, ∀ w ∈ ws, take v = some w → take w.canonical = some w) :
    (Json.canonicalItems ws).length = items.length ∧
      (Json.canonicalItems ws).mapM take = some ws := by
  have hall := mapM_eq_some_iff.mp hitems
  rw [Json.canonicalItems_eq, List.length_map, mapM_eq_some_iff, List.forall₂_map_left_iff,
    List.forall₂_same]
  refine ⟨hall.length_eq.symm, ?_⟩
  intro w hw
  obtain ⟨v, hv, hvw⟩ := Forall₂.exists_left hall hw
  exact htake v hv w hw hvw

/-- The default of a field that is left out is one that the field takes as it is. -/
def ScalarField.Restores (library : Pydantic) (args : Members) (f : ScalarField) : Prop :=
  args.lookup (.text f.name) = none → ∀ d ∈ f.default, f.take library d = some d

theorem ScalarField.take_read {f : ScalarField} {m : PyStr × Json}
    (h : f.read library args = some m) (hrestores : f.Restores library args) :
    f.take library m.2.canonical = some m.2 := by
  have htaken : ∃ v, f.take library v = some m.2 := by
    rcases (readField_eq_some h).2 with ⟨v, -, hv⟩ | ⟨hnone, hdefault⟩
    · exact ⟨v, hv⟩
    · exact ⟨m.2, hrestores hnone m.2 hdefault⟩
  obtain ⟨v, hv⟩ := htaken
  obtain ⟨hcanonical, hagain⟩ := ScalarField.take_again hv
  rw [hcanonical]
  exact hagain

theorem keys_nodup (h : (Json.obj values).proper = true) : (values.map Prod.fst).Nodup := by
  rw [Json.proper, Bool.and_eq_true, decide_eq_true_eq] at h
  exact h.1

theorem takeRecord_again {fields : List ScalarField} {v w : Json}
    (h : takeRecord library fields v = some w) (hproper : w.proper = true)
    (hrestores : ∀ members, v = .obj members → ∀ f ∈ fields, f.Restores library members) :
    takeRecord library fields w.canonical = some w := by
  unfold takeRecord at h
  split at h
  · next members =>
    obtain ⟨values, hvalues, rfl⟩ := Option.map_eq_some_iff.mp h
    have hkeys := keys_nodup hproper
    have hagain : fields.mapM (ScalarField.read library (recordedMembers values)) = some values :=
      readFields_again hvalues hkeys (lookup_recordedMembers hkeys) fun f hf m _ hm =>
        ScalarField.take_read hm (hrestores members rfl f hf)
    exact Option.map_eq_some_iff.mpr ⟨values, hagain, rfl⟩
  · cases h

/-- A default is only used where the field takes it as it is, also in the records of a list. -/
def ParamField.Restores (library : Pydantic) (args : Members) : ParamField → Prop
  | scalar f => f.Restores library args
  | texts .. => True
  | records name fields _ _ => ∀ items, args.lookup (.text name) = some (.arr items) →
    ∀ members, .obj members ∈ items → ∀ f ∈ fields, f.Restores library members

theorem ParamField.take_read {f : ParamField} {m : PyStr × Json}
    (h : f.read library args = some m) (hproper : m.2.proper = true)
    (hrestores : f.Restores library args) : f.take library m.2.canonical = some m.2 := by
  have hread := (readField_eq_some h).2
  cases f with
  | scalar f => exact ScalarField.take_read h hrestores
  | texts name atMost =>
    rcases hread with ⟨v, -, hv⟩ | ⟨-, hdefault⟩
    · cases v with
      | arr items =>
        simp only [take, Option.ite_none_right_eq_some, Option.map_eq_some_iff] at hv
        obtain ⟨hlength, ws, hws, hm⟩ := hv
        obtain ⟨hcount, hagain⟩ := mapM_canonicalItems hws fun v _ w _ hvw => by
          obtain ⟨hcanonical, hw⟩ := validateField_again rfl hvw
          rwa [hcanonical]
        rw [← hm, Json.canonical, take, hcount, if_pos hlength, hagain, Option.map_some]
      | _ => cases hv
    · rw [← Option.some.inj hdefault]
      rfl
  | records name fields atLeast atMost =>
    rcases hread with ⟨v, hgiven, hv⟩ | ⟨-, hdefault⟩
    · cases v with
      | arr items =>
        simp only [take, Option.ite_none_right_eq_some, Option.map_eq_some_iff] at hv
        obtain ⟨hlength, ws, hws, hm⟩ := hv
        rw [← hm] at hproper
        obtain ⟨hcount, hagain⟩ := mapM_canonicalItems hws fun v hv w hw hvw =>
          takeRecord_again hvw (Json.properItems_iff.mp hproper w hw) fun members hmembers =>
            hrestores items hgiven members (hmembers ▸ hv)
        rw [← hm, Json.canonical, take, hcount, if_pos hlength, hagain, Option.map_some]
      | _ => cases hv
    · cases hdefault

/-! The builders -/

theorem proper_of_mem (h : (Json.obj values).proper = true) {m : PyStr × Json} (hm : m ∈ values) :
    m.2.proper = true := by
  rw [Json.proper, Bool.and_eq_true, Json.properMembers_iff] at h
  exact h.2 m hm

theorem mem_keys_recordedMembers {key : PyStr} :
    key ∈ (recordedMembers values).map Prod.fst ↔ key ∈ values.map Prod.fst := by
  have hperm := List.perm_insertionSort (fun a b => Json.keyLe a b = true)
    (Json.canonicalMembers values)
  rw [recordedMembers, (hperm.map Prod.fst).mem_iff, Json.canonicalMembers_eq, List.map_map]
  rfl

theorem ParamsSchema.validate_recorded {schema : ParamsSchema}
    (h : schema.validate library args = some values) (hproper : (Json.obj values).proper = true)
    (hrestores : ∀ f ∈ schema.fields, f.Restores library args) :
    schema.validate library (recordedMembers values) = some values := by
  have hkeys := keys_nodup hproper
  simp only [validate, Option.ite_none_left_eq_some, Option.filter_eq_some_iff] at h ⊢
  obtain ⟨-, hvalues, hafter⟩ := h
  refine ⟨?_, ?_, hafter⟩
  · simp only [Bool.and_eq_true, List.any_eq_true, not_and, not_exists]
    rintro - m hm hall
    obtain ⟨n, hn, hkey⟩ := List.mem_map.mp
      (mem_keys_recordedMembers.mp (List.mem_map_of_mem hm))
    obtain ⟨f, hf, hread⟩ := Forall₂.exists_left (mapM_eq_some_iff.mp hvalues) hn
    have hname := of_decide_eq_true (List.all_eq_true.mp hall f hf)
    exact hname (hkey ▸ (readField_eq_some hread).1)
  · exact readFields_again hvalues hkeys (lookup_recordedMembers hkeys) fun f hf m hm hread =>
      ParamField.take_read hread (proper_of_mem hproper hm) (hrestores f hf)

/-- A number that is converted to an integer does not become greater than a bound. -/
def Pydantic.KeepsBounds (library : Pydantic) : Prop :=
  ∀ n v w, isNumber v = true → exceeds n v = false → library.coerce .int v = some w →
    exceeds n w = false

/-- The default of a field passes the field's own check. -/
def ScalarField.defaultTaken (f : ScalarField) : Bool :=
  match f.default with
  | none => true
  | some .null => f.nullable
  | some d => f.type.exact d && f.holds d

def ParamField.defaultsTaken : ParamField → Bool
  | scalar f => f.defaultTaken
  | texts .. => true
  | records _ fields _ _ => fields.all ScalarField.defaultTaken

theorem ScalarField.restores_of_defaultTaken {f : ScalarField} (h : f.defaultTaken = true) :
    f.Restores library args := by
  rintro - d hd
  rw [defaultTaken, Option.mem_def.mp hd] at h
  unfold take
  split
  · rfl
  · next hnull =>
    split at h
    · next heq => cases heq
    · next heq =>
      cases heq
      simp_all
    · next heq =>
      cases heq
      rw [Bool.and_eq_true] at h
      rw [Pydantic.validateField, if_pos h.1, Option.filter_some, if_pos h.2]

theorem ParamField.restores_of_defaultsTaken {f : ParamField} (h : f.defaultsTaken = true) :
    f.Restores library args := by
  cases f with
  | scalar f => exact ScalarField.restores_of_defaultTaken h
  | texts => trivial
  | records name fields =>
    exact fun _ _ _ _ f hf => ScalarField.restores_of_defaultTaken (List.all_eq_true.mp h f hf)

theorem webSearch_restores {f : ParamField} (hf : f ∈ ParamsSchema.webSearchParams.fields) :
    f.Restores library args := by
  have hall : ParamsSchema.webSearchParams.fields.all ParamField.defaultsTaken = true := by decide
  exact ParamField.restores_of_defaultsTaken (List.all_eq_true.mp hall f hf)

theorem overwrite_same {key : PyStr} {v : Json} (hkeys : (args.map Prod.fst).Nodup)
    (h : args.lookup key = some v) :
    (args.map fun m => if m.1 == key then (m.1, v) else m) = args := by
  have hall : ∀ m ∈ args, (if m.1 == key then (m.1, v) else m) = m := by
    rintro ⟨k, u⟩ hm
    split
    · next heq =>
      have hfound := lookup_of_mem hkeys hm
      obtain rfl : k = key := eq_of_beq heq
      rw [Option.some.inj (h.symm.trans hfound)]
    · rfl
  rw [List.map_congr_left hall, List.map_id']

/-- The web search asks for five results or fewer. -/
theorem capResults_lookup {capped : Members} (h : capResults args = some capped) :
    ∃ v, capped.lookup (.text "max_results") = some v ∧ isNumber v = true ∧
      exceeds 5 v = false := by
  unfold capResults at h
  split at h
  · next hnone =>
    cases h
    refine ⟨.int 5, ?_, rfl, rfl⟩
    rw [List.lookup_append, hnone]
    rfl
  · next v hgiven =>
    split at h
    · next hnumber =>
      cases h
      refine ⟨_, lookup_overwrite _ hgiven, ?_, ?_⟩
      · split
        · rfl
        · exact hnumber
      · split
        · rfl
        · next hle => exact Bool.eq_false_of_not_eq_true hle
    · cases h

theorem capResults_of_le {n : Int} (hkeys : (args.map Prod.fst).Nodup)
    (hgiven : args.lookup (.text "max_results") = some (.int n))
    (hle : exceeds 5 (.int n) = false) :
    capResults args = some args := by
  unfold capResults
  rw [hgiven]
  simp only [isNumber, if_true, hle, Bool.false_eq_true, if_false]
  rw [overwrite_same hkeys hgiven]

theorem keys_recordedMembers_nodup (hkeys : (values.map Prod.fst).Nodup) :
    ((recordedMembers values).map Prod.fst).Nodup := by
  have hperm := List.perm_insertionSort (fun a b => Json.keyLe a b = true)
    (Json.canonicalMembers values)
  refine ((hperm.map Prod.fst).nodup_iff).mpr ?_
  rw [Json.canonicalMembers_eq, List.map_map]
  exact hkeys

theorem exists_int_of_validateField (hbounds : library.KeepsBounds) {k : Nat} {v w : Json}
    (hnumber : isNumber v = true) (hle : exceeds k v = false)
    (h : library.validateField .int v = some w) : ∃ n, w = .int n ∧ exceeds k (.int n) = false := by
  have hbound : exceeds k w = false := by
    unfold Pydantic.validateField at h
    split at h
    · cases h
      exact hle
    · exact hbounds k v w hnumber hle h
  have hexact := exact_of_validateField h
  cases w with
  | int n => exact ⟨n, rfl, hbound⟩
  | _ => cases hexact

/-- The number of results that a web search was made with is not cut down again. -/
theorem webSearch_results (hbounds : library.KeepsBounds) {capped : Members}
    (hcapped : capResults args = some capped)
    (hvalues : ParamsSchema.webSearchParams.validate library capped = some values)
    (hkeys : (values.map Prod.fst).Nodup) :
    ∃ n, values.lookup (.text "max_results") = some (.int n) ∧ exceeds 5 (.int n) = false := by
  obtain ⟨v, hgiven, hnumber, hle⟩ := capResults_lookup hcapped
  simp only [ParamsSchema.validate, Option.ite_none_left_eq_some,
    Option.filter_eq_some_iff] at hvalues
  have hfield :
      ParamsSchema.defaultInt "max_results" 1 5 ∈ ParamsSchema.webSearchParams.fields := by
    simp [ParamsSchema.webSearchParams]
  obtain ⟨⟨key, w⟩, hm, hread⟩ := Forall₂.exists_right (mapM_eq_some_iff.mp hvalues.2.1) hfield
  obtain ⟨hkey, hread⟩ := readField_eq_some hread
  obtain rfl : key = .text "max_results" := hkey
  rcases hread with ⟨v', hgiven', htake⟩ | ⟨hnone, -⟩
  · obtain rfl := Option.some.inj (hgiven.symm.trans hgiven')
    obtain ⟨n, rfl, hn⟩ := exists_int_of_validateField hbounds hnumber hle
      (Option.filter_eq_some_iff.mp htake).1
    exact ⟨n, lookup_of_mem hkeys hm, hn⟩
  · cases hgiven.symm.trans hnone

theorem webSearch_recorded (hbounds : library.KeepsBounds)
    (h : ToolParams.webSearch.validate library args = some values)
    (hproper : (Json.obj values).proper = true) :
    ToolParams.webSearch.validate library (recordedMembers values) = some values := by
  obtain ⟨capped, hcapped, hvalues⟩ := Option.bind_eq_some_iff.mp h
  have hkeys := keys_nodup hproper
  obtain ⟨n, hresults, hle⟩ := webSearch_results hbounds hcapped hvalues hkeys
  have hrecorded : (recordedMembers values).lookup (.text "max_results") = some (.int n) := by
    rw [lookup_recordedMembers hkeys, hresults]
    rfl
  rw [ToolParams.validate, capResults_of_le (keys_recordedMembers_nodup hkeys) hrecorded hle,
    Option.bind_some]
  exact ParamsSchema.validate_recorded hvalues hproper fun _ => webSearch_restores

theorem ModelField.validate_eq_readField : ModelField.validate library args = fun f =>
    readField f.name (if f.required then none else some .null) (library.validateField f.type)
      args := by
  funext f
  unfold ModelField.validate readField
  cases args.lookup (.text f.name) with
  | none => cases f.required <;> rfl
  | some v => rfl

theorem ParamsModel.validate_recorded {fields : List ModelField}
    (hscalar : ∀ f ∈ fields, f.type.isScalar = true)
    (hgiven : ∀ f ∈ fields, f.required = false → (args.lookup (.text f.name)).isSome = true)
    (h : ParamsModel.validate library ⟨fields, false⟩ args = some values)
    (hproper : (Json.obj values).proper = true) :
    ParamsModel.validate library ⟨fields, false⟩ (recordedMembers values) = some values := by
  have hkeys := keys_nodup hproper
  simp only [validate, Bool.false_and, Bool.false_eq_true, if_false, Option.map_id',
    ModelField.validate_eq_readField] at h ⊢
  refine readFields_again h hkeys (lookup_recordedMembers hkeys) fun f hf m _ hread => ?_
  rcases (readField_eq_some hread).2 with ⟨v, -, hv⟩ | ⟨hnone, hdefault⟩
  · obtain ⟨hcanonical, hagain⟩ := validateField_again (hscalar f hf) hv
    rw [hcanonical]
    exact hagain
  · -- An optional field that was left out would have been given a null.
    have hsome := hgiven f hf
    rw [hnone] at hsome
    split at hdefault
    · cases hdefault
    · next hoptional => cases hsome (Bool.eq_false_of_not_eq_true hoptional)

theorem isScalar_of_hasFieldType {prop : Json} {t : PyType} (h : HasFieldType prop t) :
    t.isScalar = true := by
  obtain ⟨_, name, -, -, hname⟩ := h
  have hmem := mem_of_lookup hname
  simp only [fieldTypes, List.mem_cons, Prod.mk.injEq, List.not_mem_nil, or_false] at hmem
  rcases hmem with ⟨-, rfl⟩ | ⟨-, rfl⟩ | ⟨-, rfl⟩ | ⟨-, rfl⟩ <;> rfl

theorem isText_recorded (h : values.all (isText ·.1) = true) :
    (recordedMembers values).all (isText ·.1) = true := by
  rw [List.all_eq_true] at h ⊢
  intro m hm
  obtain ⟨n, hn, hkey⟩ := List.mem_map.mp (mem_keys_recordedMembers.mp (List.mem_map_of_mem hm))
  rw [← hkey]
  exact h n hn

/-- What the builder makes of the recorded members is what was recorded: the same members, or, where
they are passed through, the same up to their order. -/
theorem remote_recorded {schema : InputSchema}
    (hgiven : ∀ f ∈ (parametersSchema library schema).fields, f.required = false →
      (args.lookup (.text f.name)).isSome = true)
    (h : (parametersSchema library schema).validate library args = some values)
    (hproper : (Json.obj values).proper = true) :
    ∃ values', (parametersSchema library schema).validate library (recordedMembers values) =
      some values' ∧ (values' = values ∨ values' = recordedMembers values) := by
  by_cases hpasses : schema.Passes
  · rw [parametersSchema_of_passes hpasses, validate_passthrough] at h ⊢
    obtain ⟨htext, ⟨⟩⟩ := Option.ite_none_right_eq_some.mp h
    exact ⟨_, if_pos (isText_recorded htext), .inr rfl⟩
  by_cases htyped : ∃ properties, schema.Typed library properties
  · obtain ⟨properties, htyped⟩ := htyped
    obtain ⟨fields, hmodel, hfields⟩ := parametersSchema_of_typed htyped
    rw [hmodel] at h hgiven ⊢
    have hscalar : ∀ f ∈ fields, f.type.isScalar = true := by
      intro f hf
      obtain ⟨p, -, hp⟩ := Forall₂.exists_left hfields hf
      exact isScalar_of_hasFieldType hp.type_eq
    exact ⟨values, ParamsModel.validate_recorded hscalar hgiven h hproper, .inl rfl⟩
  · rw [parametersSchema_of_neither hpasses (not_exists.mp htyped), validate_empty] at h ⊢
    exact ⟨[], rfl, .inl (Option.some.inj h)⟩

/-- Every parameter that the call leaves out has a default that the builder takes as it is. The null
that stands for an optional parameter of a remote tool is not. -/
def ToolParams.Restores (library : Pydantic) (args : Members) : ToolParams → Prop
  | typed schema => ∀ f ∈ schema.fields, f.Restores library args
  | webSearch => True
  | remote schema => ∀ f ∈ (parametersSchema library schema).fields, f.required = false →
    (args.lookup (.text f.name)).isSome = true

theorem native_defaultsTaken (subagentMaxTasks : Nat) :
    (ParamsSchema.native subagentMaxTasks).all (fun tool =>
      tool.1 == "agent_wait" || tool.2.fields.all ParamField.defaultsTaken) = true := by
  rfl

/-- The native tools take their defaults, but for the timeout of a wait: an integer, which is read
back as a floating point number. -/
theorem ToolParams.restores_native (subagentMaxTasks : Nat) {name : String} {schema : ParamsSchema}
    (hnative : (name, schema) ∈ ParamsSchema.native subagentMaxTasks)
    (hname : name ≠ "agent_wait") :
    (ToolParams.typed schema).Restores library args := by
  have htool := List.all_eq_true.mp (native_defaultsTaken subagentMaxTasks) _ hnative
  rw [Bool.or_eq_true, beq_iff_eq, List.all_eq_true] at htool
  exact fun f hf => ParamField.restores_of_defaultsTaken (htool.resolve_left hname f hf)

theorem ToolParams.validate_recorded {params : ToolParams} (hbounds : library.KeepsBounds)
    (hrestores : params.Restores library args) (h : params.validate library args = some values)
    (hproper : (Json.obj values).proper = true) :
    ∃ values', params.validate library (recordedMembers values) = some values' ∧
      (values' = values ∨ values' = recordedMembers values) := by
  cases params with
  | typed schema => exact ⟨values, ParamsSchema.validate_recorded h hproper hrestores, .inl rfl⟩
  | webSearch => exact ⟨values, webSearch_recorded hbounds h hproper, .inl rfl⟩
  | remote schema => exact remote_recorded hrestores h hproper

/-- The recorded input is accepted, and the builder makes of it the parameters of the call, up to
the order of their members. -/
def RestoresCall (host : Host) (library : Pydantic) (params : ToolParams) (values : Members)
    (input : CanonicalToolInput) : Prop :=
  validatedExecutionInput host input.payloadJson input.payloadHash = .ok input.payloadJson ∧
    ∃ data again, Json.loads host.recursionLimit input.payloadJson = .ok (.obj data) ∧
      params.validate library data = some again ∧
      (Json.obj again).canonical = (Json.obj values).canonical

def sampleSearchValues : Members :=
  [(.text "pattern", .str (.text "src")), (.text "path", .null), (.text "max_depth", .int 5)]

def sampleForecastValues : Members := [(.text "city", .str (.text "Oslo")), (.text "days", .null)]

def sampleForecastText : String := "\x7b\"city\":\"Oslo\",\"days\":null\x7d"

theorem canonicalizeInput_forecast :
    CoreToolScheduler.canonicalizeInput .ascii sampleForecastValues =
      .ok ⟨sampleForecastText, sha256Hex sampleForecastText⟩ :=
  canonicalizeInput_of_dumps (by decide +kernel) (by decide +kernel) (by decide +kernel)

end MultiClaw
