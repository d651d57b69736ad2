import MultiClaw.Base.Dicts
import MultiClaw.Mcp.ToolAdapter

/-! Whether the arguments of a remote tool arrive as they were given. -/
namespace MultiClaw

open Base

variable {library : Pydantic} {schema : InputSchema} {args values : Members} {prop : Json}
  {t : PyType} {f : ModelField} {fields : List ModelField} {properties : Members}

/-! Schemas -/

def InputSchema.properties? (schema : InputSchema) : Option Members :=
  match schema.members.lookup (.text "properties") with
  | some (.obj properties) => some properties
  | _ => none

/-- The required names are a list without lists or dictionaries, or are not given. -/
def InputSchema.RequiredListed (schema : InputSchema) : Prop :=
  ∃ names, requiredNames ((schema.members.lookup (.text "required")).getD (.arr [])) = .ok names

def fieldTypes : List (String × PyType) :=
  [("string", .str), ("integer", .int), ("number", .float), ("boolean", .bool)]

/-- The property names one of four types; without a type it counts as a string. -/
def HasFieldType (prop : Json) (t : PyType) : Prop :=
  ∃ members name, prop = .obj members ∧ typeOf members = .str (.text name) ∧
    fieldTypes.lookup name = some t

/-- The property names one type, which is none of the four. -/
def HasOtherType (prop : Json) : Prop :=
  (∃ members, prop = .obj members ∧ (∀ items, typeOf members ≠ .arr items) ∧
    ∀ inner, typeOf members ≠ .obj inner) ∧ ∀ t, ¬HasFieldType prop t

/-- A property of another type comes before any that has a list of types or is no object. -/
def InputSchema.Passes (schema : InputSchema) : Prop :=
  schema.RequiredListed ∧ ∃ before prop after,
    schema.properties? = some (before ++ prop :: after) ∧
      (∀ p ∈ before, ∃ t, HasFieldType p.2 t) ∧ HasOtherType prop.2

/-- There are properties, and each has one of the four types and a name that a field may have. -/
structure InputSchema.Typed (library : Pydantic) (schema : InputSchema) (properties : Members) :
    Prop where
  listed : schema.RequiredListed
  properties_eq : schema.properties? = some properties
  ne_nil : properties ≠ []
  field : ∀ p ∈ properties, ∃ name t, p.1 = .text name ∧ library.allowsField name = true ∧
    HasFieldType p.2 t

theorem fieldTypes_lookup (name : String) : fieldTypes.lookup name =
    if name ≠ "object" && name ≠ "array" then jsonTypeMap.lookup name else none := by
  simp only [fieldTypes, jsonTypeMap, List.lookup_cons, List.lookup_nil]
  by_cases harray : name = "array"
  · subst harray
    decide
  by_cases hobject : name = "object"
  · subst hobject
    decide
  have h₁ : (name == "array") = false := by simpa using harray
  have h₂ : (name == "object") = false := by simpa using hobject
  simp [harray, hobject, h₁, h₂]

theorem isSimpleSchema_eq_true_iff :
    isSimpleSchema prop = .ok true ↔ ∃ t, HasFieldType prop t := by
  cases prop with
  | obj members =>
    simp only [isSimpleSchema, HasFieldType, Json.obj.injEq]
    constructor
    · intro h
      split at h
      · next name htype =>
        have hname : (fieldTypes.lookup name).isSome = true := by
          rw [fieldTypes_lookup]
          split
          · simp_all
          · simp_all
        obtain ⟨t, ht⟩ := Option.isSome_iff_exists.mp hname
        exact ⟨t, members, name, rfl, htype, ht⟩
      · cases h
      · cases h
      · cases h
    · rintro ⟨t, _, name, rfl, htype, hname⟩
      rw [fieldTypes_lookup] at hname
      simp only [htype]
      split at hname
      · simp_all
      · cases hname
  | _ => simp [isSimpleSchema, HasFieldType]

theorem isSimpleSchema_eq_false_iff : isSimpleSchema prop = .ok false ↔ HasOtherType prop := by
  have htrue : isSimpleSchema prop = .ok true ↔ ∃ t, HasFieldType prop t :=
    isSimpleSchema_eq_true_iff
  rw [HasOtherType, ← not_exists, ← htrue]
  cases prop with
  | obj members =>
    cases htype : typeOf members with
    | str s =>
      cases s with
      | text name =>
        simp only [isSimpleSchema, htype]
        generalize (_ && _ && _ : Bool) = simple
        cases simple <;> simp [htype]
      | lone => simp [isSimpleSchema, htype]
    | _ => simp [isSimpleSchema, htype]
  | _ => simp [isSimpleSchema]

theorem allSimple_eq_true_iff : allSimple (properties.map Prod.snd) = .ok true ↔
    ∀ p ∈ properties, ∃ t, HasFieldType p.2 t := by
  induction properties with
  | nil => simp [allSimple]
  | cons p properties ih =>
    rw [List.map_cons, allSimple, List.forall_mem_cons, ← isSimpleSchema_eq_true_iff, ← ih]
    split <;> simp_all

theorem allSimple_eq_false_iff : allSimple (properties.map Prod.snd) = .ok false ↔
    ∃ before prop after, properties = before ++ prop :: after ∧
      (∀ p ∈ before, ∃ t, HasFieldType p.2 t) ∧ HasOtherType prop.2 := by
  induction properties with
  | nil => simp [allSimple]
  | cons p properties ih =>
    rw [List.map_cons, allSimple]
    constructor
    · intro h
      split at h
      · next hp =>
        obtain ⟨before, prop, after, rfl, hbefore, hprop⟩ := ih.mp h
        refine ⟨p :: before, prop, after, rfl, ?_, hprop⟩
        exact List.forall_mem_cons.mpr ⟨isSimpleSchema_eq_true_iff.mp hp, hbefore⟩
      · next hp => exact ⟨[], p, properties, rfl, by simp, isSimpleSchema_eq_false_iff.mp hp⟩
      · cases h
    · rintro ⟨before, prop, after, heq, hbefore, hprop⟩
      cases before with
      | nil =>
        obtain ⟨rfl, rfl⟩ := List.cons.inj heq
        rw [isSimpleSchema_eq_false_iff.mpr hprop]
      | cons q before =>
        obtain ⟨rfl, rfl⟩ := List.cons.inj heq
        obtain ⟨hp, hbefore⟩ := List.forall_mem_cons.mp hbefore
        rw [isSimpleSchema_eq_true_iff.mpr hp]
        exact ih.mpr ⟨before, prop, after, rfl, hbefore, hprop⟩

/-! Compiled models -/

/-- The field of a property. -/
structure FieldOf (p : PyStr × Json) (f : ModelField) : Prop where
  name_eq : p.1 = .text f.name
  type_eq : HasFieldType p.2 f.type

theorem jsonTypeToPython_eq {members : Members} (h : HasFieldType (.obj members) t) :
    jsonTypeToPython members = t := by
  obtain ⟨_, name, ⟨rfl⟩, htype, hname⟩ := h
  rw [fieldTypes_lookup] at hname
  split at hname
  · next hsimple =>
    simp only [jsonTypeToPython, htype]
    split
    · simp_all
    · simp_all
    · simp_all
    · simp_all
  · cases hname

theorem fieldOf_of_modelField {required : List PyStr} {p : PyStr × Json}
    (hp : ∃ t, HasFieldType p.2 t) (h : modelField required p = some f) : FieldOf p f := by
  obtain ⟨key, prop⟩ := p
  obtain ⟨t, ht⟩ := hp
  cases key with
  | lone => simp [modelField] at h
  | text name =>
    obtain ⟨members, _, rfl, -⟩ := id ht
    cases h
    exact ⟨rfl, by rw [jsonTypeToPython_eq ht]; exact ht⟩

theorem modelField_of_text {required : List PyStr} {name : String} (hp : HasFieldType prop t) :
    ∃ f, modelField required (.text name, prop) = some f ∧ f.name = name := by
  obtain ⟨members, _, rfl, -⟩ := hp
  exact ⟨_, rfl, rfl⟩

theorem fieldsOf_of_mapM {required : List PyStr}
    (hfields : ∀ p ∈ properties, ∃ t, HasFieldType p.2 t)
    (h : properties.mapM (modelField required) = some fields) :
    List.Forall₂ FieldOf properties fields := by
  have hmap := mapM_eq_some_iff.mp h
  clear h
  induction hmap with
  | nil => exact .nil
  | cons hp _ ih =>
    obtain ⟨hhead, htail⟩ := List.forall_mem_cons.mp hfields
    exact .cons (fieldOf_of_modelField hhead hp) (ih htail)

/-- Properties of the four types are compiled to fields when all their names are allowed. -/
theorem createModel_cases (library : Pydantic) (required : List PyStr)
    (hfields : ∀ p ∈ properties, ∃ t, HasFieldType p.2 t) :
    (∃ fields, createModel library required properties = .ok ⟨fields, false⟩ ∧
      List.Forall₂ FieldOf properties fields ∧
      ∀ f ∈ fields, library.allowsField f.name = true) ∨
    ((∃ e, createModel library required properties = .error e) ∧
      ∃ p ∈ properties, ∀ name, p.1 = .text name → library.allowsField name = false) := by
  unfold createModel
  cases hmap : properties.mapM (modelField required) with
  | none =>
    obtain ⟨⟨key, prop⟩, hp, hnone⟩ := exists_of_mapM_eq_none hmap
    refine .inr ⟨⟨.name, rfl⟩, ⟨key, prop⟩, hp, ?_⟩
    rintro name rfl
    obtain ⟨t, ht⟩ := hfields _ hp
    obtain ⟨f, hf, -⟩ : ∃ f, modelField required (.text name, prop) = some f ∧ f.name = name :=
      modelField_of_text ht
    rw [hnone] at hf
    cases hf
  | some fields =>
    have hfieldsOf := fieldsOf_of_mapM hfields hmap
    dsimp only
    split
    · next hall => exact .inl ⟨fields, rfl, hfieldsOf, List.all_eq_true.mp hall⟩
    · next hall =>
      obtain ⟨f, hf, hrefused⟩ : ∃ f ∈ fields, library.allowsField f.name = false := by
        simpa using hall
      obtain ⟨p, hp, hpf⟩ := Forall₂.exists_left hfieldsOf hf
      refine .inr ⟨⟨.name, rfl⟩, p, hp, ?_⟩
      intro name hname
      rw [hpf.name_eq] at hname
      cases hname
      exact hrefused

theorem lookup_of_properties? (h : schema.properties? = some properties) :
    schema.members.lookup (.text "properties") = some (.obj properties) := by
  unfold InputSchema.properties? at h
  split at h
  · next hlookup =>
    cases h
    exact hlookup
  · cases h

theorem jsonSchemaToPydantic_eq {names : List PyStr}
    (hnames : requiredNames ((schema.members.lookup (.text "required")).getD (.arr [])) = .ok names)
    (hproperties : schema.properties? = some properties) (hne : properties ≠ []) :
    jsonSchemaToPydantic library schema =
      match allSimple (properties.map Prod.snd) with
      | .ok true => createModel library names properties
      | .ok false => .ok .passthrough
      | .error e => .error e := by
  have hlookup := lookup_of_properties? hproperties
  obtain ⟨p, rest, rfl⟩ := List.exists_cons_of_ne_nil hne
  simp only [jsonSchemaToPydantic, hnames, hlookup, Option.getD_some, bind, Except.bind]
  cases allSimple ((p :: rest).map Prod.snd) with
  | error e => rfl
  | ok simple => cases simple <;> rfl

/-- Without a list of names, without properties or with none, a model ignores its arguments. -/
theorem parametersSchema_eq_empty
    (h : ∀ properties, schema.RequiredListed → schema.properties? = some properties →
      properties = []) : parametersSchema library schema = .empty := by
  unfold parametersSchema jsonSchemaToPydantic
  cases hnames : requiredNames ((schema.members.lookup (.text "required")).getD (.arr [])) with
  | error e => rfl
  | ok names =>
    have hlisted : schema.RequiredListed := ⟨names, hnames⟩
    cases hlookup : schema.members.lookup (.text "properties") with
    | none => rfl
    | some value =>
      cases value with
      | obj properties =>
        have hnil := h properties hlisted (by simp [InputSchema.properties?, hlookup])
        subst hnil
        rfl
      | _ =>
        simp only [Option.getD_some, bind, Except.bind]
        split_ifs <;> rfl

theorem parametersSchema_of_passes (h : schema.Passes) :
    parametersSchema library schema = .passthrough := by
  obtain ⟨⟨names, hnames⟩, before, prop, after, hproperties, hbefore, hprop⟩ := h
  have hother := allSimple_eq_false_iff.mpr ⟨before, prop, after, rfl, hbefore, hprop⟩
  have hne : before ++ prop :: after ≠ [] := by simp
  rw [parametersSchema, jsonSchemaToPydantic_eq hnames hproperties hne, hother]

theorem InputSchema.Typed.fieldType (h : schema.Typed library properties) :
    ∀ p ∈ properties, ∃ t, HasFieldType p.2 t := by
  intro p hp
  obtain ⟨_, t, -, -, ht⟩ := h.field p hp
  exact ⟨t, ht⟩

theorem parametersSchema_of_typed (h : schema.Typed library properties) :
    ∃ fields, parametersSchema library schema = ⟨fields, false⟩ ∧
      List.Forall₂ FieldOf properties fields := by
  obtain ⟨names, hnames⟩ := h.listed
  have hsimple := allSimple_eq_true_iff.mpr h.fieldType
  unfold parametersSchema
  rw [jsonSchemaToPydantic_eq hnames h.properties_eq h.ne_nil, hsimple]
  rcases createModel_cases library names h.fieldType with
    ⟨fields, hmodel, hfields, -⟩ | ⟨-, p, hp, hrefused⟩
  · exact ⟨fields, by simp [hmodel], hfields⟩
  · obtain ⟨name, _, hname, hallowed, -⟩ := h.field p hp
    simp [hrefused name hname] at hallowed

theorem parametersSchema_of_neither (hpasses : ¬schema.Passes)
    (htyped : ∀ properties, ¬schema.Typed library properties) :
    parametersSchema library schema = .empty := by
  by_cases hempty : ∀ properties, schema.RequiredListed → schema.properties? = some properties →
      properties = []
  · exact parametersSchema_eq_empty hempty
  push Not at hempty
  obtain ⟨properties, ⟨names, hnames⟩, hproperties, hne⟩ := hempty
  unfold parametersSchema
  rw [jsonSchemaToPydantic_eq hnames hproperties hne]
  cases hall : allSimple (properties.map Prod.snd) with
  | error e => rfl
  | ok simple =>
    cases simple with
    | false =>
      obtain ⟨before, prop, after, rfl, hbefore, hprop⟩ := allSimple_eq_false_iff.mp hall
      exact absurd ⟨⟨names, hnames⟩, before, prop, after, hproperties, hbefore, hprop⟩ hpasses
    | true =>
      have hfields := allSimple_eq_true_iff.mp hall
      rcases createModel_cases library names hfields with
        ⟨fields, -, hfieldsOf, hallowed⟩ | ⟨⟨e, he⟩, -⟩
      · refine absurd ⟨⟨names, hnames⟩, hproperties, hne, ?_⟩ (htyped properties)
        intro p hp
        obtain ⟨f, hf, hpf⟩ := Forall₂.exists_right hfieldsOf hp
        exact ⟨f.name, f.type, hpf.name_eq, hallowed f hf, hpf.type_eq⟩
      · simp [he]

/-! Instances -/

theorem validate_empty : ParamsModel.empty.validate library args = some [] := by
  simp [ParamsModel.validate, ParamsModel.empty]

theorem validate_passthrough : ParamsModel.passthrough.validate library args =
    if args.all (isText ·.1) then some args else none := by
  unfold ParamsModel.validate ParamsModel.passthrough ParamsModel.extraOf
  cases args.all (isText ·.1) <;> simp

/-- A validated value has the type of its field. -/
theorem exact_of_validateField {v w : Json} (h : library.validateField t v = some w) :
    t.exact w = true := by
  unfold Pydantic.validateField at h
  split at h
  · cases h
    assumption
  · exact library.coerce_exact t v w h

theorem ModelField.validate_name {m : PyStr × Json} (h : f.validate library args = some m) :
    m.1 = .text f.name := by
  unfold ModelField.validate at h
  split at h
  · obtain ⟨w, -, rfl⟩ := Option.map_eq_some_iff.mp h
    rfl
  · split at h
    · cases h
    · cases h
      rfl

theorem ModelField.validate_of_exact {v : Json} (hfound : args.lookup (.text f.name) = some v)
    (hexact : f.type.exact v = true) : f.validate library args = some (.text f.name, v) := by
  simp [ModelField.validate, hfound, Pydantic.validateField, hexact]

/-- A field that prints what was given was given a value of its type. -/
theorem ModelField.exact_of_validate {w : Json}
    (h : f.validate library args = some (.text f.name, w))
    (hgiven : args.lookup (.text f.name) = some w) : f.type.exact w = true := by
  simp only [ModelField.validate, hgiven] at h
  obtain ⟨w', hw', heq⟩ := Option.map_eq_some_iff.mp h
  cases heq
  exact exact_of_validateField hw'

theorem names_of_validate
    (h : List.Forall₂ (fun f m => ModelField.validate library args f = some m) fields values) :
    values.map Prod.fst = fields.map (PyStr.text ·.name) := by
  induction h with
  | nil => rfl
  | cons hf _ ih => rw [List.map_cons, List.map_cons, ih, ModelField.validate_name hf]

theorem validate_fields_iff (hnames : (fields.map (PyStr.text ·.name)).Nodup) :
    (∃ values, ParamsModel.validate library ⟨fields, false⟩ args = some values ∧
      SameDict values args) ↔
    (∀ m ∈ args, ∃ f ∈ fields, m.1 = .text f.name) ∧
      ∀ f ∈ fields, ∃ v, args.lookup (.text f.name) = some v ∧ f.type.exact v = true := by
  have hvalidate : ∀ values, ParamsModel.validate library ⟨fields, false⟩ args = some values ↔
      List.Forall₂ (fun f m => ModelField.validate library args f = some m) fields values := by
    intro values
    rw [← mapM_eq_some_iff]
    simp [ParamsModel.validate]
  simp only [hvalidate]
  constructor
  · rintro ⟨values, hvalues, hsame⟩
    have hkeys := names_of_validate hvalues
    refine ⟨?_, ?_⟩
    · intro m hm
      have hgiven : m.1 ∈ values.map Prod.fst := by
        by_contra hnot
        rw [← lookup_eq_none_iff_notMem, hsame, lookup_eq_none_iff_notMem] at hnot
        exact hnot (List.mem_map_of_mem hm)
      rw [hkeys] at hgiven
      obtain ⟨f, hf, heq⟩ := List.mem_map.mp hgiven
      exact ⟨f, hf, heq.symm⟩
    · intro f hf
      obtain ⟨⟨key, w⟩, hm, hfm⟩ := Forall₂.exists_right hvalues hf
      obtain rfl := ModelField.validate_name hfm
      have hfound := lookup_of_mem (hkeys ▸ hnames) hm
      rw [hsame] at hfound
      exact ⟨w, hfound, ModelField.exact_of_validate hfm hfound⟩
  · rintro ⟨hdeclared, hexact⟩
    refine ⟨fields.map fun f => (.text f.name, (args.lookup (.text f.name)).getD .null), ?_, ?_⟩
    · rw [List.forall₂_map_right_iff, List.forall₂_same]
      intro f hf
      obtain ⟨v, hv, hv'⟩ := hexact f hf
      rw [hv]
      exact ModelField.validate_of_exact hv hv'
    · intro key
      by_cases hkey : ∃ f ∈ fields, key = .text f.name
      · obtain ⟨f, hf, rfl⟩ := hkey
        obtain ⟨v, hv, -⟩ := hexact f hf
        rw [hv]
        refine lookup_of_mem ?_ (List.mem_map.mpr ⟨f, hf, by rw [hv]; rfl⟩)
        rw [List.map_map]
        exact hnames
      · have hnone : args.lookup key = none := by
          rw [lookup_eq_none_iff_notMem, List.mem_map]
          rintro ⟨m, hm, rfl⟩
          exact hkey (hdeclared m hm)
        rw [hnone, lookup_eq_none_iff_notMem, List.map_map, List.mem_map]
        rintro ⟨f, hf, rfl⟩
        exact hkey ⟨f, hf, rfl⟩

/-! Requests -/

variable {invocation : MCPToolInvocation} {host : Host} {manager : MCPClientManager}
  {world : CallWorld} {r : ToolRequest}

theorem arguments_of_sent (h : r ∈ (invocation.execute host manager world).1) :
    r.arguments = invocation.params := by
  rw [MCPToolInvocation.execute_sent] at h
  split at h
  · unfold MCPClientManager.callToolAsync at h
    split at h
    · rw [MCPClient.mem_retryLoop h]
      rfl
    · cases h
  · cases h

/-- A server that answers gets a request. -/
theorem exists_sent (host : Host) (invocation : MCPToolInvocation) :
    ∃ manager world r, r ∈ (invocation.execute host manager world).1 := by
  let client : MCPClient := { name := invocation.serverName, connected := true }
  let manager : MCPClientManager := ⟨true, [(invocation.serverName, client)], [], []⟩
  let world : CallWorld := ⟨0, 0, .ok (), fun _ => .answered { content := [] }⟩
  have hclient : manager.clientFor world invocation.serverName = .ok client := by
    simp [MCPClientManager.clientFor, manager, client, Option.filter]
  refine ⟨manager, world, client.request invocation.toolName invocation.params, ?_⟩
  rw [MCPToolInvocation.execute_sent, if_pos ⟨rfl, rfl⟩]
  simp [MCPClientManager.callToolAsync, hclient, MCPClient.callToolWithRetry,
    MCPClient.retryLoop, client, world, MCPClient.callTool, MCPClient.outcome, MCPClient.requests,
    Attempt.sent]

/-- The arguments are accepted, and every request that is sent for them carries them. -/
def ArriveUnchanged (library : Pydantic) (info : ToolInfo) (args : Members) : Prop :=
  let builder := MCPToolBuilder.fromToolInfo library info
  ∃ params, builder.validate library args = some params ∧
    ∀ host manager world, ∀ r ∈ ((builder.build params).execute host manager world).1,
      SameDict r.arguments args

theorem arriveUnchanged_iff {info : ToolInfo} : ArriveUnchanged library info args ↔
    ∃ values, (parametersSchema library info.inputSchema).validate library args = some values ∧
      SameDict values args := by
  constructor
  · rintro ⟨params, hvalid, harrive⟩
    refine ⟨params, hvalid, ?_⟩
    obtain ⟨manager, world, r, hr⟩ :=
      exists_sent .ascii ((MCPToolBuilder.fromToolInfo library info).build params)
    have hsame := harrive .ascii manager world r hr
    rw [arguments_of_sent hr] at hsame
    exact hsame
  · rintro ⟨values, hvalid, hsame⟩
    refine ⟨values, hvalid, ?_⟩
    intro host manager world r hr
    rw [arguments_of_sent hr]
    exact hsame

/-- The schema and the arguments for which nothing is lost: a model that passes everything on, or
one whose fields are all given, each with a value of its own type, and nothing else. -/
def InputSchema.Keeps (library : Pydantic) (schema : InputSchema) (args : Members) : Prop :=
  (schema.Passes ∧ ∀ m ∈ args, isText m.1 = true) ∨
  (∃ properties, schema.Typed library properties ∧
    (∀ m ∈ args, ∃ p ∈ properties, m.1 = p.1) ∧
    ∀ p ∈ properties, ∃ t v, HasFieldType p.2 t ∧ args.lookup p.1 = some v ∧
      t.exact v = true) ∨
  (¬schema.Passes ∧ (∀ properties, ¬schema.Typed library properties) ∧ args = [])

theorem InputSchema.Passes.not_typed (h : schema.Passes) : ¬schema.Typed library properties := by
  intro htyped
  obtain ⟨fields, hfields, -⟩ := parametersSchema_of_typed htyped
  rw [parametersSchema_of_passes h] at hfields
  cases hfields

theorem InputSchema.Typed.unique {properties' : Members} (h : schema.Typed library properties)
    (h' : schema.Typed library properties') : properties' = properties :=
  Option.some.inj (h'.properties_eq.symm.trans h.properties_eq)

/-- The fields of a model carry the names of the properties, each once. -/
theorem InputSchema.Typed.nodup (h : schema.Typed library properties)
    (hfields : List.Forall₂ FieldOf properties fields) :
    (fields.map (PyStr.text ·.name)).Nodup := by
  have hnames : properties.map Prod.fst = fields.map (PyStr.text ·.name) := by
    clear h
    induction hfields with
    | nil => rfl
    | cons hp _ ih => rw [List.map_cons, List.map_cons, ih, hp.name_eq]
  rw [← hnames]
  exact schema.distinct properties (lookup_of_properties? h.properties_eq)

theorem HasFieldType.unique {t' : PyType} (h : HasFieldType prop t) (h' : HasFieldType prop t') :
    t' = t := by
  obtain ⟨members, name, rfl, htype, hname⟩ := h
  obtain ⟨_, name', ⟨rfl⟩, htype', hname'⟩ := h'
  rw [htype] at htype'
  cases htype'
  exact Option.some.inj (hname'.symm.trans hname)

theorem sameDict_nil_iff : SameDict [] args ↔ args = [] := by
  constructor
  · intro h
    cases args with
    | nil => rfl
    | cons m args =>
      have hmissing := lookup_eq_none_iff_notMem.mp (h m.1).symm
      simp at hmissing
  · rintro rfl key
    rfl

theorem arguments_arrive_unchanged_iff (library : Pydantic) (info : ToolInfo) (args : Members) :
    ArriveUnchanged library info args ↔ info.inputSchema.Keeps library args := by
  rw [arriveUnchanged_iff, InputSchema.Keeps]
  by_cases hpasses : info.inputSchema.Passes
  · have hnot : ∀ properties, ¬info.inputSchema.Typed library properties :=
      fun _ => hpasses.not_typed
    rw [parametersSchema_of_passes hpasses, validate_passthrough]
    simp only [hpasses, hnot, true_and, false_and, exists_false, not_true_eq_false, or_false]
    rw [← List.all_eq_true]
    split
    · next hall => simp [hall, SameDict]
    · next hall => simp [hall]
  · by_cases htyped : ∃ properties, info.inputSchema.Typed library properties
    · obtain ⟨properties, htyped⟩ := htyped
      obtain ⟨fields, hmodel, hfields⟩ := parametersSchema_of_typed htyped
      rw [hmodel, validate_fields_iff (htyped.nodup hfields)]
      constructor
      · rintro ⟨hdeclared, hexact⟩
        refine .inr (.inl ⟨properties, htyped, ?_, ?_⟩)
        · intro m hm
          obtain ⟨f, hf, hmf⟩ := hdeclared m hm
          obtain ⟨p, hp, hpf⟩ := Forall₂.exists_left hfields hf
          exact ⟨p, hp, hmf.trans hpf.name_eq.symm⟩
        · intro p hp
          obtain ⟨f, hf, hpf⟩ := Forall₂.exists_right hfields hp
          obtain ⟨v, hv, hv'⟩ := hexact f hf
          exact ⟨f.type, v, hpf.type_eq, hpf.name_eq ▸ hv, hv'⟩
      · rintro (⟨hp, -⟩ | ⟨properties', htyped', hdeclared, hexact⟩ | ⟨-, hnot, -⟩)
        · exact absurd hp hpasses
        · obtain rfl := htyped.unique htyped'
          refine ⟨?_, ?_⟩
          · intro m hm
            obtain ⟨p, hp, hmp⟩ := hdeclared m hm
            obtain ⟨f, hf, hpf⟩ := Forall₂.exists_right hfields hp
            exact ⟨f, hf, hmp.trans hpf.name_eq⟩
          · intro f hf
            obtain ⟨p, hp, hpf⟩ := Forall₂.exists_left hfields hf
            obtain ⟨t, v, ht, hv, hv'⟩ := hexact p hp
            obtain rfl := hpf.type_eq.unique ht
            exact ⟨v, hpf.name_eq ▸ hv, hv'⟩
        · exact absurd htyped (hnot properties)
    · have hnot : ∀ properties, ¬info.inputSchema.Typed library properties :=
        not_exists.mp htyped
      rw [parametersSchema_of_neither hpasses hnot, validate_empty]
      simp [hpasses, hnot, sameDict_nil_iff]

/-! An optional argument that is not given -/

/-- The type names of a schema; an integral number is an integer. -/
def typeHolds : String → Json → Bool
  | "string", .str _ | "integer", .int _ | "number", .int _ | "number", .float _
  | "boolean", .bool _ | "array", .arr _ | "object", .obj _ | "null", .null => true
  | "integer", .float (.finite _ mantissa exponent) =>
    0 ≤ exponent || mantissa % 2 ^ (-exponent).toNat == 0
  | _, _ => false

def allowsValue : Json → Json → Bool
  | .bool allowed, _ => allowed
  | .obj members, value =>
    match members.lookup (.text "type") with
    | none => true
    | some (.str (.text name)) => typeHolds name value
    | some (.arr names) => names.any fun | .str (.text name) => typeHolds name value | _ => false
    | _ => false
  | _, _ => false

/-- The arguments satisfy the schema, as far as `required`, `properties`, the types of the
properties and a false `additionalProperties` go. -/
def InputSchema.satisfied (schema : InputSchema) (args : Members) : Bool :=
  let properties := schema.properties?.getD []
  (match schema.members.lookup (.text "required") with
    | some (.arr names) => names.all fun | .str s => (args.lookup s).isSome | _ => false
    | none => true
    | _ => false) &&
  args.all fun (name, value) =>
    match properties.lookup name with
    | some prop => allowsValue prop value
    | none => match schema.members.lookup (.text "additionalProperties") with
      | some (.bool allowed) => allowed
      | _ => true

def sampleForecast : InputSchema where
  members := [
    (.text "type", .str (.text "object")),
    (.text "properties", .obj [
      (.text "city", .obj [(.text "type", .str (.text "string"))]),
      (.text "days", .obj [(.text "type", .str (.text "integer"))])]),
    (.text "required", .arr [.str (.text "city")])]
  distinct properties h := by
    cases h
    decide

/-- The optional argument is sent as a null. -/
theorem optional_argument_added :
    ¬∀ (library : Pydantic) (info : ToolInfo) (args : Members),
      info.inputSchema.satisfied args = true → ArriveUnchanged library info args := by
  intro h
  have harrive := h .strict
    { name := "mcp__weather__forecast", serverName := "weather", originalName := "forecast"
      description := "", inputSchema := sampleForecast, readOnly := none, destructive := none
      openWorld := none }
    [(.text "city", .str (.text "Oslo"))] (by decide)
  obtain ⟨values, hvalues, hsame⟩ := arriveUnchanged_iff.mp harrive
  have hsent : values = [(.text "city", .str (.text "Oslo")), (.text "days", .null)] :=
    (Option.some.inj hvalues).symm
  have hdays := hsame (.text "days")
  rw [hsent] at hdays
  cases hdays

end MultiClaw
