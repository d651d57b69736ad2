import MultiClaw.Agent.Resumption
import MultiClaw.Workflow.Steps

/-! Which tool calls of a run a resumed conversation shows. -/
namespace MultiClaw

open Base Transaction

variable {env : Env} {host : Host} {str : Json → String} {db db' : Db} {context : TenantContext}
  {lease : RunLease} {recovered : Option (PersistedToolResult × String)}
  {messages xs ys : List ResumedMessage} {e : ExecutionRow} {systemPrompt : String}

/-- The stored result of an execution. -/
def Db.persistedResult (db : Db) (context : TenantContext) (e : ExecutionRow) : Option MemoryRow :=
  e.resultRef.bind (db.toolEntry context)

/-- The executions of a run that have a stored result, in their order. -/
def Db.observedExecutions (db : Db) (context : TenantContext) : List ExecutionRow :=
  db.executions.filter fun e =>
    contextPredicate context e.scope && (db.persistedResult context e).isSome

/-- The call and the result of an execution, as the model saw them. -/
def Shows (host : Host) (db : Db) (context : TenantContext) (e : ExecutionRow)
    (exchange : List ResumedMessage) : Prop :=
  ∃ entry arguments, db.persistedResult context e = some entry ∧
    Json.loads host.recursionLimit e.inputPayloadJson = .ok arguments ∧
    exchange = toolExchange e.toolCallId e.toolName arguments entry.content

/-- The messages show every execution with a stored result, in their order. -/
def KeepsToolHistory (host : Host) (db : Db) (context : TenantContext)
    (messages : List ResumedMessage) : Prop :=
  ∃ exchanges, List.Forall₂ (Shows host db context) (db.observedExecutions context) exchanges ∧
    exchanges.flatten.Sublist messages

/-- The run resumes from the result of an execution: the result that is passed to it is the stored
one, or its latest checkpoint observed it. -/
def ResumesFrom (host : Host) (db : Db) (context : TenantContext) (e : ExecutionRow) :
    Option (PersistedToolResult × String) → Prop
  | some (result, inputJson) =>
    result.toolCallId = e.toolCallId ∧ result.toolName = e.toolName ∧
      (db.persistedResult context e).map (·.content) = some result.content ∧
      Json.loads host.recursionLimit inputJson = Json.loads host.recursionLimit e.inputPayloadJson
  | none => ∃ checkpoint payload, db.getLatestCheckpoint context = some checkpoint ∧
      decodeCheckpoint host checkpoint = .ok payload ∧ payload.phase = .executionResultObserved ∧
      (payload.text "execution_id").getD "" = e.executionId ∧
      (db.toolEntry context ((payload.text "result_ref").getD "")).map (·.content) =
        (db.persistedResult context e).map (·.content)

/-! The messages -/

def ResumedMessage.isChat : ResumedMessage → Bool
  | chat _ => true
  | _ => false

theorem sublist_of_chat_append (hxs : ∀ m ∈ xs, m.isChat = false) {history : List ResumedMessage}
    (hhistory : ∀ m ∈ history, m.isChat = true) (h : xs.Sublist (history ++ ys)) :
    xs.Sublist ys := by
  induction history with
  | nil => exact h
  | cons m history ih =>
    rw [List.forall_mem_cons] at hhistory
    cases h with
    | cons _ h => exact ih hhistory.2 h
    | cons_cons _ h =>
      have hfalse := hxs m (by simp)
      rw [hhistory.1] at hfalse
      cases hfalse

theorem toolExchange_isChat {toolCallId toolName content : String} {arguments : Json} :
    ∀ m ∈ toolExchange toolCallId toolName arguments content, m.isChat = false := by
  simp [toolExchange, ResumedMessage.isChat]

theorem toolExchange_inj {i i' n n' c c' : String} {a a' : Json}
    (h : toolExchange i n a c = toolExchange i' n' a' c') :
    i = i' ∧ n = n' ∧ a = a' ∧ c = c' := by
  simp only [toolExchange, List.cons.injEq, ResumedMessage.toolCall.injEq,
    ResumedMessage.toolResult.injEq, and_true] at h
  exact ⟨h.2.1, h.1.2.1, h.1.2.2, h.2.2⟩

theorem flatten_isChat {es : List ExecutionRow} {exchanges : List (List ResumedMessage)}
    (h : List.Forall₂ (Shows host db context) es exchanges) :
    ∀ m ∈ exchanges.flatten, m.isChat = false := by
  induction h with
  | nil => simp
  | cons hshows _ ih =>
    obtain ⟨entry, arguments, -, -, rfl⟩ := hshows
    rw [List.flatten_cons]
    exact List.forall_mem_append.mpr ⟨toolExchange_isChat, ih⟩

theorem flatten_length {es : List ExecutionRow} {exchanges : List (List ResumedMessage)}
    (h : List.Forall₂ (Shows host db context) es exchanges) :
    exchanges.flatten.length = 2 * es.length := by
  induction h with
  | nil => rfl
  | cons hshows _ ih =>
    obtain ⟨entry, arguments, -, -, rfl⟩ := hshows
    simp only [List.flatten_cons, List.length_append, ih, List.length_cons]
    simp [toolExchange]
    omega

/-- Behind the chat there is room for one exchange. -/
theorem keepsToolHistory_iff {history : List ResumedMessage}
    (hhistory : ∀ m ∈ history, m.isChat = true) {toolCallId toolName content : String}
    {arguments : Json} :
    KeepsToolHistory host db context
        (history ++ toolExchange toolCallId toolName arguments content) ↔
      db.observedExecutions context = [] ∨ ∃ e, db.observedExecutions context = [e] ∧
        Shows host db context e (toolExchange toolCallId toolName arguments content) := by
  constructor
  · rintro ⟨exchanges, hshows, hsub⟩
    have hsub' := sublist_of_chat_append (flatten_isChat hshows) hhistory hsub
    have hlength := hsub'.length_le
    rw [flatten_length hshows] at hlength
    simp only [toolExchange, List.length_cons, List.length_nil] at hlength
    cases hobs : db.observedExecutions context with
    | nil => exact .inl rfl
    | cons e es =>
      rw [hobs] at hshows hlength
      obtain rfl : es = [] := by
        rw [← List.length_eq_zero_iff]
        simp only [List.length_cons] at hlength
        omega
      obtain ⟨exchange, _, he, hnil, rfl⟩ := List.forall₂_cons_left_iff.mp hshows
      rw [List.forall₂_nil_left_iff] at hnil
      subst hnil
      rw [List.flatten_cons, List.flatten_nil, List.append_nil] at hsub'
      refine .inr ⟨e, rfl, ?_⟩
      have hlength' : exchange.length = 2 := by
        obtain ⟨_, _, -, -, rfl⟩ := he
        rfl
      rw [← hsub'.eq_of_length hlength']
      exact he
  · rintro (hobs | ⟨e, hobs, he⟩)
    · exact ⟨[], by rw [hobs]; exact .nil, List.nil_sublist _⟩
    · refine ⟨[_], by rw [hobs]; exact .cons he .nil, ?_⟩
      rw [List.flatten_cons, List.flatten_nil, List.append_nil]
      exact List.sublist_append_right _ _

theorem keepsToolHistory_chat_iff (hmessages : ∀ m ∈ messages, m.isChat = true) :
    KeepsToolHistory host db context messages ↔ db.observedExecutions context = [] := by
  constructor
  · rintro ⟨exchanges, hshows, hsub⟩
    rw [← List.append_nil messages] at hsub
    have hnil := (sublist_of_chat_append (flatten_isChat hshows) hmessages hsub).length_le
    rw [flatten_length hshows] at hnil
    rw [← List.length_eq_zero_iff]
    simp only [List.length_nil] at hnil
    omega
  · intro hobs
    exact ⟨[], by rw [hobs]; exact .nil, List.nil_sublist _⟩

/-! What resumption reads -/

theorem loadToolResult_eq_ok {ref digest : String} {result : PersistedToolResult}
    (h : loadToolResult host str db context e ref digest = .ok result) :
    ∃ entry, db.toolEntry context ref = some entry ∧
      result = ⟨entry.content, e.toolCallId, e.toolName⟩ := by
  unfold loadToolResult at h
  split_ifs at h
  cases hentry : db.toolEntry context ref with
  | none =>
    rw [hentry] at h
    cases h
  | some entry =>
    rw [hentry] at h
    obtain ⟨metadata, -, h⟩ := bind_eq_ok.mp h
    dsimp only at h
    split_ifs at h with htype hcomplete hexecution hcall hname hdigest
    cases h
    exact ⟨entry, rfl, by rw [not_ne_iff.mp hcall, not_ne_iff.mp hname]⟩

theorem validatedExecutionInput_eq_ok {input hash text : String}
    (h : validatedExecutionInput host input hash = .ok text) : text = input := by
  unfold validatedExecutionInput at h
  obtain ⟨value, -, h⟩ := bind_eq_ok.mp h
  obtain ⟨_, -, h⟩ := bind_eq_ok.mp h
  obtain ⟨canonical, -, h⟩ := bind_eq_ok.mp h
  split_ifs at h with hhash hcanonical
  cases h
  exact (not_ne_iff.mp hcanonical).symm

open RuntimeRecoveryContinuationService

theorem chat_isChat (prompt : Message) (entries : List MemoryRow) :
    ∀ m ∈ .chat prompt :: entries.map fun e => ResumedMessage.chat e.message,
      m.isChat = true := by
  refine List.forall_mem_cons.mpr ⟨rfl, fun m hm => ?_⟩
  obtain ⟨_, -, rfl⟩ := List.mem_map.mp hm
  rfl

theorem resumeRecovery_none
    (h : (MultiClawAgent.resumeRecovery systemPrompt context none).run env db =
      .ok (messages, db')) : ∀ m ∈ messages, m.isChat = true := by
  obtain ⟨_, _, hask, h⟩ := run_bind_eq_ok.mp h
  cases hask
  obtain ⟨entries, _, -, h⟩ := run_bind_eq_ok.mp h
  cases h
  exact chat_isChat _ _

theorem resumeRecovery_some {result : PersistedToolResult} {inputJson : String}
    (h :
      (MultiClawAgent.resumeRecovery systemPrompt context (some (result, inputJson))).run env db =
      .ok (messages, db')) :
    ∃ (history : List ResumedMessage) (arguments : Json), (∀ m ∈ history, m.isChat = true) ∧
      Json.loads env.host.recursionLimit inputJson = .ok arguments ∧
      messages = history ++
        toolExchange result.toolCallId result.toolName arguments result.content := by
  obtain ⟨_, _, hask, h⟩ := run_bind_eq_ok.mp h
  cases hask
  obtain ⟨entries, _, -, h⟩ := run_bind_eq_ok.mp h
  dsimp only at h
  obtain ⟨arguments, _, hload, h⟩ := run_bind_eq_ok.mp h
  obtain ⟨hload, -⟩ := run_ofExcept_eq_ok.mp hload
  cases h
  refine ⟨_, arguments, chat_isChat _ _, ?_, rfl⟩
  cases hl : Json.loads env.host.recursionLimit inputJson with
  | error e =>
    rw [hl] at hload
    cases hload
  | ok v =>
    rw [hl] at hload
    cases hload
    rfl

theorem resume_eq_ok
    (h : (resume str systemPrompt context lease recovered).run env db = .ok (messages, db')) :
    ∃ r db₁ db₂, (recoveredResult str context recovered).run env db = .ok (r, db₁) ∧
      (MultiClawAgent.resumeRecovery systemPrompt context r).run env db₂ = .ok (messages, db') := by
  obtain ⟨r, db₁, hr, h⟩ := run_bind_eq_ok.mp h
  obtain ⟨_, _, hget, h⟩ := run_bind_eq_ok.mp h
  cases hget
  split_ifs at h
  · obtain ⟨_, db₂, -, h⟩ := run_bind_eq_ok.mp h
    exact ⟨r, db₁, db₂, hr, h⟩
  · exact ⟨r, db₁, db₁, hr, h⟩

/-- What the latest checkpoint observed is read back from the execution that it names. -/
theorem recoveredResult_none {r : PersistedToolResult × String} {db₁ : Db}
    (h : (recoveredResult str context none).run env db = .ok (some r, db₁)) :
    ∃ checkpoint payload e entry, db.getLatestCheckpoint context = some checkpoint ∧
      decodeCheckpoint env.host checkpoint = .ok payload ∧
      payload.phase = .executionResultObserved ∧
      db.getExecution context ((payload.text "execution_id").getD "") = some e ∧
      db.toolEntry context ((payload.text "result_ref").getD "") = some entry ∧
      r = (⟨entry.content, e.toolCallId, e.toolName⟩, e.inputPayloadJson) := by
  obtain ⟨_, _, hask, h⟩ := run_bind_eq_ok.mp h
  cases hask
  obtain ⟨_, _, hget, h⟩ := run_bind_eq_ok.mp h
  cases hget
  cases hcheckpoint : db.getLatestCheckpoint context with
  | none =>
    rw [hcheckpoint] at h
    cases h
  | some checkpoint =>
    rw [hcheckpoint] at h
    dsimp only at h
    obtain ⟨payload, s, hdecode, h⟩ := run_bind_eq_ok.mp h
    obtain ⟨hdecode, hs⟩ := run_ofExcept_eq_ok.mp hdecode
    rw [hs] at h
    split_ifs at h with hphase
    · cases h
    · cases he : db.getExecution context ((payload.text "execution_id").getD "") with
      | none =>
        rw [he] at h
        cases h
      | some e =>
        rw [he] at h
        dsimp only at h
        obtain ⟨input, _, hinput, h⟩ := run_bind_eq_ok.mp h
        obtain ⟨hinput, -⟩ := run_ofExcept_eq_ok.mp hinput
        obtain ⟨result, _, hresult, h⟩ := run_bind_eq_ok.mp h
        obtain ⟨hloaded, -⟩ := run_ofExcept_eq_ok.mp hresult
        obtain ⟨entry, hentry, rfl⟩ := loadToolResult_eq_ok hloaded
        cases h
        rw [validatedExecutionInput_eq_ok hinput]
        exact ⟨checkpoint, payload, e, entry, rfl, hdecode, not_ne_iff.mp hphase, he, hentry, rfl⟩

theorem mem_observedExecutions (he : e ∈ db.observedExecutions context) :
    e ∈ db.executions.rows ∧ contextPredicate context e.scope = true := by
  obtain ⟨hmem, hp⟩ := List.mem_filter.mp he
  exact ⟨hmem, (Bool.and_eq_true _ _ ▸ hp).1⟩

theorem getExecution_of_mem (he : e ∈ db.executions.rows)
    (hscope : contextPredicate context e.scope = true) :
    db.getExecution context e.executionId = some e := by
  refine Table.find?_eq_some_of_mem he (by simp [hscope]) fun a _ ha => ?_
  simp only [Bool.and_eq_true, beq_iff_eq] at ha
  exact ⟨.id e.executionId, by simp [ExecutionRow.keys, ha.2], by simp [ExecutionRow.keys]⟩

/-- If it observed the result of an execution, there is something to resume from. -/
theorem recoveredResult_ne_none {db₁ : Db} (he : e ∈ db.executions.rows)
    (hscope : contextPredicate context e.scope = true)
    (hresumes : ResumesFrom env.host db context e none) :
    (recoveredResult str context none).run env db ≠ .ok (none, db₁) := by
  obtain ⟨checkpoint, payload, hcheckpoint, hdecode, hphase, hid, -⟩ := hresumes
  intro h
  obtain ⟨_, _, hask, h⟩ := run_bind_eq_ok.mp h
  cases hask
  obtain ⟨_, _, hget, h⟩ := run_bind_eq_ok.mp h
  cases hget
  rw [hcheckpoint] at h
  dsimp only at h
  rw [hdecode, run_bind_of_ok run_ofExcept_ok, if_neg (not_ne_iff.mpr hphase), hid,
    getExecution_of_mem he hscope] at h
  dsimp only at h
  obtain ⟨_, _, -, h⟩ := run_bind_eq_ok.mp h
  obtain ⟨_, _, -, h⟩ := run_bind_eq_ok.mp h
  cases h

/-- An execution is known by its call within a run. -/
theorem execution_eq_of_toolCallId {e' : ExecutionRow} (he : e ∈ db.executions.rows)
    (he' : e' ∈ db.executions.rows) (hscope : contextPredicate context e.scope = true)
    (hscope' : contextPredicate context e'.scope = true) (hcall : e.toolCallId = e'.toolCallId) :
    e = e' := by
  have hs := scope_eq_of_contextPredicate hscope hscope'
  exact Table.eq_of_shared_key he he' (k := .toolCall e.scope e.toolCallId)
    (by simp [ExecutionRow.keys]) (by simp [ExecutionRow.keys, hs, hcall])

theorem shows_iff_resumesFrom_some {result : PersistedToolResult} {inputJson : String}
    {arguments : Json} (hload : Json.loads host.recursionLimit inputJson = .ok arguments) :
    Shows host db context e
        (toolExchange result.toolCallId result.toolName arguments result.content) ↔
      ResumesFrom host db context e (some (result, inputJson)) := by
  constructor
  · rintro ⟨entry, arguments', hentry, hload', heq⟩
    obtain ⟨hid, hname, rfl, hcontent⟩ := toolExchange_inj heq
    exact ⟨hid, hname, by rw [hentry, hcontent]; rfl, by rw [hload, hload']⟩
  · rintro ⟨hid, hname, hcontent, hinput⟩
    obtain ⟨entry, hentry, hc⟩ := Option.map_eq_some_iff.mp hcontent
    exact ⟨entry, arguments, hentry, by rw [← hinput, hload], by rw [hid, hname, hc]⟩

theorem tool_history_kept_iff (env : Env) (db db' : Db) (str : Json → String)
    (systemPrompt : String) (context : TenantContext) (lease : RunLease)
    (recovered : Option (PersistedToolResult × String)) (messages : List ResumedMessage)
    (h : (resume str systemPrompt context lease recovered).run env db = .ok (messages, db')) :
    KeepsToolHistory env.host db context messages ↔
      db.observedExecutions context = [] ∨ ∃ e, db.observedExecutions context = [e] ∧
        ResumesFrom env.host db context e recovered := by
  obtain ⟨r, db₁, db₂, hr, hmessages⟩ := resume_eq_ok h
  cases recovered with
  | some passed =>
    obtain ⟨result, inputJson⟩ := passed
    obtain rfl : r = some (result, inputJson) := by
      cases hr
      rfl
    obtain ⟨history, arguments, hhistory, hload, rfl⟩ := resumeRecovery_some hmessages
    rw [keepsToolHistory_iff hhistory]
    simp only [shows_iff_resumesFrom_some hload]
  | none =>
    cases r with
    | none =>
      rw [keepsToolHistory_chat_iff (resumeRecovery_none hmessages)]
      refine ⟨.inl, ?_⟩
      rintro (hobs | ⟨e, hobs, hresumes⟩)
      · exact hobs
      · obtain ⟨he, hscope⟩ := mem_observedExecutions (e := e) (by rw [hobs]; simp)
        exact absurd hr (recoveredResult_ne_none he hscope hresumes)
    | some r =>
      obtain ⟨checkpoint, payload, x, entry, hcheckpoint, hdecode, hphase, hx, hentry, rfl⟩ :=
        recoveredResult_none hr
      obtain ⟨history, arguments, hhistory, hload, rfl⟩ := resumeRecovery_some hmessages
      rw [keepsToolHistory_iff hhistory]
      obtain ⟨hxmem, hxscope⟩ := Table.mem_of_find? hx
      simp only [Bool.and_eq_true, beq_iff_eq] at hxscope
      refine or_congr_right (exists_congr fun e => and_congr_right fun hobs => ?_)
      obtain ⟨he, hscope⟩ := mem_observedExecutions (e := e) (by rw [hobs]; simp)
      constructor
      · rintro ⟨entry', arguments', hentry', hload', heq⟩
        obtain ⟨hid, hname, rfl, hcontent⟩ := toolExchange_inj heq
        obtain rfl := execution_eq_of_toolCallId hxmem he hxscope.1 hscope hid
        exact ⟨checkpoint, payload, hcheckpoint, hdecode, hphase, hxscope.2.symm,
          by rw [hentry, hentry']; exact congrArg some hcontent⟩
      · rintro ⟨checkpoint', payload', hcheckpoint', hdecode', -, hid, hcontent⟩
        obtain rfl : checkpoint = checkpoint' := by
          rw [hcheckpoint] at hcheckpoint'
          exact Option.some.inj hcheckpoint'
        obtain rfl : payload = payload' := by
          rw [hdecode] at hdecode'
          exact Except.ok.inj hdecode'
        obtain rfl : x = e := by
          rw [hid, getExecution_of_mem he hscope] at hx
          exact (Option.some.inj hx).symm
        rw [hentry] at hcontent
        obtain ⟨entry', hentry', hc⟩ := Option.map_eq_some_iff.mp hcontent.symm
        exact ⟨entry', arguments, hentry', hload, by rw [hc]⟩

/-! Samples -/

theorem sampleChatRun_tenantId_ne : "ada" ≠ "" := by decide

theorem sampleChatRun_workspaceId_ne : "home" ≠ "" := by decide

def sampleChatRun : TenantContext :=
  { tenantId := "ada", workspaceId := "home", sessionId := some "session", runId := some "run"
    tenantId_ne := sampleChatRun_tenantId_ne, workspaceId_ne := sampleChatRun_workspaceId_ne }

/-- An execution that is closed, with a result that is stored under `memory://` and its id. -/
def sampleExecution (id toolCallId digest : String) (status : ExecutionStatus) : ExecutionRow where
  executionId := id
  scope := ⟨"ada", "home", "session", "run"⟩
  approvalId := none
  toolCallId := toolCallId
  toolName := "read_file"
  toolKind := "builtin"
  status := status
  recoveryStrategy := .readOnlyReplay
  idempotencyKey := none
  inputPayloadJson := "\x7b\x7d"
  inputHash := "44136fa355b3678a1146ad16f7e8649e94fb4fc21fe77e8310c060f61caaff8a"
  externalRequestId := none
  resultRef := some ("memory://" ++ id)
  resultDigest := some digest
  version := 3
  createdAt := 0
  updatedAt := 0
  finishedAt := some 0

def sampleToolResult (id toolCallId content status : String) : MemoryRow where
  id := id
  tenantId := "ada"
  workspaceId := "home"
  sessionId := some "session"
  content := content
  type := "tool_result"
  role := "tool"
  turnIndex := 0
  createdAt := 0
  metadataJson := "\x7b\"execution_id\":\"" ++ id ++ "\",\"result_status\":\"" ++ status ++
    "\",\"tool_call_id\":\"" ++ toolCallId ++ "\",\"tool_name\":\"read_file\"\x7d"

/-- A run without a plan whose second tool call the user rejected, as it is resumed. -/
def sampleResumedRun : RunRow where
  scope := ⟨"ada", "home", "session", "run"⟩
  plan := none
  cancelRequestedAt := none
  status := .resuming
  runtimeInstanceId := none
  leaseOwner := some "worker"
  fencingToken := 2
  leaseExpiresAt := some 20000
  heartbeatAt := none
  version := 4
  createdAt := 0
  updatedAt := 0
  finishedAt := none

def sampleFirst : ExecutionRow :=
  sampleExecution "x1" "c1" "d1b2a59fbea7e20077af9f91b27e95e865061b270be03ff539ab3b73587882e8"
    .succeeded

def sampleSecond : ExecutionRow :=
  sampleExecution "x2" "c2" "737985f3ecaecaabd7fadab9097db38c9a587d7cf84b5488c5c6f4b25774faa9"
    .blockedIncompatible

def sampleOneCall : Db :=
  { Db.empty with
    runs := ⟨[sampleResumedRun], List.pairwise_singleton _ _⟩
    executions := ⟨[sampleSecond], List.pairwise_singleton _ _⟩
    memory := ⟨[sampleToolResult "x2" "c2" "rejected by user" "blocked_incompatible"],
      List.pairwise_singleton _ _⟩ }

def sampleTwoCalls : Db :=
  { sampleOneCall with
    executions := ⟨[sampleFirst, sampleSecond],
      by simp [sampleFirst, sampleSecond, sampleExecution, ExecutionRow.keys, List.Disjoint]⟩
    memory := ⟨[sampleToolResult "x1" "c1" "contents" "succeeded",
        sampleToolResult "x2" "c2" "rejected by user" "blocked_incompatible"],
      by simp [sampleToolResult, MemoryRow.keys, List.Disjoint]⟩ }

def sampleResume : Tx (List ResumedMessage) :=
  resume (fun _ => "") "prompt" sampleChatRun ⟨sampleChatRun, "worker", 2, 4, 20000⟩
    (some (⟨"rejected by user", "c2", "read_file"⟩, "\x7b\x7d"))

theorem tool_history_kept_iff_one_call :
    let env : Env := { settings := {}, host := .ascii, now := 5 }
    ∃ messages db', sampleResume.run env sampleOneCall = .ok (messages, db') ∧
      KeepsToolHistory env.host sampleOneCall sampleChatRun messages := by
  intro env
  have hok : (sampleResume.run env sampleOneCall).toOption.isSome = true := by decide +kernel
  obtain ⟨⟨messages, db'⟩, hresult⟩ := Option.isSome_iff_exists.mp hok
  have hrun := eq_ok_of_toOption hresult
  exact ⟨messages, db', hrun, (tool_history_kept_iff env sampleOneCall db' (fun _ => "") "prompt"
    sampleChatRun _ _ messages hrun).mpr (.inr ⟨sampleSecond,
      by decide +kernel, by decide, by decide, by decide +kernel, rfl⟩)⟩

/-- Resumed after a rejection, the model sees the rejected call and not the one before it. -/
theorem earlier_call_forgotten : ¬ ∀ (env : Env) (db db' : Db) (str : Json → String)
    (systemPrompt : String) (context : TenantContext) (lease : RunLease)
    (recovered : Option (PersistedToolResult × String)) (messages : List ResumedMessage),
    (∃ run, db.getRun context = some run ∧ run.plan = none) →
    (resume str systemPrompt context lease recovered).run env db = .ok (messages, db') →
    KeepsToolHistory env.host db context messages := by
  intro hall
  let env : Env := { settings := {}, host := .ascii, now := 5 }
  have hok : (sampleResume.run env sampleTwoCalls).toOption.isSome = true := by decide +kernel
  obtain ⟨⟨messages, db'⟩, hresult⟩ := Option.isSome_iff_exists.mp hok
  have hrun := eq_ok_of_toOption hresult
  have hkept := hall env sampleTwoCalls db' (fun _ => "") "prompt" sampleChatRun _ _ messages
      ⟨sampleResumedRun, by decide +kernel, rfl⟩ hrun
  obtain ⟨recovered, db₁, db₂, hrecovered, hmessages⟩ := resume_eq_ok hrun
  cases hrecovered
  obtain ⟨history, arguments, hhistory, -, rfl⟩ := resumeRecovery_some hmessages
  have htwo : (sampleTwoCalls.observedExecutions sampleChatRun).length = 2 := by decide +kernel
  obtain hobs | ⟨e, hobs, -⟩ := (keepsToolHistory_iff hhistory).mp hkept
  · rw [hobs] at htwo
    cases htwo
  · rw [hobs] at htwo
    cases htwo

end MultiClaw
