import MultiClaw.Agent.Context

/-! Which part of the chat history the model sees. -/
namespace MultiClaw

open Base Transaction List

/-! The window over the history -/

section Window

variable {α : Type} {p : α → Bool} {new : α} {older : List α} {n k : Nat}

/-- Of the entries that pass, the window keeps the oldest ones. -/
theorem window_eq (hnew : p new = true) (hk : 1 ≤ k) :
    (((new :: older).take k).reverse.filter p).take n =
      (((older.take (k - 1)).filter p).reverse ++ [new]).take n := by
  obtain ⟨k, rfl⟩ := Nat.exists_eq_add_of_le' hk
  simp [List.filter_append, List.filter_reverse, hnew]

/-- The window is the newest `n` entries that pass if and only if it has exactly `n` of them beside
the new entry. -/
theorem window_eq_newest_iff (hnew : p new = true) (hnodup : (new :: older).Nodup) (hn : 1 ≤ n)
    (hk : 1 ≤ k) :
    (((new :: older).take k).reverse.filter p).take n = ((older.filter p).take n).reverse ↔
      ((older.take (k - 1)).filter p).length = n := by
  obtain ⟨hnotin, hnodup⟩ := List.nodup_cons.mp hnodup
  rw [window_eq hnew hk]
  -- The entries of the window are the first ones that pass.
  obtain ⟨rest, hinitial⟩ : (older.take (k - 1)).filter p <+: older.filter p :=
    (List.take_prefix _ _).filter p
  generalize hF : (older.take (k - 1)).filter p = F at hinitial
  have hnodupF : F.Nodup := hF ▸ (hnodup.sublist (List.take_sublist _ _)).filter p
  rw [← hinitial]
  rcases lt_trichotomy F.length n with hlt | heq | hgt
  · refine ⟨fun h => ?_, fun h => by omega⟩
    have hmem : new ∈ (F.reverse ++ [new]).take n := by
      rw [List.take_of_length_le (by simp; omega)]
      simp
    rw [h, List.mem_reverse] at hmem
    have hpass : new ∈ older.filter p := hinitial ▸ List.mem_of_mem_take hmem
    exact absurd (List.mem_of_mem_filter hpass) hnotin
  · subst heq
    simp
  · refine ⟨fun h => ?_, fun h => by omega⟩
    rw [List.take_append_of_le_length (by simp; omega), List.take_append_of_le_length hgt.le,
      List.take_reverse] at h
    have h0 := congrArg (fun l => l[0]?) (List.reverse_injective h)
    rw [List.getElem?_drop, List.getElem?_take_of_lt (by omega)] at h0
    have := (List.getElem?_inj (by omega) hnodupF).mp h0
    omega

end Window

/-! The stored messages -/

variable {env : Env} {db db' : Db} {context : TenantContext} {id message : String} {row : MemoryRow}
  {builder : ContextBuilder} {request : ContextRequest}

/-- The chat messages of a session, newest first. -/
def Db.chatHistory (db : Db) (context : TenantContext) : List MemoryRow :=
  db.loadRows context "chat_message"

theorem mem_chatHistory {m : MemoryRow} : m ∈ db.chatHistory context ↔ m ∈ db.memory.rows ∧
    m.tenantId = context.tenantId ∧ m.workspaceId = context.workspaceId ∧
    m.type = "chat_message" ∧ m.sessionId = context.sessionId := by
  rw [Db.chatHistory, Db.loadRows, (List.perm_insertionSort _ _).mem_iff, Table.filter,
    List.mem_filter]
  simp [and_assoc]

theorem nodup_chatHistory (db : Db) (context : TenantContext) : (db.chatHistory context).Nodup := by
  rw [Db.chatHistory, Db.loadRows, (List.perm_insertionSort _ _).nodup_iff]
  refine (db.memory.unique.filter _).imp fun {a b} hdisjoint he => ?_
  exact hdisjoint (a := a.id) (by simp [MemoryRow.keys]) (by simp [MemoryRow.keys, he])

theorem sorted_chatHistory (db : Db) (context : TenantContext) :
    (db.chatHistory context).Pairwise fun a b => b.key ≤ a.key :=
  List.pairwise_insertionSort (fun a b : MemoryRow => b.key ≤ a.key) _

theorem memory_eq_of_id {a b : MemoryRow} (ha : a ∈ db.memory.rows) (hb : b ∈ db.memory.rows)
    (hid : a.id = b.id) : a = b :=
  Table.eq_of_shared_key ha hb (k := a.id) (by simp [MemoryRow.keys])
    (by simp [MemoryRow.keys, hid])

/-- The row of a new message, one turn after the newest one. -/
def userTurn (env : Env) (db : Db) (context : TenantContext) (id message : String) : MemoryRow where
  id := id
  tenantId := context.tenantId
  workspaceId := context.workspaceId
  sessionId := context.sessionId
  content := message
  type := "chat_message"
  role := "user"
  turnIndex := match db.chatHistory context with
    | latest :: _ => latest.turnIndex + 1
    | [] => 1
  createdAt := env.now
  metadataJson := "\x7b\x7d"

/-- A message is stored under a fresh id. -/
theorem run_storeUserTurn (env : Env) (message : String) (hsession : context.sessionId ≠ none)
    (hfresh : ∀ m ∈ db.memory.rows, m.id ≠ id) :
    ∃ memory, (storeUserTurn context id message).run env db =
        .ok (userTurn env db context id message, { db with memory }) ∧
      ∀ m, m ∈ memory.rows ↔ m ∈ db.memory.rows ∨ m = userTurn env db context id message := by
  let entry : MemoryEntry :=
    { id, content := message, type := "chat_message", role := "user"
      sessionId := context.sessionId, turnIndex := (userTurn env db context id message).turnIndex }
  obtain ⟨sessionId, hs⟩ := Option.ne_none_iff_exists'.mp hsession
  have hprepared : MemoryRepository.prepareEntry context entry = .ok entry := by
    by_cases hempty : sessionId = "" <;>
      simp [MemoryRepository.prepareEntry, entry, hs, Option.filter, hempty]
  have hmetadata : (Json.obj []).dumpsAscii = some "\x7b\x7d" := by decide +kernel
  obtain ⟨row, memory, hrow, hinsert, hsave⟩ : ∃ row memory, _ ∧ _ ∧
      (MemoryRepository.save context entry).run env db = .ok (row, { db with memory }) :=
    MemoryRepository.save_fresh hprepared hfresh hmetadata
  have hrow : row = userTurn env db context id message := hrow
  refine ⟨memory, ?_, fun m => hrow ▸ Table.mem_insert? hinsert⟩
  have hrecent : (MemoryRepository.recent context 1 "chat_message").run env db =
      .ok ((db.chatHistory context).take 1, db) := by
    simp [MemoryRepository.recent, hsession, run_bind, Db.chatHistory]
  rw [storeUserTurn, run_bind_of_ok hrecent, ← hrow, ← hsave]
  congr 3
  cases h : db.chatHistory context <;> simp [entry, userTurn, h]

/-- The new message is newer than the stored ones. -/
theorem key_lt_userTurn (hclock : ∀ m ∈ db.memory.rows, m.createdAt ≤ env.now) {m : MemoryRow}
    (hm : m ∈ db.chatHistory context) : m.key < (userTurn env db context id message).key := by
  have hold := hclock m (mem_chatHistory.mp hm).1
  rw [MemoryRow.key, MemoryRow.key, Prod.Lex.toLex_lt_toLex]
  rcases hold.lt_or_eq with hlt | heq
  · exact .inl hlt
  · refine .inr ⟨heq, ?_⟩
    rw [Prod.Lex.toLex_lt_toLex]
    left
    cases hhistory : db.chatHistory context with
    | nil => simp [hhistory] at hm
    | cons latest rest =>
      have hlatest : m.key ≤ latest.key := by
        have hsorted := sorted_chatHistory db context
        rw [hhistory] at hsorted hm
        rcases List.mem_cons.mp hm with rfl | hm
        · exact le_rfl
        · exact List.rel_of_pairwise_cons hsorted hm
      have hturn : (userTurn env db context id message).turnIndex = latest.turnIndex + 1 := by
        simp [userTurn, hhistory]
      have hnow := hclock latest (mem_chatHistory.mp (hhistory ▸ List.mem_cons_self :
        latest ∈ db.chatHistory context)).1
      simp only [MemoryRow.key, Prod.Lex.toLex_le_toLex] at hlatest
      rw [hturn]
      omega

/-- Storing a message puts it before the history. -/
theorem chatHistory_store {memory} (hclock : ∀ m ∈ db.memory.rows, m.createdAt ≤ env.now)
    (hmem : ∀ m, m ∈ memory.rows ↔
      m ∈ db.memory.rows ∨ m = userTurn env db context id message) :
    Db.chatHistory { db with memory } context =
      userTurn env db context id message :: db.chatHistory context := by
  have hnotin : userTurn env db context id message ∉ db.chatHistory context := fun h =>
    lt_irrefl _ (key_lt_userTurn hclock h)
  have hperm : Db.chatHistory { db with memory } context ~
      userTurn env db context id message :: db.chatHistory context := by
    rw [List.perm_ext_iff_of_nodup (nodup_chatHistory _ _)
      (List.nodup_cons.mpr ⟨hnotin, nodup_chatHistory _ _⟩)]
    intro m
    rw [List.mem_cons, mem_chatHistory, mem_chatHistory, hmem]
    constructor
    · rintro ⟨hm | rfl, hrest⟩
      · exact .inr ⟨hm, hrest⟩
      · exact .inl rfl
    · rintro (rfl | ⟨hm, hrest⟩)
      · exact ⟨.inr rfl, rfl, rfl, rfl, rfl⟩
      · exact ⟨.inl hm, hrest⟩
  refine hperm.eq_of_pairwise (fun a b ha hb hab hba => ?_) (sorted_chatHistory _ _)
    (List.pairwise_cons.mpr ⟨fun m hm => (key_lt_userTurn hclock hm).le, sorted_chatHistory _ _⟩)
  have hid : a.id = b.id := congrArg (fun k => (ofLex (ofLex k).2).2) (le_antisymm hba hab)
  exact memory_eq_of_id (mem_chatHistory.mp ha).1 (mem_chatHistory.mp (hperm.mem_iff.mpr hb)).1 hid

/-! The context -/

/-- The user and assistant part of a context. -/
def conversation (messages : List Message) : List Message :=
  messages.filter fun m => isUserOrAssistant m.role

/-- The newest messages of users and assistants in a history, in chronological order. -/
def newestMessages (count : Nat) (history : List MemoryRow) : List MemoryRow :=
  ((history.filter fun m => isUserOrAssistant m.role).take count).reverse

namespace ContextBuilder

/-- The entries that the builder shows. -/
def window (builder : ContextBuilder) (history : List MemoryRow) : List MemoryRow :=
  ((history.take (builder.recentTurns * 4)).reverse.filter fun m => isUserOrAssistant m.role).take
    (builder.recentTurns * 2)

/-- The budget has room for all skill prompts and for the entries that the builder shows. -/
def Untrimmed (builder : ContextBuilder) (request : ContextRequest) (db : Db) : Prop :=
  builder.progressiveEnabled = true →
    (request.skillPrompts.map fun skill => estimateTokens skill.2).sum +
      ((builder.window (db.chatHistory request.context)).map
        fun m => estimateTokens m.content).sum ≤ builder.l1Budget request

theorem run_recentChatEntries (hsession : context.sessionId ≠ none) :
    (builder.recentChatEntries context).run env db =
      .ok (builder.window (db.chatHistory context), db) := by
  simp [recentChatEntries, MemoryRepository.recent, hsession, run_bind, window, Db.chatHistory]

theorem fitSkills_eq (budget used : Nat) (skills : List (String × String))
    (hfits : used + (skills.map fun skill => estimateTokens skill.2).sum ≤ budget) :
    fitSkills budget skills used = (skills.map (systemMessage ·.2),
      used + (skills.map fun skill => estimateTokens skill.2).sum) := by
  induction skills generalizing used with
  | nil => rfl
  | cons skill skills ih =>
    simp only [List.map_cons, List.sum_cons] at hfits
    rw [fitSkills, if_neg (by omega), ih _ (by omega)]
    simp [Nat.add_assoc]

theorem fitEntries_eq (budget used : Nat) (entries : List MemoryRow)
    (hfits : used + (entries.map fun m => estimateTokens m.content).sum ≤ budget) :
    fitEntries budget entries used = (entries,
      used + (entries.map fun m => estimateTokens m.content).sum) := by
  induction entries generalizing used with
  | nil => rfl
  | cons entry entries ih =>
    simp only [List.map_cons, List.sum_cons] at hfits
    rw [fitEntries, if_neg (by omega), ih _ (by omega)]
    simp [Nat.add_assoc]

theorem fitL1Messages_eq {budget : Nat} {skills : List (String × String)}
    {entries : List MemoryRow}
    (hfits : (skills.map fun skill => estimateTokens skill.2).sum +
      (entries.map fun m => estimateTokens m.content).sum ≤ budget) :
    ∃ used, fitL1Messages skills entries budget =
      (skills.map (systemMessage ·.2) ++ entries.map (·.message), used) := by
  have hskills := fitSkills_eq budget 0 skills (by omega)
  have hentries := fitEntries_eq budget
    (0 + (skills.map fun skill => estimateTokens skill.2).sum) entries.reverse
    (by simpa using hfits)
  unfold fitL1Messages
  rw [hskills]
  dsimp only
  rw [hentries]
  dsimp only
  rw [List.reverse_reverse]
  exact ⟨_, rfl⟩

/-- Messages of the system are not part of the conversation. -/
theorem conversation_system {messages : List Message} (h : ∀ m ∈ messages, m.role = "system") :
    conversation messages = [] :=
  List.filter_eq_nil_iff.mpr fun m hm => by simp [h m hm, isUserOrAssistant]

theorem conversation_entries {entries : List MemoryRow}
    (h : ∀ m ∈ entries, isUserOrAssistant m.role = true) :
    conversation (entries.map (·.message)) = entries.map (·.message) := by
  refine List.filter_eq_self.mpr fun m hm => ?_
  obtain ⟨entry, hentry, rfl⟩ := List.mem_map.mp hm
  exact h entry hentry

/-- The conversation in a list of messages of the system, entries, messages of the system and the
message of the user. -/
theorem conversation_context {before after : List Message} {entries : List MemoryRow}
    (hbefore : ∀ m ∈ before, m.role = "system") (hafter : ∀ m ∈ after, m.role = "system")
    (hentries : ∀ m ∈ entries, isUserOrAssistant m.role = true) (input : String) :
    conversation (before ++ entries.map (·.message) ++ after ++ [⟨"user", input, none⟩]) =
      entries.map (·.message) ++ [⟨"user", input, none⟩] := by
  have happend : ∀ a b, conversation (a ++ b) = conversation a ++ conversation b :=
    List.filter_append
  rw [happend, happend, happend, conversation_system hbefore, conversation_system hafter,
    conversation_entries hentries, List.nil_append, List.append_nil]
  rfl

theorem mem_window {history : List MemoryRow} {m : MemoryRow} (h : m ∈ builder.window history) :
    isUserOrAssistant m.role = true :=
  (List.mem_filter.mp (List.mem_of_mem_take h)).2

theorem role_systemMessage {β : Type} {f : β → String} {l : List β} :
    ∀ m ∈ l.map fun b => systemMessage (f b), m.role = "system" := by
  intro m hm
  obtain ⟨b, -, rfl⟩ := List.mem_map.mp hm
  rfl

theorem role_relevantMessages {text : String} : ∀ m ∈ relevantMessages text, m.role = "system" := by
  unfold relevantMessages
  split <;> simp [systemMessage]

/-- Without trimming, both builders show the window and then the message. -/
theorem run_build (hsession : request.context.sessionId ≠ none)
    (huntrimmed : builder.Untrimmed request db) :
    ∃ messages, (builder.build request).run env db = .ok (messages, db) ∧
      conversation messages =
        (builder.window (db.chatHistory request.context)).map (·.message) ++
          [⟨"user", request.userInput, none⟩] := by
  have hrecent : (builder.recentChatEntries request.context).run env db = _ :=
    run_recentChatEntries hsession
  have hsystem : ∀ {anchor : List Message}, (∀ m ∈ anchor, m.role = "system") →
      ∀ m ∈ systemMessage request.systemPrompt :: projectInstructionMessages request ++ anchor ++
        request.skillPrompts.map (systemMessage ·.2), m.role = "system" := by
    intro anchor hanchor m hm
    simp only [List.cons_append, List.mem_cons, List.mem_append] at hm
    rcases hm with rfl | (hm | hm) | hm
    · rfl
    · exact role_systemMessage m hm
    · exact hanchor m hm
    · exact role_systemMessage m hm
  unfold build
  cases hmode : builder.progressiveEnabled with
  | false =>
    rw [if_neg (by simp), buildLegacy, run_bind_of_ok hrecent]
    exact ⟨_, rfl, conversation_context (hsystem (by simp [systemMessage])) role_relevantMessages
      (fun _ => mem_window) _⟩
  | true =>
    obtain ⟨used, hfit⟩ := fitL1Messages_eq (huntrimmed hmode)
    rw [if_pos rfl, buildProgressive, run_bind_of_ok hrecent, hfit]
    refine ⟨_, rfl, ?_⟩
    rw [← List.append_assoc]
    refine conversation_context (hsystem ?_) role_relevantMessages (fun _ => mem_window) _
    split <;> simp [systemMessage]

end ContextBuilder

/-- Entries of one table are told apart by their messages. -/
theorem map_message_inj (db : Db) {l l' : List MemoryRow} (h : ∀ m ∈ l, m ∈ db.memory.rows)
    (h' : ∀ m ∈ l', m ∈ db.memory.rows) :
    l.map (·.message) = l'.map (·.message) ↔ l = l' := by
  refine ⟨fun heq => ?_, fun heq => heq ▸ rfl⟩
  induction l generalizing l' with
  | nil => simpa [eq_comm] using heq
  | cons a l ih =>
    cases l' with
    | nil => simp at heq
    | cons b l' =>
      simp only [List.map_cons, List.cons.injEq] at heq
      have hid : a.id = b.id := by simpa [MemoryRow.message] using congrArg Message.source heq.1
      rw [memory_eq_of_id (h a List.mem_cons_self) (h' b List.mem_cons_self) hid,
        ih (fun m hm => h m (List.mem_cons_of_mem _ hm))
          (fun m hm => h' m (List.mem_cons_of_mem _ hm)) heq.2]

/-- After a message is stored, the context is the newest `2 * N` messages before it and then the
message if and only if exactly `2 * N` of the newest `4 * N - 1` chat messages before it are of
users or assistants. -/
theorem newest_history_iff (builder : ContextBuilder) (request : ContextRequest) (env env' : Env)
    (db : Db) (id : String) (hturns : 1 ≤ builder.recentTurns)
    (hsession : request.context.sessionId ≠ none) (hfresh : ∀ m ∈ db.memory.rows, m.id ≠ id)
    (hclock : ∀ m ∈ db.memory.rows, m.createdAt ≤ env.now) :
    ∃ row db', (storeUserTurn request.context id request.userInput).run env db = .ok (row, db') ∧
      (builder.Untrimmed request db' →
        ∃ messages, (builder.build request).run env' db' = .ok (messages, db') ∧
          (conversation messages =
            (newestMessages (builder.recentTurns * 2) (db.chatHistory request.context)).map
              (·.message) ++ [⟨"user", request.userInput, none⟩] ↔
            (((db.chatHistory request.context).take (builder.recentTurns * 4 - 1)).filter
              fun m => isUserOrAssistant m.role).length = builder.recentTurns * 2)) := by
  obtain ⟨memory, hstore, hmem⟩ := run_storeUserTurn env request.userInput hsession hfresh
  refine ⟨_, _, hstore, fun huntrimmed => ?_⟩
  obtain ⟨messages, hbuild, hconversation⟩ := ContextBuilder.run_build hsession huntrimmed
  refine ⟨messages, hbuild, ?_⟩
  have hhistory := chatHistory_store hclock hmem
  have hstored : ∀ m ∈ db.chatHistory request.context, m ∈ memory.rows := fun m hm =>
    (hmem m).mpr (.inl (mem_chatHistory.mp hm).1)
  rw [hconversation, List.append_left_inj, map_message_inj { db with memory }]
  · rw [hhistory]
    refine window_eq_newest_iff rfl ?_ (by omega) (by omega)
    exact hhistory ▸ nodup_chatHistory _ _
  · intro m hm
    have hm := List.mem_of_mem_filter (List.mem_of_mem_take hm)
    exact (mem_chatHistory.mp (List.mem_of_mem_take (List.mem_reverse.mp hm))).1
  · intro m hm
    exact hstored m (List.mem_of_mem_filter (List.mem_of_mem_take (List.mem_reverse.mp hm)))

/-! Samples -/

def sampleTurn (id role content : String) (turnIndex createdAt : Nat) : MemoryRow where
  id := id
  tenantId := "ada"
  workspaceId := "home"
  sessionId := some "session"
  content := content
  type := "chat_message"
  role := role
  turnIndex := turnIndex
  createdAt := createdAt
  metadataJson := "\x7b\x7d"

/-- A chat of one turn. -/
def sampleChat : Db :=
  { Db.empty with
    memory := ⟨[sampleTurn "u1" "user" "one" 1 1, sampleTurn "a1" "assistant" "first" 1 2],
      by simp [sampleTurn, MemoryRow.keys, List.Disjoint]⟩ }

/-- A chat of two turns. -/
def sampleLongChat : Db :=
  { Db.empty with
    memory := ⟨[sampleTurn "u1" "user" "one" 1 1, sampleTurn "a1" "assistant" "first" 1 2,
        sampleTurn "u2" "user" "two" 2 3, sampleTurn "a2" "assistant" "second" 2 4],
      by simp [sampleTurn, MemoryRow.keys, List.Disjoint]⟩ }

def sampleBuilder : ContextBuilder where
  recentTurns := 1
  progressiveEnabled := false
  responseReserveTokens := 0
  l1Share tokens := tokens
  anchor := "Current date"
  relevantMemory _ := ""

def sampleRequest : ContextRequest :=
  { systemPrompt := "prompt", userInput := "next", contextWindowLimit := 1000
    context := { tenantId := "ada", workspaceId := "home", sessionId := some "session" } }

/-- After one turn the context is right. -/
theorem newest_history_iff_one_turn :
    let env : Env := { settings := {}, host := .ascii, now := 5 }
    ∃ row db', (storeUserTurn sampleRequest.context "u2" "next").run env sampleChat =
        .ok (row, db') ∧
      ∃ messages, (sampleBuilder.build sampleRequest).run env db' = .ok (messages, db') ∧
        conversation messages = (newestMessages 2 (sampleChat.chatHistory
          sampleRequest.context)).map (·.message) ++ [⟨"user", "next", none⟩] := by
  intro env
  obtain ⟨row, db', hstore, hbuild⟩ := newest_history_iff sampleBuilder sampleRequest env env
    sampleChat "u2" (by decide) (by decide) (by decide +kernel) (by decide +kernel)
  obtain ⟨messages, hrun, hiff⟩ := hbuild nofun
  exact ⟨row, db', hstore, messages, hrun, hiff.mpr (by decide +kernel)⟩

/-- After two turns the context leaves out the last answer. -/
theorem last_answer_left_out : ¬ ∀ (builder : ContextBuilder) (request : ContextRequest)
    (env : Env) (db : Db) (id : String), 1 ≤ builder.recentTurns →
    request.context.sessionId ≠ none → (∀ m ∈ db.memory.rows, m.id ≠ id) →
    (∀ m ∈ db.memory.rows, m.createdAt ≤ env.now) →
    ∀ row db', (storeUserTurn request.context id request.userInput).run env db = .ok (row, db') →
    builder.Untrimmed request db' →
    ∀ messages db'', (builder.build request).run env db' = .ok (messages, db'') →
      conversation messages = (newestMessages (builder.recentTurns * 2)
        (db.chatHistory request.context)).map (·.message) ++
          [⟨"user", request.userInput, none⟩] := by
  intro hall
  let env : Env := { settings := {}, host := .ascii, now := 5 }
  have hshown : ((storeUserTurn sampleRequest.context "u3" "next").run env
      sampleLongChat).toOption.bind (fun stored =>
        ((sampleBuilder.build sampleRequest).run env stored.2).toOption.map fun built =>
          (conversation built.1).map (·.source)) = some [some "a1", some "u2", none] := by
    decide +kernel
  obtain ⟨⟨row, db'⟩, hstore, hmap⟩ := Option.bind_eq_some_iff.mp hshown
  obtain ⟨⟨messages, db''⟩, hbuild, hsources⟩ := Option.map_eq_some_iff.mp hmap
  have hright := hall sampleBuilder sampleRequest env sampleLongChat "u3" (by decide) (by decide)
    (by decide +kernel) (by decide +kernel) row db' (eq_ok_of_toOption hstore) nofun messages db''
    (eq_ok_of_toOption hbuild)
  rw [hright] at hsources
  revert hsources
  decide +kernel

end MultiClaw
