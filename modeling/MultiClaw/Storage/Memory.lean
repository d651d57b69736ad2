import MultiClaw.Base.Json
import MultiClaw.Storage.Schema

/-! The memory repository, as far as the workflow writes to it. -/
namespace MultiClaw

open Base Transaction

/-- A memory entry before it is stored. -/
structure MemoryEntry where
  id : String
  content : String
  type : String
  sessionId : Option String
  role : String := "note"
  turnIndex : Nat := 0
  metadata : Json := .obj []

namespace MemoryRepository

/-- An entry belongs to the session of its context, or to no session. -/
def prepareEntry (context : TenantContext) (entry : MemoryEntry) :
    Except WorkflowError MemoryEntry :=
  let sessionId := entry.sessionId.filter (· ≠ "")
  if entry.type = "chat_message" then
    match context.sessionId with
    | none => .error (.value "session_id is required for chat_message entries")
    | some session =>
      if sessionId.getD session ≠ session then
        .error (.value "session_id must match the current context")
      else .ok { entry with sessionId := some session }
  else if sessionId ≠ none ∧ sessionId ≠ context.sessionId then
    .error (.value "session_id must match the current context")
  else .ok { entry with sessionId }

/-- Insert or rewrite the row with the entry's id. -/
def save (context : TenantContext) (entry : MemoryEntry) : Tx MemoryRow := do
  let env ← ask
  let db ← get
  let entry ← ofExcept (prepareEntry context entry)
  match entry.metadata.dumpsAscii with
  | none => throw (.value "metadata has no JSON text")
  | some metadataJson =>
    let row : MemoryRow :=
      { id := entry.id, tenantId := context.tenantId, workspaceId := context.workspaceId
        sessionId := entry.sessionId, content := entry.content, type := entry.type
        role := entry.role, turnIndex := entry.turnIndex, createdAt := env.now, metadataJson }
    let mine := fun m : MemoryRow => m.tenantId == row.tenantId &&
      m.workspaceId == row.workspaceId && m.id == row.id && m.sessionId == row.sessionId
    if db.memory.count mine = 0 then
      match db.memory.insert? row with
      | none => throw .integrity
      | some memory =>
        set { db with memory }
        return row
    else
      let memory := db.memory.update mine (fun m => { row with id := m.id }) (fun _ => rfl)
      set { db with memory }
      return row

/-- A session entry under a fresh id is inserted. -/
theorem save_fresh {env : Env} {db : Db} {context : TenantContext} {entry : MemoryEntry}
    {metadataJson : String} (hprepared : prepareEntry context entry = .ok entry)
    (hfresh : ∀ m ∈ db.memory.rows, m.id ≠ entry.id)
    (hmetadata : entry.metadata.dumpsAscii = some metadataJson) :
    ∃ row memory, row = ⟨entry.id, context.tenantId, context.workspaceId, entry.sessionId,
        entry.content, entry.type, entry.role, entry.turnIndex, env.now, metadataJson⟩ ∧
      db.memory.insert? row = some memory ∧
      (save context entry).run env db = .ok (row, { db with memory }) := by
  have hcount : (db.memory.count fun m => m.tenantId == context.tenantId &&
      m.workspaceId == context.workspaceId && m.id == entry.id &&
      m.sessionId == entry.sessionId) = 0 := by
    refine List.countP_eq_zero.mpr fun m hm => ?_
    simp [hfresh m hm]
  obtain ⟨memory, hinsert⟩ := Table.insert?_isSome (t := db.memory) (r := ⟨entry.id,
    context.tenantId, context.workspaceId, entry.sessionId, entry.content, entry.type, entry.role,
    entry.turnIndex, env.now, metadataJson⟩) (by
      intro m hm k hk
      simp only [MemoryRow.keys, List.mem_singleton] at hk ⊢
      exact hk ▸ hfresh m hm)
  exact ⟨_, memory, rfl, hinsert,
    by simp [save, run_bind, hprepared, hmetadata, hcount, hinsert]⟩

/-- Saving an entry writes to no other table. -/
theorem save_ensures {env : Env} {db : Db} {context : TenantContext} {entry : MemoryEntry} :
    Ensures (save context entry) env db fun _ db' => ∃ memory, db' = { db with memory } := by
  refine ensures_ask (ensures_get (ensures_ofExcept fun prepared _ => ?_))
  dsimp only
  split
  · exact ensures_of_error rfl
  · split_ifs
    · split
      · exact ensures_of_error rfl
      · exact ensures_of_ok rfl ⟨_, rfl⟩
    · exact ensures_of_ok rfl ⟨_, rfl⟩

end MemoryRepository

end MultiClaw
