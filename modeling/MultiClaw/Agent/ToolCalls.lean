import MultiClaw.Base.FloatText
import MultiClaw.Storage.Schema

/-! The ids under which the tool calls of a run are stored. -/
namespace MultiClaw

open Base

/-- A tool call as the provider's reply is parsed; the id is empty if none was given. -/
structure ProviderToolCall where
  id : String := ""
  name : String
  arguments : List (PyStr × Json)

structure ToolCallSpec where
  callId : String
  name : String
  arguments : List (PyStr × Json)

/-- `_normalize_tool_calls`: a call without an id is named after its place in the reply. -/
def normalizeToolCalls (calls : List ProviderToolCall) : List ProviderToolCall :=
  calls.zipIdx.map fun c =>
    { c.1 with id := if c.1.id = "" then "call_" ++ toString c.2 else c.1.id }

def buildToolCallSpecs (calls : List ProviderToolCall) : List ToolCallSpec :=
  calls.map fun call => ⟨call.id, call.name, call.arguments⟩

/-- What becomes of a call: it is refused before an execution is stored (an unknown tool, invalid
arguments, a policy that denies it), it is executed, or it is stored and waits for the user. -/
inductive CallOutcome where
  | refused
  | executed
  | suspended
  deriving DecidableEq

namespace ToolBatchExecutor

/-- The ids of the executions that a batch inserts; a call that waits for the user ends it. -/
def execute (outcome : Nat → CallOutcome) : Nat → List ToolCallSpec → List String
  | _, [] => []
  | i, call :: calls =>
    match outcome i with
    | .refused => execute outcome (i + 1) calls
    | .executed => call.callId :: execute outcome (i + 1) calls
    | .suspended => [call.callId]

end ToolBatchExecutor

/-- One reply of the model, with the outcomes of its calls. -/
structure ModelReply where
  calls : List ProviderToolCall
  outcome : Nat → CallOutcome

/-- The ids under which the executions of a run are inserted, over all its replies. -/
def insertedIds (replies : List ModelReply) : List String :=
  replies.flatMap fun r =>
    ToolBatchExecutor.execute r.outcome 0 (buildToolCallSpecs (normalizeToolCalls r.calls))

/-- The ids that the provider gave. -/
def givenIds (replies : List ModelReply) : List String :=
  replies.flatMap fun r => (r.calls.map (·.id)).filter (· ≠ "")

/-- The calls that are inserted, as they were parsed, with their places in the reply. -/
def insertedFrom (outcome : Nat → CallOutcome) : Nat → List ProviderToolCall → List (String × Nat)
  | _, [] => []
  | i, call :: calls =>
    match outcome i with
    | .refused => insertedFrom outcome (i + 1) calls
    | .executed => (call.id, i) :: insertedFrom outcome (i + 1) calls
    | .suspended => [(call.id, i)]

def insertedCalls (replies : List ModelReply) : List (String × Nat) :=
  replies.flatMap fun r => insertedFrom r.outcome 0 r.calls

/-- The places of the inserted calls that have no id. -/
def unnamedPlaces (replies : List ModelReply) : List Nat :=
  ((insertedCalls replies).filter (·.1 = "")).map (·.2)

/-- No place has an unnamed call in two replies, and no given id looks like one of their names. -/
structure FallbacksApart (replies : List ModelReply) : Prop where
  places : (unnamedPlaces replies).Nodup
  given : ∀ c ∈ insertedCalls replies, ∀ i ∈ unnamedPlaces replies, c.1 ≠ "call_" ++ toString i

/-- The id of a call at a place. -/
def callName (c : String × Nat) : String := if c.1 = "" then "call_" ++ toString c.2 else c.1

variable {replies : List ModelReply} {outcome : Nat → CallOutcome} {calls : List ProviderToolCall}

theorem execute_eq (i : Nat) : ToolBatchExecutor.execute outcome i (buildToolCallSpecs
    ((calls.zipIdx i).map fun c =>
      { c.1 with id := if c.1.id = "" then "call_" ++ toString c.2 else c.1.id })) =
    (insertedFrom outcome i calls).map callName := by
  induction calls generalizing i with
  | nil => rfl
  | cons call calls ih =>
    rw [List.zipIdx_cons, List.map_cons, buildToolCallSpecs, List.map_cons,
      ToolBatchExecutor.execute, insertedFrom]
    cases outcome i with
    | refused => exact ih (i + 1)
    | executed =>
      rw [List.map_cons]
      exact congrArg _ (ih (i + 1))
    | suspended => rfl

theorem insertedIds_eq : insertedIds replies = (insertedCalls replies).map callName := by
  rw [insertedIds, insertedCalls, List.map_flatMap]
  exact List.flatMap_congr fun r _ => execute_eq 0

theorem insertedFrom_ids_sublist (i : Nat) :
    ((insertedFrom outcome i calls).map (·.1)).Sublist (calls.map (·.id)) := by
  induction calls generalizing i with
  | nil => exact .slnil
  | cons call calls ih =>
    rw [insertedFrom, List.map_cons]
    cases outcome i with
    | refused => exact (ih (i + 1)).cons _
    | executed => exact (ih (i + 1)).cons_cons _
    | suspended => exact (List.nil_sublist _).cons_cons _

theorem insertedCalls_ids_sublist :
    (((insertedCalls replies).map (·.1)).filter (· ≠ "")).Sublist (givenIds replies) := by
  induction replies with
  | nil => exact .slnil
  | cons r replies ih =>
    rw [insertedCalls, givenIds, List.flatMap_cons, List.flatMap_cons, List.map_append,
      List.filter_append]
    exact ((insertedFrom_ids_sublist 0).filter _).append ih

theorem name_injective {i j : Nat} (h : "call_" ++ toString i = "call_" ++ toString j) : i = j := by
  have hdigits := congrArg String.toList h
  rw [String.toList_append, String.toList_append, Json.toList_toString,
    Json.toList_toString] at hdigits
  have := congrArg (Nat.ofDigitChars 10 · 0) (List.append_cancel_left hdigits)
  simpa only [Nat.ofDigitChars_ten_toDigits] using this

theorem name_ne_empty (i : Nat) : "call_" ++ toString i ≠ "" := by
  intro h
  have := congrArg String.toList h
  rw [String.toList_append] at this
  cases this

theorem mem_unnamedPlaces {i : Nat} :
    i ∈ unnamedPlaces replies ↔ ("", i) ∈ insertedCalls replies := by
  simp [unnamedPlaces]

/-- The ids of a run are different if and only if its unnamed calls are kept apart. -/
theorem insertedIds_nodup_iff (hgiven : (givenIds replies).Nodup) :
    (insertedIds replies).Nodup ↔ FallbacksApart replies := by
  have hunnamed : (unnamedPlaces replies).Nodup ↔ (insertedCalls replies).Pairwise
      fun a b => a.1 = "" → b.1 = "" → a.2 ≠ b.2 := by
    rw [unnamedPlaces, List.Nodup, List.pairwise_map, List.pairwise_filter]
    simp
  rw [insertedIds_eq]
  constructor
  · intro hnodup
    refine ⟨hunnamed.mpr ?_, fun c hc i hi heq => ?_⟩
    · refine (List.pairwise_map.mp hnodup).imp fun hne ha hb hplace => hne ?_
      simp [callName, ha, hb, hplace]
    · have hname : callName c = callName ("", i) := by
        simp [callName, heq]
      have hsame := List.inj_on_of_nodup_map hnodup hc (mem_unnamedPlaces.mp hi) hname
      rw [hsame] at heq
      exact name_ne_empty i heq.symm
  · intro hapart
    have hnamed : (insertedCalls replies).Pairwise fun a b => a.1 ≠ "" → b.1 ≠ "" → a.1 ≠ b.1 := by
      have := insertedCalls_ids_sublist.nodup hgiven
      rw [List.Nodup, List.pairwise_filter, List.pairwise_map] at this
      simpa using this
    refine List.pairwise_map.mpr (((hunnamed.mp hapart.places).and hnamed).imp_of_mem ?_)
    intro a b ha hb hne
    have hcross : ∀ c ∈ insertedCalls replies, ∀ d ∈ insertedCalls replies, d.1 = "" →
        c.1 ≠ "call_" ++ toString d.2 := fun c hc d hd hempty =>
      hapart.given c hc d.2 (mem_unnamedPlaces.mpr (hempty ▸ hd))
    unfold callName
    split <;> split
    · exact fun h => hne.1 ‹_› ‹_› (name_injective h)
    · exact fun h => hcross b hb a ha ‹_› h.symm
    · exact hcross a ha b hb ‹_›
    · exact hne.2 ‹_› ‹_›

/-- The executions of a run are all accepted by the unique constraint if its unnamed calls are kept
apart, and otherwise two of them have one id. -/
theorem tool_calls_apart_iff (hgiven : (givenIds replies).Nodup) :
    ((insertedIds replies).Nodup ↔ FallbacksApart replies) ∧
    (FallbacksApart replies → ∀ before id after, insertedIds replies = before ++ id :: after →
      ∀ (executions : Table ExecutionRow RowKey ExecutionRow.keys) (row : ExecutionRow),
        row.toolCallId = id →
        (∀ e ∈ executions.rows, e.scope = row.scope → e.toolCallId ∈ before) →
        (∀ e ∈ executions.rows, e.executionId ≠ row.executionId) →
        ∃ executions', executions.insert? row = some executions') := by
  refine ⟨insertedIds_nodup_iff hgiven, ?_⟩
  intro hapart before id after hsplit executions row hid hstored hfresh
  have hnodup := (insertedIds_nodup_iff hgiven).mpr hapart
  rw [hsplit] at hnodup
  have hnew : id ∉ before := fun hmem =>
    (List.nodup_append.mp hnodup).2.2 id hmem id List.mem_cons_self rfl
  refine Table.insert?_isSome fun e he k hk hk' => ?_
  simp only [ExecutionRow.keys, List.mem_cons, List.not_mem_nil, or_false] at hk hk'
  obtain rfl | rfl := hk
  · obtain h | h := hk'
    · exact hfresh e he (RowKey.id.inj h)
    · cases h
  · obtain h | h := hk'
    · cases h
    · obtain ⟨hscope, hcall⟩ := RowKey.toolCall.inj h
      exact hnew (hid ▸ hcall ▸ hstored e he hscope)

theorem tool_calls_apart_iff_sample :
    let calls : List ProviderToolCall := [⟨"", "grep", []⟩, ⟨"c1", "glob", []⟩]
    (insertedIds [⟨calls, fun _ => .executed⟩]).Nodup := by
  intro calls
  exact (tool_calls_apart_iff (by decide)).1.mpr ⟨by decide, by decide⟩

/-- Two replies, each with one call without an id: the second execution is refused by every table
that holds the first. -/
theorem unnamed_calls_collide :
    let reply : ModelReply := ⟨[⟨"", "grep", []⟩], fun _ => .executed⟩
    (givenIds [reply, reply]).Nodup ∧ insertedIds [reply, reply] = ["call_0", "call_0"] ∧
      ∀ (executions : Table ExecutionRow RowKey ExecutionRow.keys), ∀ e ∈ executions.rows,
        ∀ row : ExecutionRow, e.toolCallId = "call_0" → row.toolCallId = "call_0" →
          e.scope = row.scope → executions.insert? row = none := by
  refine ⟨by decide, by decide, fun executions e he row hold hnew hscope => ?_⟩
  refine Option.eq_none_iff_forall_ne_some.mpr fun executions' hinsert => ?_
  refine Table.insert?_fresh hinsert he (k := .toolCall e.scope e.toolCallId) ?_ ?_
  · simp [ExecutionRow.keys]
  · simp [ExecutionRow.keys, hold, hnew, hscope]

end MultiClaw
