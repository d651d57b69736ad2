import MultiClaw.Base.Dicts
import MultiClaw.Llm.Providers

/-! A streamed reply gives what the same reply gives when it comes whole. -/
namespace MultiClaw.Llm

open Base

/-! What a caller makes of the events of a stream -/

structure Reply where
  content : String := ""
  reasoningContent : String := ""
  toolCalls : List ToolCall := []
  usage : Option Usage := none

/-- Texts are joined; of usage and tool calls the last word counts. -/
def Reply.add (reply : Reply) : StreamEvent → Reply
  | .usage usage => { reply with usage := some usage }
  | .reasoning content => { reply with reasoningContent := reply.reasoningContent ++ content }
  | .token content => { reply with content := reply.content ++ content }
  | .toolCalls calls _ => { reply with toolCalls := calls }

def streamedReply (host : Host) (chunks : List Json) : Except ParseFailure Reply :=
  ((OpenAIAdapter host).streamEvents chunks (OpenAIAdapter host).start).map fun events =>
    events.foldl Reply.add {}

def wholeReply (host : Host) (raw : Json) : Except ParseFailure Reply :=
  (parseResponse host raw).map fun response =>
    { content := response.content
      reasoningContent := response.reasoningContent
      toolCalls := response.toolCalls
      usage := response.usage }

/-! The chunks of a reply -/

def ResponseEnvelope.calls (envelope : ResponseEnvelope) : List ToolCallEnvelope :=
  envelope.message.toolCalls.getD []

def streamFragments (stream : List StreamEnvelope) : List ToolFragment :=
  stream.flatMap fun chunk => chunk.delta.toolCalls.getD []

/-- Some of the fragments carry the text, and none carries another. -/
def Told (text : String) (told : List (Option String)) : Prop :=
  (∀ given ∈ told, given.getD "" = "" ∨ given = some text) ∧
    (text ≠ "" → some text ∈ told)

instance (text : String) (told : List (Option String)) : Decidable (Told text told) :=
  inferInstanceAs (Decidable (_ ∧ _))

/-- The fragments of one call: its id and name are told whole, its arguments piece by piece. -/
@[mk_iff]
structure Carries (call : ToolCallEnvelope) (fragments : List ToolFragment) : Prop where
  started : fragments ≠ []
  id : Told call.id (fragments.map (·.id))
  name : Told call.name (fragments.map (·.name))
  arguments : String.join (fragments.map (·.arguments.getD "")) = call.arguments

instance (call : ToolCallEnvelope) (fragments : List ToolFragment) :
    Decidable (Carries call fragments) :=
  decidable_of_iff _ (carries_iff call fragments).symm

/-- A stream of a reply. The fragments of different calls may come in any order. -/
structure Cut (envelope : ResponseEnvelope) (stream : List StreamEnvelope) : Prop where
  content : String.join (stream.map (·.delta.content.getD "")) =
    envelope.message.content.getD ""
  reasoning : String.join (stream.map (·.delta.reasoningContent.getD "")) =
    envelope.message.reasoningContent
  usage : (stream.filterMap (givenUsage ·.usage)).getLast? = givenUsage envelope.usage
  index : ∀ fragment ∈ streamFragments stream, fragment.index < envelope.calls.length
  calls : ∀ call ∈ envelope.calls.zipIdx,
    Carries call.1 ((streamFragments stream).filter (·.index = call.2))

/-! One call -/

def ToolCallEnvelope.entry (call : ToolCallEnvelope) : ToolEntry where
  id := call.id
  name := call.name
  arguments := call.arguments

variable {host : Host} {entries : List (Nat × ToolEntry)} {entry : ToolEntry}
  {fragment : ToolFragment} {fragments : List ToolFragment} {call : ToolCallEnvelope}
  {calls : List ToolCallEnvelope} {stream : List StreamEnvelope} {state : StreamState} {i : Nat}

theorem foldl_given_eq {α : Type} {read : α → Option String} {text start : String} {l : List α}
    (hother : ∀ a ∈ l, (read a).getD "" = "" ∨ read a = some text)
    (htold : start = text ∨ text ≠ "" ∧ some text ∈ l.map read) :
    l.foldl (fun now a => (givenText (read a)).getD now) start = text := by
  induction l generalizing start with
  | nil => simpa using htold
  | cons a l ih =>
    rw [List.foldl_cons]
    refine ih (fun b hb => hother b (List.mem_cons_of_mem a hb)) ?_
    rcases hother a List.mem_cons_self with hempty | hgiven
    · have hnone : givenText (read a) = none := by
        cases hread : read a with
        | none => rfl
        | some given => simp_all [givenText]
      rw [hnone, Option.getD_none]
      refine htold.imp_right fun ⟨hne, hmem⟩ => ⟨hne, ?_⟩
      rcases List.mem_cons.mp hmem with heq | hmem
      · rw [← heq] at hempty
        exact absurd hempty hne
      · exact hmem
    · by_cases hne : text = ""
      · subst hne
        left
        simpa [hgiven, givenText, Option.filter] using htold
      · left
        simp [hgiven, givenText, Option.filter, hne]

theorem Told.foldl_eq {read : ToolFragment → Option String} {text : String}
    (h : Told text (fragments.map read)) :
    fragments.foldl (fun now fragment => (givenText (read fragment)).getD now) "" = text := by
  refine foldl_given_eq (fun a ha => h.1 (read a) (List.mem_map_of_mem ha)) ?_
  by_cases hne : text = ""
  · exact .inl hne.symm
  · exact .inr ⟨hne, h.2 hne⟩

theorem foldl_add_id (fragments : List ToolFragment) (entry : ToolEntry) :
    (fragments.foldl ToolEntry.add entry).id =
    fragments.foldl (fun now fragment => (givenText fragment.id).getD now) entry.id :=
  (List.foldl_hom ToolEntry.id fun _ _ => rfl).symm

theorem foldl_add_name (fragments : List ToolFragment) (entry : ToolEntry) :
    (fragments.foldl ToolEntry.add entry).name =
    fragments.foldl (fun now fragment => (givenText fragment.name).getD now) entry.name :=
  (List.foldl_hom ToolEntry.name fun _ _ => rfl).symm

theorem foldl_add_arguments (fragments : List ToolFragment) (entry : ToolEntry) :
    (fragments.foldl ToolEntry.add entry).arguments =
    entry.arguments ++ String.join (fragments.map (·.arguments.getD "")) := by
  induction fragments generalizing entry with
  | nil => simp
  | cons fragment fragments ih =>
    rw [List.foldl_cons, ih, List.map_cons, String.join_cons, ← String.append_assoc]
    rfl

theorem Carries.foldl_add (h : Carries call fragments) :
    fragments.foldl ToolEntry.add {} = call.entry := by
  have hid := foldl_add_id fragments {}
  have hname := foldl_add_name fragments {}
  have harguments := foldl_add_arguments fragments {}
  rw [h.id.foldl_eq] at hid
  rw [h.name.foldl_eq] at hname
  rw [h.arguments, String.empty_append] at harguments
  generalize fragments.foldl ToolEntry.add {} = entry at hid hname harguments
  cases entry
  simp_all [ToolCallEnvelope.entry]

theorem ToolCallEnvelope.finish_entry (hname : call.name ≠ "") (harguments : call.arguments ≠ "") :
    call.entry.finish host = call.parse host := by
  simp only [ToolEntry.finish, ToolCallEnvelope.entry, ToolCallEnvelope.parse, hname, harguments,
    if_false]
  cases parseArguments host call.arguments <;> rfl

/-! The table of calls, by their index -/

theorem lookup_addFragment : (addFragment entries fragment).lookup i =
    if i = fragment.index then some (((entries.lookup i).getD {}).add fragment)
    else entries.lookup i := by
  induction entries with
  | nil =>
    rw [addFragment, List.lookup_cons]
    by_cases hi : i = fragment.index
    · simp [hi]
    · simp [hi, beq_eq_false_iff_ne.mpr hi]
  | cons head entries ih =>
    obtain ⟨index, entry⟩ := head
    rw [addFragment]
    by_cases hindex : fragment.index = index
    · subst hindex
      rw [if_pos rfl, List.lookup_cons, List.lookup_cons]
      by_cases hi : i = fragment.index
      · simp [hi]
      · simp [hi, beq_eq_false_iff_ne.mpr hi]
    · rw [if_neg hindex, List.lookup_cons, List.lookup_cons]
      by_cases hi : i = index
      · subst hi
        simp [Ne.symm hindex]
      · simp only [beq_eq_false_iff_ne.mpr hi, ih]

theorem keys_addFragment : (addFragment entries fragment).map Prod.fst =
    if fragment.index ∈ entries.map Prod.fst then entries.map Prod.fst
    else entries.map Prod.fst ++ [fragment.index] := by
  induction entries with
  | nil => simp [addFragment]
  | cons head entries ih =>
    obtain ⟨index, entry⟩ := head
    rw [addFragment]
    by_cases hindex : fragment.index = index
    · simp [hindex]
    · rw [if_neg hindex, List.map_cons, ih]
      by_cases hmem : fragment.index ∈ entries.map Prod.fst
      · rw [if_pos hmem, if_pos (by simp only [List.map_cons, List.mem_cons, hmem, or_true]),
          List.map_cons]
      · rw [if_neg hmem, if_neg (by simp only [List.map_cons, List.mem_cons, hindex, hmem,
          or_self, not_false_eq_true]), List.map_cons, List.cons_append]

theorem addFragment_nodup (h : (entries.map Prod.fst).Nodup) :
    ((addFragment entries fragment).map Prod.fst).Nodup := by
  rw [keys_addFragment]
  split
  · exact h
  · rename_i hnew
    exact List.nodup_append.mpr ⟨h, by simp, by rintro a ha b hb rfl; simp_all⟩

theorem foldl_addFragment_nodup (h : (entries.map Prod.fst).Nodup) :
    ((fragments.foldl addFragment entries).map Prod.fst).Nodup := by
  induction fragments generalizing entries with
  | nil => exact h
  | cons fragment fragments ih => exact ih (addFragment_nodup h)

theorem lookup_foldl_addFragment (fragments : List ToolFragment)
    (entries : List (Nat × ToolEntry)) (i : Nat) : (fragments.foldl addFragment entries).lookup i =
    if fragments.filter (·.index = i) = [] then entries.lookup i
    else some ((fragments.filter (·.index = i)).foldl ToolEntry.add
      ((entries.lookup i).getD {})) := by
  induction fragments generalizing entries with
  | nil => simp
  | cons fragment fragments ih =>
    rw [List.foldl_cons, ih, lookup_addFragment]
    by_cases hi : i = fragment.index
    · rw [if_pos hi, List.filter_cons_of_pos (by simp [hi]), if_neg (List.cons_ne_nil _ _)]
      split
      · rename_i hnil
        rw [hnil]
        rfl
      · rfl
    · rw [if_neg hi, List.filter_cons_of_neg (by simpa using Ne.symm hi)]

/-- The calls of a reply under their indices. -/
def indexed (calls : List ToolCallEnvelope) : List (Nat × ToolEntry) :=
  calls.mapIdx fun i call => (i, call.entry)

theorem mem_indexed :
    (i, entry) ∈ indexed calls ↔ ∃ h : i < calls.length, calls[i].entry = entry := by
  simp only [indexed, List.mem_mapIdx, Prod.mk.injEq]
  constructor
  · rintro ⟨j, hj, rfl, heq⟩
    exact ⟨hj, heq⟩
  · rintro ⟨h, heq⟩
    exact ⟨i, h, rfl, heq⟩

theorem keys_indexed : (indexed calls).map Prod.fst = List.range calls.length := by
  refine List.ext_getElem (by simp [indexed]) fun i _ _ => by simp [indexed]

/-- Whatever the order of the fragments, the sorted table is that of the reply. -/
theorem sorted_eq_indexed
    (hindex : ∀ fragment ∈ fragments, fragment.index < calls.length)
    (hcalls : ∀ call ∈ calls.zipIdx, Carries call.1 (fragments.filter (·.index = call.2))) :
    (fragments.foldl addFragment []).mergeSort (·.1 ≤ ·.1) = indexed calls := by
  set table := fragments.foldl addFragment [] with htable
  have hnodup : (table.map Prod.fst).Nodup := foldl_addFragment_nodup (by simp)
  have hmem : ∀ entry, entry ∈ table ↔ entry ∈ indexed calls := by
    rintro ⟨i, entry⟩
    have hlookup := lookup_foldl_addFragment fragments [] i
    rw [← htable] at hlookup
    rw [mem_indexed]
    by_cases hi : i < calls.length
    · have hcarries := hcalls (calls[i], i) (List.mk_mem_zipIdx_iff_getElem?.mpr (by simp [hi]))
      rw [if_neg hcarries.started] at hlookup
      have hentry : table.lookup i = some calls[i].entry :=
        hlookup.trans (congrArg some hcarries.foldl_add)
      constructor
      · intro h
        rw [lookup_of_mem hnodup h] at hentry
        exact ⟨hi, (Option.some.inj hentry).symm⟩
      · rintro ⟨-, rfl⟩
        exact mem_of_lookup hentry
    · have hnone : fragments.filter (·.index = i) = [] := by
        refine List.filter_eq_nil_iff.mpr fun fragment hfragment => ?_
        have := hindex fragment hfragment
        simp only [decide_eq_true_eq]
        omega
      rw [if_pos hnone] at hlookup
      refine ⟨fun h => ?_, fun ⟨h, _⟩ => absurd h hi⟩
      rw [lookup_of_mem hnodup h] at hlookup
      cases hlookup
  have hsame : table.Perm (indexed calls) :=
    (List.perm_ext_iff_of_nodup (List.Nodup.of_map _ hnodup)
      (List.Nodup.of_map Prod.fst (keys_indexed ▸ List.nodup_range))).mpr hmem
  refine List.Perm.eq_of_pairwise ?_
    (List.pairwise_mergeSort (fun _ _ _ h h' => by simp_all; omega) (by simp; omega) table) ?_
    ((List.mergeSort_perm table _).trans hsame)
  · rintro ⟨i, entry⟩ ⟨j, entry'⟩ ha hb hle hge
    have ha := (hmem _).mp (List.mem_mergeSort.mp ha)
    simp only [decide_eq_true_eq] at hle hge
    obtain rfl : i = j := Nat.le_antisymm hle hge
    obtain ⟨_, rfl⟩ := mem_indexed.mp ha
    obtain ⟨_, rfl⟩ := mem_indexed.mp hb
    rfl
  · have hsorted : ((indexed calls).map Prod.fst).Pairwise (· ≤ ·) := by
      rw [keys_indexed]
      exact List.pairwise_le_range
    exact (List.pairwise_map.mp hsorted).imp fun h => by simpa using h

theorem mapM_indexed_finish (h : ∀ call ∈ calls, call.name ≠ "" ∧ call.arguments ≠ "") :
    (indexed calls).mapM (fun entry => entry.2.finish host) =
      calls.mapM (ToolCallEnvelope.parse host) := by
  have hentries : (indexed calls).map Prod.snd = calls.map ToolCallEnvelope.entry :=
    List.ext_getElem (by simp [indexed]) fun i _ _ => by simp [indexed]
  have hsecond : (indexed calls).mapM (fun entry => entry.2.finish host) =
      ((indexed calls).map Prod.snd).mapM (ToolEntry.finish host) := by
    rw [List.mapM_map]
    rfl
  rw [hsecond, hentries, List.mapM_map]
  clear hentries hsecond
  induction calls with
  | nil => rfl
  | cons call calls ih =>
    obtain ⟨hname, harguments⟩ := h call List.mem_cons_self
    rw [List.mapM_cons, List.mapM_cons, Function.comp_apply,
      ToolCallEnvelope.finish_entry hname harguments,
      ih fun other hother => h other (List.mem_cons_of_mem call hother)]

/-! The texts and the usage -/

def StreamState.addStream (state : StreamState) (stream : List StreamEnvelope) : StreamState :=
  stream.foldl (fun state chunk => state.addDelta chunk.delta) state

theorem addStream_toolCalls : (state.addStream stream).toolCalls =
    (streamFragments stream).foldl addFragment state.toolCalls := by
  induction stream generalizing state with
  | nil => rfl
  | cons chunk stream ih =>
    have hfragments : streamFragments (chunk :: stream) =
        chunk.delta.toolCalls.getD [] ++ streamFragments stream := List.flatMap_cons
    rw [StreamState.addStream, List.foldl_cons, ← StreamState.addStream, ih, hfragments,
      List.foldl_append]
    rfl

def StreamEnvelope.told (chunk : StreamEnvelope) : Option Usage :=
  (givenUsage chunk.usage).bind normalizeUsage

theorem append_given (text : String) (given : Option String) :
    ((givenText given).map (text ++ ·)).getD text = text ++ given.getD "" := by
  cases given with
  | none => simp [givenText]
  | some s => by_cases hs : s = "" <;> simp [givenText, Option.filter, hs]

theorem foldl_events (reply : Reply) (chunk : StreamEnvelope) :
    chunk.events.foldl Reply.add reply =
      { content := reply.content ++ chunk.delta.content.getD ""
        reasoningContent := reply.reasoningContent ++ chunk.delta.reasoningContent.getD ""
        toolCalls := reply.toolCalls
        usage := chunk.told.or reply.usage } := by
  rw [← append_given, ← append_given, StreamEnvelope.events, StreamEnvelope.told,
    List.foldl_append, List.foldl_append]
  cases (givenUsage chunk.usage).bind normalizeUsage <;>
    cases givenText chunk.delta.reasoningContent <;>
    cases givenText chunk.delta.content <;> rfl

theorem foldl_stream_events (reply : Reply) :
    (stream.flatMap StreamEnvelope.events).foldl Reply.add reply =
      { content := reply.content ++ String.join (stream.map (·.delta.content.getD ""))
        reasoningContent := reply.reasoningContent ++
          String.join (stream.map (·.delta.reasoningContent.getD ""))
        toolCalls := reply.toolCalls
        usage := (stream.filterMap StreamEnvelope.told).getLast?.or reply.usage } := by
  induction stream generalizing reply with
  | nil => simp
  | cons chunk stream ih =>
    rw [List.flatMap_cons, List.foldl_append, foldl_events, ih]
    simp only [List.map_cons, String.join_cons, String.append_assoc, Reply.mk.injEq, true_and]
    cases htold : chunk.told with
    | none => rw [List.filterMap_cons_none htold, Option.none_or]
    | some usage =>
      rw [List.filterMap_cons_some htold, List.getLast?_cons]
      cases (stream.filterMap StreamEnvelope.told).getLast? <;> rfl

theorem streamEvents_eq {chunks : List Json} (h : chunks.mapM StreamEnvelope.read = some stream) :
    (OpenAIAdapter host).streamEvents chunks state =
      ((state.addStream stream).finish host).map
        (stream.flatMap StreamEnvelope.events ++ ·) := by
  induction chunks generalizing stream state with
  | nil =>
    cases h
    rw [StreamAdapter.streamEvents]
    change state.finish host = (state.finish host).map id
    cases state.finish host <;> rfl
  | cons raw chunks ih =>
    obtain ⟨chunk, stream, hchunk, hstream, rfl⟩ :=
      List.forall₂_cons_left_iff.mp (mapM_eq_some_iff.mp h)
    have hparsed : (OpenAIAdapter host).parseStreamEvents raw state =
        .ok (chunk.events, state.addDelta chunk.delta) := by
      simp only [OpenAIAdapter, parseStreamEvents, validated, hchunk]
      rfl
    rw [StreamAdapter.streamEvents, hparsed]
    simp only [bind, Except.bind, ih (mapM_eq_some_iff.mpr hstream), StreamState.addStream,
      List.foldl_cons, List.flatMap_cons]
    generalize StreamState.finish host _ = final
    cases final <;> simp [Except.map, pure, Except.pure]

theorem readUsage_valid {value : Json} {raw : Members} (h : readUsage value = some (some raw)) :
    (normalizeUsage raw).isSome := by
  cases value <;> simp only [readUsage, nullable, strictObject, Option.map_eq_some_iff,
    reduceCtorEq, Option.some.injEq, Option.map_none] at h
  obtain ⟨_, ⟨usage, hread, rfl⟩, rfl⟩ := h
  simp [normalizeUsage, hread]

/-- The usage of a chunk that passes can be normalized. -/
theorem StreamEnvelope.read_usage {raw : Json} {chunk : StreamEnvelope} {usage : Members}
    (h : StreamEnvelope.read raw = some chunk) (husage : givenUsage chunk.usage = some usage) :
    (normalizeUsage usage).isSome := by
  have hgiven := (Option.filter_eq_some_iff.mp husage).1
  cases raw <;> simp only [StreamEnvelope.read, strictObject, reduceCtorEq] at h
  simp only [Option.bind_eq_bind, Option.bind_eq_some_iff, Option.pure_def,
    Option.some.injEq] at h
  obtain ⟨deltas, -, given, hfield, rfl⟩ := h
  subst hgiven
  simp only [fieldOr] at hfield
  split at hfield
  · cases hfield
  · exact readUsage_valid hfield

theorem getLast?_filterMap_of_isSome {α β : Type} {f : α → Option β} {l : List α}
    (h : ∀ a ∈ l, (f a).isSome) : (l.filterMap f).getLast? = l.getLast?.bind f := by
  rcases List.eq_nil_or_concat l with rfl | ⟨init, a, rfl⟩
  · rfl
  · obtain ⟨b, hb⟩ := Option.isSome_iff_exists.mp (h a (by simp))
    simp [List.filterMap_append, hb]

theorem getLast?_told {chunks : List Json} (h : chunks.mapM StreamEnvelope.read = some stream) :
    (stream.filterMap StreamEnvelope.told).getLast? =
      (stream.filterMap (givenUsage ·.usage)).getLast?.bind normalizeUsage := by
  have htold : stream.filterMap StreamEnvelope.told =
      (stream.filterMap (givenUsage ·.usage)).filterMap normalizeUsage :=
    List.filterMap_filterMap.symm
  rw [htold]
  refine getLast?_filterMap_of_isSome fun usage husage => ?_
  obtain ⟨chunk, hchunk, hgiven⟩ := List.mem_filterMap.mp husage
  obtain ⟨raw, -, hread⟩ := Forall₂.exists_left (mapM_eq_some_iff.mp h) hchunk
  exact StreamEnvelope.read_usage hread hgiven

/-! The whole reply -/

theorem wholeReply_eq {raw : Json} {envelope : ResponseEnvelope}
    (h : ResponseEnvelope.read raw = some envelope) :
    wholeReply host raw =
      (envelope.calls.mapM (ToolCallEnvelope.parse host)).map fun toolCalls =>
        { content := envelope.message.content.getD ""
          reasoningContent := envelope.message.reasoningContent
          toolCalls
          usage := (givenUsage envelope.usage).bind normalizeUsage } := by
  simp only [wholeReply, parseResponse, validated, h, Option.elim_some, bind, Except.bind,
    ResponseEnvelope.calls]
  cases (envelope.message.toolCalls.getD []).mapM (ToolCallEnvelope.parse host) <;> rfl

/-- A table without entries tells of no calls, and so gives the reply without calls. -/
theorem finish_eq (reply : Reply) (hreply : reply.toolCalls = []) (state : StreamState) :
    (state.finish host).map (fun events => events.foldl Reply.add reply) =
      ((state.toolCalls.mergeSort (·.1 ≤ ·.1)).mapM
        fun entry : Nat × ToolEntry => entry.2.finish host).map
          fun toolCalls => { reply with toolCalls } := by
  rw [StreamState.finish]
  split
  · rename_i hempty
    rw [List.isEmpty_iff.mp hempty, List.mergeSort_nil]
    simp [Except.map, pure, Except.pure, ← hreply]
  · simp only [bind, Except.bind]
    generalize List.mapM (fun entry : Nat × ToolEntry => entry.2.finish host) _ = calls
    cases calls <;> rfl

theorem streamedReply_eq {chunks : List Json}
    (h : chunks.mapM StreamEnvelope.read = some stream) :
    streamedReply host chunks =
      ((StreamState.addStream {} stream).finish host).map fun events =>
        events.foldl Reply.add ((stream.flatMap StreamEnvelope.events).foldl Reply.add {}) := by
  rw [streamedReply, streamEvents_eq h, show (OpenAIAdapter host).start = {} from rfl]
  cases (StreamState.addStream {} stream).finish host with
  | error failure => rfl
  | ok events => exact congrArg Except.ok List.foldl_append

def ToolCallEnvelope.sent (call : ToolCallEnvelope) : Json :=
  .obj [(.text "id", .str (.text call.id)),
    (.text "function", .obj [(.text "name", .str (.text call.name)),
      (.text "arguments", .str (.text call.arguments))])]

def sentReply (content : String) (calls : List ToolCallEnvelope) : Json :=
  .obj [(.text "choices", .arr [.obj [(.text "message", .obj [
    (.text "content", .str (.text content)),
    (.text "tool_calls", .arr (calls.map ToolCallEnvelope.sent))])]])]

/-- A piece of the call with an index; a piece without a name goes on with the arguments. -/
def sentPiece (index : Int) (call : ToolCallEnvelope) : Json :=
  .obj [(.text "index", .int index), (.text "id", .str (.text call.id)),
    (.text "function", .obj [(.text "name", .str (.text call.name)),
      (.text "arguments", .str (.text call.arguments))])]

def sentChunk (content : String) (pieces : List Json) : Json :=
  .obj [(.text "choices", .arr [.obj [(.text "delta", .obj [
    (.text "content", .str (.text content)), (.text "tool_calls", .arr pieces)])]])]

end MultiClaw.Llm
