import MultiClaw.Tools.EditFileSpec

/-! Undo, over every sequence of edits. -/
namespace MultiClaw.EditFile

open Base

structure EditCall where
  params : EditFileParams
  io : FileIo := {}
  deriving DecidableEq

def runEdits (tools : EditTools) (s : EditState) (calls : List EditCall) : EditState :=
  calls.foldl (fun s call => (execute tools call.params call.io s).2) s

/-- What the file held before each successful edit of it, the first one first. -/
def editLog (tools : EditTools) (path : String) : EditState → List EditCall →
    List (Option FileContent)
  | _, [] => []
  | s, call :: calls =>
    let rest := editLog tools path (execute tools call.params call.io s).2 calls
    if tools.resolvePath call.params.filePath = path ∧ (execute tools call.params call.io s).1.isOk
    then s.files path :: rest else rest

/-- Undo calls, one after the other. -/
def runUndos (tools : EditTools) (filePath : String) (s : EditState) (ios : List FileIo) :
    EditState :=
  ios.foldl (fun s io => (undo tools filePath io s).2) s

variable {tools : EditTools} {params : EditFileParams} {io : FileIo} {s : EditState}
  {content new newContent : List Char} {spans : List Span} {span : Span} {path filePath : String}
  {calls : List EditCall} {call : EditCall} {log : List (Option FileContent)} {c : Char}

/-! No carriage return appears -/

theorem mem_splice (h : c ∈ splice new content span) : c ∈ new ∨ c ∈ content := by
  rw [splice, List.mem_append, List.mem_append] at h
  rcases h with (h | h) | h
  · exact .inr (List.mem_of_mem_take h)
  · exact .inl h
  · exact .inr (List.mem_of_mem_drop h)

theorem mem_spliceAll (h : c ∈ spliceAll new content spans) : c ∈ new ∨ c ∈ content := by
  induction spans with
  | nil => exact .inr h
  | cons span spans ih =>
    rcases mem_splice h with h | h
    · exact .inl h
    · exact ih h

theorem mem_of_findAndReplace {host : Host}
    (h : findAndReplace host params content = .ok newContent) (hc : c ∈ newContent) :
    c ∈ params.newString ∨ c ∈ content := by
  obtain ⟨strategy, -, hnew⟩ := findAndReplace_eq_ok h
  split at hnew
  · subst hnew
    exact mem_spliceAll hc
  · obtain ⟨span, -, rfl⟩ := hnew
    exact mem_splice hc

/-- The file exists, and text mode reads its text as it is. -/
def NoReturns : Option FileContent → Prop
  | none => False
  | some (.text cs) => '\r' ∉ cs
  | some (.undecodable _ _) => True

/-! Edits -/

/-- The history holds the end of the log. -/
structure Recorded (tools : EditTools) (path : String) (log : List (Option FileContent))
    (s : EditState) : Prop where
  noReturns : NoReturns (s.files path)
  history : (s.history path).map (fun cs => some (.text cs)) =
    log.drop (log.length - tools.maxHistory)

/-- The calls on a file write no carriage return, and their writes succeed. -/
def Undisturbed (tools : EditTools) (path : String) (call : EditCall) : Prop :=
  tools.resolvePath call.params.filePath = path →
    '\r' ∉ call.params.newString ∧ call.io.write = .done

theorem map_pushHistory {maxHistory : Nat} {entries : List (List Char)}
    (h : entries.map (fun cs => some (FileContent.text cs)) = log.drop (log.length - maxHistory)) :
    (pushHistory maxHistory entries content).map (fun cs => some (FileContent.text cs)) =
      (log ++ [some (FileContent.text content)]).drop
        ((log ++ [some (FileContent.text content)]).length - maxHistory) := by
  have hlen : entries.length = log.length - (log.length - maxHistory) := by
    simpa using congrArg List.length h
  rw [pushHistory]
  simp only [List.length_append, List.length_singleton]
  split
  case isTrue hfull =>
    have hdrop : log.length + 1 - maxHistory = log.length - maxHistory + 1 := by omega
    rw [List.map_tail, List.map_append, h, ← List.drop_append_of_le_length (by omega),
      List.tail_drop, hdrop]
    rfl
  case isFalse hfull =>
    have hdrop : log.length + 1 - maxHistory = log.length - maxHistory := by omega
    rw [List.map_append, h, hdrop, List.drop_append_of_le_length (by omega)]
    rfl

/-- A call on another file does not touch this one. -/
theorem execute_frame (io : FileIo) (s : EditState)
    (hpath : tools.resolvePath params.filePath ≠ path) :
    (execute tools params io s).2.files path = s.files path ∧
      (execute tools params io s).2.history path = s.history path := by
  obtain ⟨e, herror⟩ | ⟨-, hcreate⟩ | ⟨file, content, newContent, -, -, -, -, hs'⟩ :=
    execute_cases tools params io s
  · rw [herror]
    exact ⟨rfl, rfl⟩
  · have hs' : (execute tools params io s).2 =
        ⟨s.files.write (tools.resolvePath params.filePath) params.newString io.write,
          s.history⟩ := by
      rw [hcreate, createFile]
      split <;> rfl
    rw [hs']
    exact ⟨Files.write_of_ne _ hpath.symm _ _, rfl⟩
  · rw [hs']
    exact ⟨Files.write_of_ne _ hpath.symm _ _, Function.update_of_ne hpath.symm _ _⟩

/-- One call keeps the history at the end of the log. -/
theorem recorded_execute (h : Recorded tools path log s) (hcall : Undisturbed tools path call) :
    Recorded tools path (log ++ editLog tools path s [call])
      (execute tools call.params call.io s).2 := by
  by_cases hpath : tools.resolvePath call.params.filePath = path
  case neg =>
    obtain ⟨hfiles, hhistory⟩ := execute_frame call.io s hpath
    rw [editLog, if_neg (fun hc => hpath hc.1), editLog, List.append_nil]
    exact ⟨hfiles ▸ h.noReturns, hhistory ▸ h.history⟩
  subst hpath
  obtain ⟨hnew, hwrite⟩ := hcall rfl
  obtain ⟨e, herror⟩ | ⟨hnone, -⟩ |
    ⟨file, content, newContent, hfile, hread, hreplace, hdone, hs'⟩ :=
    execute_cases tools call.params call.io s
  · rw [editLog, herror, if_neg (by simp [Except.isOk, Except.toBool]), editLog, List.append_nil]
    exact h
  · exact absurd h.noReturns (by rw [hnone]; exact id)
  · obtain ⟨cs, rfl, rfl⟩ := readText_eq_ok hread
    have hcs : '\r' ∉ cs := by
      have := h.noReturns
      rwa [hfile] at this
    rw [universalNewlines_of_notMem hcs] at hreplace hs'
    rw [editLog, if_pos ⟨rfl, hdone.mpr hwrite⟩, hs', hwrite, hfile]
    refine ⟨?_, ?_⟩
    · dsimp only
      rw [Files.write_done]
      exact fun hmem => (mem_of_findAndReplace hreplace hmem).elim hnew hcs
    · dsimp only
      rw [Function.update_self]
      exact map_pushHistory h.history

theorem editLog_cons : editLog tools path s (call :: calls) =
    editLog tools path s [call] ++ editLog tools path (execute tools call.params call.io s).2 calls
    := by
  rw [editLog, editLog, editLog]
  split <;> rfl

theorem recorded_runEdits (h : Recorded tools path log s)
    (hcalls : ∀ call ∈ calls, Undisturbed tools path call) :
    Recorded tools path (log ++ editLog tools path s calls) (runEdits tools s calls) := by
  induction calls generalizing s log with
  | nil =>
    rw [editLog, List.append_nil]
    exact h
  | cons call calls ih =>
    rw [List.forall_mem_cons] at hcalls
    rw [editLog_cons, ← List.append_assoc]
    exact ih (recorded_execute h hcalls.1) hcalls.2

/-! Undos -/

theorem undo_of_history (hpath : tools.resolvePath filePath = path) (hwrite : io.write = .done)
    {entries : List (List Char)} (h : s.history path = entries ++ [content]) :
    (undo tools filePath io s).2.files path = some (.text content) ∧
      (undo tools filePath io s).2.history path = entries := by
  subst hpath
  rw [undo, h]
  simp [hwrite]

/-- Undos walk back through the history. -/
theorem runUndos_of_history (hpath : tools.resolvePath filePath = path)
    {entries older : List (List Char)} {ios : List FileIo} (hios : ∀ io ∈ ios, io.write = .done)
    (hlen : ios.length = entries.length + 1) (h : s.history path = older ++ content :: entries) :
    (runUndos tools filePath s ios).files path = some (.text content) := by
  induction ios generalizing s entries with
  | nil => cases hlen
  | cons io ios ih =>
    rw [List.forall_mem_cons] at hios
    rcases List.eq_nil_or_concat entries with rfl | ⟨init, last, rfl⟩
    · obtain rfl : ios = [] := List.eq_nil_of_length_eq_zero (Nat.succ.inj hlen)
      exact (undo_of_history hpath hios.1 h).1
    · rw [List.concat_eq_append] at h hlen
      rw [← List.cons_append, ← List.append_assoc] at h
      refine ih hios.2 ?_ (undo_of_history hpath hios.1 h).2
      simpa using hlen

/-- So many undos bring back what the file held before as many successful edits. -/
theorem undo_restores (hpath : tools.resolvePath filePath = path) (hfresh : s.history path = [])
    (hfile : NoReturns (s.files path)) (hcalls : ∀ call ∈ calls, Undisturbed tools path call)
    {ios : List FileIo} (hios : ∀ io ∈ ios, io.write = .done) (hpos : 0 < ios.length)
    (hle : ios.length ≤ min (editLog tools path s calls).length tools.maxHistory) :
    (editLog tools path s calls)[(editLog tools path s calls).length - ios.length]? =
      some ((runUndos tools filePath (runEdits tools s calls) ios).files path) := by
  have hstart : Recorded tools path [] s := ⟨hfile, by rw [hfresh, List.map_nil, List.drop_nil]⟩
  have hend := (recorded_runEdits hstart hcalls).history
  rw [List.nil_append] at hend
  generalize editLog tools path s calls = log at hend hle ⊢
  generalize hentries : (runEdits tools s calls).history path = entries at hend
  have hlen : entries.length = log.length - (log.length - tools.maxHistory) := by
    simpa using congrArg List.length hend
  have hlt : entries.length - ios.length < entries.length := by omega
  have hsplit : entries = entries.take (entries.length - ios.length) ++
      entries[entries.length - ios.length] :: entries.drop (entries.length - ios.length + 1) := by
    rw [← List.drop_eq_getElem_cons, List.take_append_drop]
  rw [runUndos_of_history hpath hios (by rw [List.length_drop]; omega) (hentries.trans hsplit)]
  have hget := congrArg (·[entries.length - ios.length]?) hend
  simp only [List.getElem?_map, List.getElem?_eq_getElem hlt, Option.map_some,
    List.getElem?_drop] at hget
  rw [hget]
  congr 1
  omega

theorem findAndReplace_of_exact {host : Host} (hsingle : params.replaceAll = false) {i : Nat}
    (hspans : occurrencesFrom content params.oldString 0 = [i]) :
    findAndReplace host params content =
      .ok (splice params.newString content (i, i + params.oldString.length)) := by
  have hexact : matchExact content params.oldString = [(i, i + params.oldString.length)] := by
    rw [matchExact, matchExactFrom_eq, hspans, List.map_singleton]
  simp [findAndReplace, chosen, strategies, Strategy.spans, hexact, hsingle]

/-- An edit from a to b, and one from b to c that ends as told. -/
def twoEdits (second : WriteOutcome) : List EditCall :=
  [⟨⟨"f", ['a'], ['b'], false⟩, {}⟩, ⟨⟨"f", ['b'], ['c'], false⟩, { write := second }⟩]

theorem first_edit : findAndReplace .ascii ⟨"f", ['a'], ['b'], false⟩ ['a'] = .ok ['b'] :=
  findAndReplace_of_exact rfl (by decide : _ = [0])

theorem second_edit : findAndReplace .ascii ⟨"f", ['b'], ['c'], false⟩ ['b'] = .ok ['c'] :=
  findAndReplace_of_exact rfl (by decide : _ = [0])

theorem editLog_twoEdits : editLog plainTools "f" (oneFile ['a']) (twoEdits .done) =
    [some (.text ['a']), some (.text ['b'])] := by
  have hfirst := first_edit
  have hsecond := second_edit
  simp [editLog, twoEdits, execute, plainTools, oneFile, readText, universalNewlines, hfirst,
    hsecond, Files.write, Except.isOk, Except.toBool]

theorem undo_restores_two_edits :
    (editLog plainTools "f" (oneFile ['a']) (twoEdits .done))[
        (editLog plainTools "f" (oneFile ['a']) (twoEdits .done)).length - 2]? =
      some ((runUndos plainTools "f" (runEdits plainTools (oneFile ['a']) (twoEdits .done))
        [{}, {}]).files "f") := by
  have hcalls : ∀ call ∈ twoEdits .done, Undisturbed plainTools "f" call := by
    intro call hcall _
    rcases List.mem_pair.mp hcall with rfl | rfl <;> exact ⟨by decide, rfl⟩
  have hpath : plainTools.resolvePath "f" = "f" := rfl
  have hfresh : (oneFile ['a']).history "f" = [] := rfl
  have hfile : NoReturns ((oneFile ['a']).files "f") := (by decide : '\r' ∉ ['a'])
  have hios : ∀ io ∈ [({} : FileIo), {}], io.write = .done := by decide
  have hle : 2 ≤ min (editLog plainTools "f" (oneFile ['a']) (twoEdits .done)).length 10 := by
    rw [editLog_twoEdits]
    decide
  exact undo_restores hpath hfresh hfile hcalls hios Nat.two_pos hle

/-- After an edit whose write fails, undo brings back what the file held before that edit. -/
theorem undo_after_failed_write :
    editLog plainTools "f" (oneFile ['a']) (twoEdits (.failed (some (.text ['b'])) "disk full")) =
      [some (.text ['a'])] ∧
    (runUndos plainTools "f" (runEdits plainTools (oneFile ['a'])
      (twoEdits (.failed (some (.text ['b'])) "disk full"))) [{}]).files "f" =
      some (.text ['b']) := by
  have hfirst := first_edit
  have hsecond := second_edit
  constructor
  · simp [editLog, twoEdits, execute, plainTools, oneFile, readText, universalNewlines, hfirst,
      hsecond, Files.write, Except.isOk, Except.toBool]
  · simp [runUndos, runEdits, undo, pushHistory, twoEdits, execute, plainTools, oneFile, readText,
      universalNewlines, hfirst, hsecond, Files.write]

end MultiClaw.EditFile
