import MultiClaw.Base.Lines
import MultiClaw.Security.Redaction

/-! Streamed events: how the encoder frames a payload, and what the journal makes of the chunk. -/
namespace MultiClaw

open Base

/-- An event: a dictionary of JSON values. -/
structure Payload where
  members : List (PyStr × Json)
  proper : (Json.obj members).proper = true

def Payload.json (p : Payload) : Json := .obj p.members

/-- A chunk is not redacted where the interpreter's recursion ends, or where a string of it is no
Unicode text. -/
inductive StreamError where
  | recursion
  | notText
  deriving DecidableEq, Repr

def dataField : List Char := "data: ".toList

namespace DataStreamEncoder

/-- The chunk of an event, whose text keeps every character that JSON does not escape. -/
def event (p : Payload) : Option String :=
  (p.json.dump Json.escapeChar).map fun t => String.ofList (dataField ++ t ++ ['\n', '\n'])

def textDelta (partId text : String) : Payload where
  members := [(.text "type", jsonString "text-delta"), (.text "id", jsonString partId),
    (.text "delta", jsonString text)]
  proper := rfl

end DataStreamEncoder

section Redact

variable (host : Host)

/-- A payload that is no JSON is redacted as a text. -/
def redactPayload (payload : List Char) : Except StreamError (List Char) :=
  if payload = "[DONE]".toList then .ok payload
  else match Json.loads host.recursionLimit (String.ofList payload) with
    | .ok v =>
      match (redact host v).dump Json.escapeAscii with
      | some t => .ok t
      | none => .error .notText
    | .error .recursion => .error .recursion
    | .error _ => .ok (Redaction.redactString host (String.ofList payload)).toList

def redactLine (line : List Char) : Except StreamError (List Char) :=
  if dataField.isPrefixOf line then do
    let payload ← redactPayload host (strip host.isSpace (line.drop 6))
    return dataField ++ payload ++ ['\n']
  else return line

def redactEncodedEvent (chunk : String) : Except StreamError String := do
  let lines ← (splitLines chunk.toList).mapM (redactLine host)
  return String.ofList lines.flatten

end Redact

/-- A chunk is one server-sent event with one data line, which is the text of a value. -/
def FramedWhole (host : Host) (chunk : String) (v : Json) : Prop :=
  ∃ t : List Char, chunk = String.ofList (dataField ++ t ++ ['\n', '\n']) ∧
    (∀ c ∈ t, c ≠ '\n' ∧ c ≠ '\r') ∧ Json.loads host.recursionLimit (String.ofList t) = .ok v

/-- The line breaks that JSON leaves unescaped. -/
def breaksEvent (c : Char) : Bool := [0x85, 0x2028, 0x2029].contains c.toNat

variable {host : Host} {p : Payload} {chunk : String} {t l l' : List Char}
  {ls ls' : List (List Char)}

/-! What the encoder writes -/

theorem beyondAscii_isLineBreak : Json.BeyondAscii isLineBreak := by
  intro c hc
  simp only [Json.isPrintableAscii, Bool.and_eq_true, decide_eq_true_eq] at hc
  simp only [isLineBreak, List.contains_eq_mem, List.mem_cons, List.not_mem_nil, or_false,
    decide_eq_false_iff_not]
  omega

theorem any_escapeChar_isLineBreak (c : Char) :
    (Json.escapeChar c).any isLineBreak = breaksEvent c := by
  obtain ⟨hall, hascii⟩ | ⟨hbeyond, heq⟩ := Json.escapeChar_cases c
  · rw [Json.any_ascii beyondAscii_isLineBreak hall, eq_comm]
    simp only [breaksEvent, List.contains_eq_mem, List.mem_cons, List.not_mem_nil, or_false,
      decide_eq_false_iff_not]
    omega
  · rw [heq, Bool.eq_iff_iff]
    simp only [List.any_cons, List.any_nil, Bool.or_false, isLineBreak, breaksEvent,
      List.contains_eq_mem, List.mem_cons, List.not_mem_nil, or_false, decide_eq_true_eq]
    omega

/-- The text of an event breaks into lines exactly where a string of it does. -/
theorem any_isLineBreak_dump (h : p.json.dump Json.escapeChar = some t) :
    t.any isLineBreak = p.json.anyChar breaksEvent := by
  rw [Json.any_dump beyondAscii_isLineBreak p.json h]
  simp only [any_escapeChar_isLineBreak]

theorem ne_return_of_mem_dump {v : Json} (h : v.dump Json.escapeChar = some t) {c : Char}
    (hc : c ∈ t) : c ≠ '\r' := by
  have hany : t.any (· == '\r') = false := by
    refine Json.dump_any_eq_false ?_ ?_ h
    · intro c hc
      simp only [beq_eq_false_iff_ne]
      rintro rfl
      exact absurd hc (by decide)
    · intro c
      obtain ⟨hall, -⟩ | ⟨hbeyond, heq⟩ := Json.escapeChar_cases c
      · rw [List.any_eq_false]
        rintro d hd heq
        rw [beq_iff_eq] at heq
        exact absurd (List.all_eq_true.mp hall d hd) (by rw [heq]; decide)
      · rw [heq, List.any_cons, List.any_nil, Bool.or_false, beq_eq_false_iff_ne]
        rintro rfl
        exact absurd hbeyond (by decide)
  simpa using List.any_eq_false.mp hany c hc

/-- An ASCII text is one line. -/
theorem one_line_of_dump {v : Json} (h : v.dump Json.escapeAscii = some t) :
    ∀ c ∈ t, c ≠ '\n' ∧ c ≠ '\r' := by
  have hany : t.any (fun c => !Json.isPrintableAscii c) = false := by
    refine Json.dump_any_eq_false ?_ ?_ h
    · intro c hc
      simp [hc]
    · intro c
      rw [List.any_eq_false]
      intro d hd
      simp [List.all_eq_true.mp (Json.escapeAscii_printable c) d hd]
  intro c hc
  have hprintable : Json.isPrintableAscii c = true := by
    simpa using List.any_eq_false.mp hany c hc
  constructor <;>
  · rintro rfl
    exact absurd hprintable (by decide)

/-! How the chunk is redacted -/

theorem redactLine_data (payload : List Char) : redactLine host (dataField ++ payload) = do
    let payload ← redactPayload host (strip host.isSpace payload)
    return dataField ++ payload ++ ['\n'] := by
  have hinitial : dataField.isPrefixOf (dataField ++ payload) = true := by simp
  have hdrop : (dataField ++ payload).drop 6 = payload := rfl
  rw [redactLine, if_pos hinitial, hdrop]

theorem count_redactLine (h : redactLine host l = .ok l') (hl : l.count '\n' ≤ 1) :
    l.count '\n' ≤ l'.count '\n' := by
  unfold redactLine at h
  split_ifs at h
  · cases hpayload : redactPayload host (strip host.isSpace (l.drop 6)) with
    | error e =>
      rw [hpayload] at h
      cases h
    | ok payload =>
      rw [hpayload] at h
      cases h
      rw [List.count_append, List.count_singleton_self]
      omega
  · cases h
    exact le_refl _

theorem count_redactLines (h : ls.mapM (redactLine host) = .ok ls')
    (hls : ∀ l ∈ ls, l.count '\n' ≤ 1) : ls.flatten.count '\n' ≤ ls'.flatten.count '\n' := by
  induction ls generalizing ls' with
  | nil => exact Nat.zero_le _
  | cons l ls ih =>
    rw [List.forall_mem_cons] at hls
    rw [List.mapM_cons] at h
    cases hl : redactLine host l with
    | error e =>
      rw [hl] at h
      cases h
    | ok l' =>
      rw [hl] at h
      cases hrest : ls.mapM (redactLine host) with
      | error e =>
        rw [hrest] at h
        cases h
      | ok ls'' =>
        rw [hrest] at h
        cases h
        rw [List.flatten_cons, List.flatten_cons, List.count_append, List.count_append]
        exact Nat.add_le_add (count_redactLine hl hls.1) (ih hrest hls.2)

/-- A text without line breaks is redacted as one payload. -/
theorem redactEncodedEvent_unbroken (ht : t.any isLineBreak = false) :
    redactEncodedEvent host (String.ofList (dataField ++ t ++ ['\n', '\n'])) = do
      let payload ← redactPayload host (strip host.isSpace (t ++ ['\n']))
      return String.ofList (dataField ++ payload ++ ['\n', '\n']) := by
  have hbreaks : (dataField ++ t).any isLineBreak = false := by
    rw [List.any_append, ht]
    decide
  have hlines : splitLines (dataField ++ t ++ ['\n', '\n']) =
      [dataField ++ (t ++ ['\n']), ['\n']] := by
    rw [splitLines_break hbreaks (by decide) (by decide), List.append_assoc]
    rfl
  have hlast : redactLine host ['\n'] = .ok ['\n'] := by
    rw [redactLine, if_neg (by decide)]
    rfl
  rw [redactEncodedEvent, String.toList_ofList, hlines]
  simp only [List.mapM_cons, List.mapM_nil, redactLine_data, hlast]
  cases redactPayload host (strip host.isSpace (t ++ ['\n'])) with
  | error e => rfl
  | ok payload =>
    simp [bind, Except.bind, pure, Except.pure]

/-- Where the text has a line break, the lines behind it leave the data line. -/
theorem count_newline_broken (ht : t.any isLineBreak = true) (hreturn : ∀ c ∈ t, c ≠ '\r')
    {out : String}
    (h : redactEncodedEvent host (String.ofList (dataField ++ t ++ ['\n', '\n'])) = .ok out) :
    3 ≤ out.toList.count '\n' := by
  obtain ⟨b, hb⟩ : ∃ b, t.find? isLineBreak = some b := by
    rw [← Option.isSome_iff_exists, List.find?_isSome]
    simpa using ht
  obtain ⟨hbreak, line, rest, rfl, hline⟩ := List.find?_eq_some_iff_append.mp hb
  have hbreaks : (dataField ++ line).any isLineBreak = false := by
    have hline' : line.any isLineBreak = false := by simpa using hline
    rw [List.any_append, hline']
    decide
  have hlines : splitLines (dataField ++ (line ++ b :: rest) ++ ['\n', '\n']) =
      (dataField ++ (line ++ [b])) :: splitLines (rest ++ ['\n', '\n']) := by
    rw [show dataField ++ (line ++ b :: rest) ++ ['\n', '\n'] =
      dataField ++ line ++ b :: (rest ++ ['\n', '\n']) by simp,
      splitLines_break hbreaks hbreak (hreturn b (by simp)), List.append_assoc]
  rw [redactEncodedEvent, String.toList_ofList, hlines, List.mapM_cons, redactLine_data] at h
  cases hfirst : redactPayload host (strip host.isSpace (line ++ [b])) with
  | error e =>
    rw [hfirst] at h
    cases h
  | ok first =>
    cases hrest : (splitLines (rest ++ ['\n', '\n'])).mapM (redactLine host) with
    | error e =>
      rw [hfirst, hrest] at h
      cases h
    | ok ls =>
      rw [hfirst, hrest] at h
      cases h
      have hcount := count_redactLines hrest (count_newline_le_one _)
      rw [flatten_splitLines, List.count_append] at hcount
      simp only [String.toList_ofList, List.flatten_cons, List.count_append]
      have htwo : List.count '\n' ['\n', '\n'] = 2 := rfl
      have hone : List.count '\n' ['\n'] = 1 := rfl
      omega

theorem FramedWhole.count_newline {v : Json} (h : FramedWhole host chunk v) :
    chunk.toList.count '\n' = 2 := by
  obtain ⟨t, rfl, hline, -⟩ := h
  have ht : t.count '\n' = 0 := List.count_eq_zero.mpr fun hmem => (hline _ hmem).1 rfl
  rw [String.toList_ofList, List.count_append, List.count_append, ht]
  rfl

/-- The payload that is read back is the text of the event. -/
theorem strip_event (h : p.json.dump Json.escapeChar = some t) :
    strip host.isSpace (t ++ ['\n']) = t := by
  simp only [Payload.json, Json.dump, Option.bind_eq_bind, Option.bind_eq_some_iff, Option.pure_def,
    Option.some.injEq] at h
  obtain ⟨ts, -, rfl⟩ := h
  refine strip_padded ?_ ?_ ?_
  · rw [host.isSpace_ascii _ (by decide)]
    decide
  · rw [host.isSpace_ascii _ (by decide)]
    decide
  · intro c hc
    rw [List.mem_singleton.mp hc, host.isSpace_ascii _ (by decide)]
    decide

theorem redactPayload_event (h : p.json.dump Json.escapeChar = some t) :
    redactPayload host t =
      if p.json.depth ≤ host.recursionLimit then
        match (redact host p.json).dump Json.escapeAscii with
        | some t => .ok t
        | none => .error .notText
      else .error .recursion := by
  have hloads : Json.loads host.recursionLimit (String.ofList t) =
      if p.json.depth ≤ host.recursionLimit then .ok p.json else .error .recursion :=
    Json.loads_of_reads (Json.reads_dump Json.legible_escapeChar p.json p.proper h)
  have hne : t ≠ "[DONE]".toList := by
    simp only [Payload.json, Json.dump, Option.bind_eq_bind, Option.bind_eq_some_iff,
      Option.pure_def, Option.some.injEq] at h
    obtain ⟨ts, -, rfl⟩ := h
    intro h
    exact absurd (List.cons.inj h).1 (by decide)
  rw [redactPayload, if_neg hne, hloads]
  by_cases hdepth : p.json.depth ≤ host.recursionLimit
  · simp only [if_pos hdepth]
  · simp only [if_neg hdepth]

theorem framed_whole_iff (host : Host) (p : Payload) (chunk : String)
    (h : DataStreamEncoder.event p = some chunk) :
    (∃ out, redactEncodedEvent host chunk = .ok out ∧ FramedWhole host out (redact host p.json)) ↔
      p.json.anyChar breaksEvent = false ∧ p.json.depth ≤ host.recursionLimit := by
  obtain ⟨t, ht, rfl⟩ := Option.map_eq_some_iff.mp h
  have hbreaks := any_isLineBreak_dump ht
  constructor
  · rintro ⟨out, hout, hframed⟩
    have hunbroken : t.any isLineBreak = false := by
      by_contra hbroken
      have hcount := count_newline_broken (by simpa using hbroken)
        (fun c hc => ne_return_of_mem_dump ht hc) hout
      rw [hframed.count_newline] at hcount
      omega
    refine ⟨by rw [← hbreaks, hunbroken], ?_⟩
    by_contra hdepth
    rw [redactEncodedEvent_unbroken hunbroken, strip_event ht, redactPayload_event ht,
      if_neg hdepth] at hout
    cases hout
  · rintro ⟨hchars, hdepth⟩
    obtain ⟨t', ht'⟩ : ∃ t', (redact host p.json).dump Json.escapeAscii = some t' := dump_redact ht
    refine ⟨_, ?_, t', rfl, one_line_of_dump ht', ?_⟩
    · rw [redactEncodedEvent_unbroken (hbreaks.trans hchars), strip_event ht,
        redactPayload_event ht, if_pos hdepth, ht']
      rfl
    · have hproper : (redact host p.json).proper = true := proper_redact p.proper
      rw [Json.loads_of_reads (Json.reads_dump Json.legible_escapeAscii _ hproper ht'),
        if_pos ((depth_redact_le _).trans hdepth)]

/-- The chunk of a streamed text whose characters JSON does not escape. -/
def sampleChunk (text : String) : String :=
  "data: \x7b\"type\":\"text-delta\",\"id\":\"1\",\"delta\":\"" ++ text ++ "\"\x7d\n\n"

theorem framed_whole_iff_text : ∃ out,
    redactEncodedEvent Host.ascii (sampleChunk "caf\u00e9 at /srv/x") = .ok out ∧
      FramedWhole Host.ascii out
        (redact Host.ascii (DataStreamEncoder.textDelta "1" "caf\u00e9 at /srv/x").json) :=
  (framed_whole_iff Host.ascii (DataStreamEncoder.textDelta "1" "caf\u00e9 at /srv/x")
    (sampleChunk "caf\u00e9 at /srv/x") (by decide +kernel)).mpr (by decide +kernel)

/-- A host that knows every space of Unicode. -/
def Host.unicodeSpaces : Host where
  recursionLimit := Host.ascii.recursionLimit
  isPrintable := Host.ascii.isPrintable
  isAlnum := Host.ascii.isAlnum
  isSpace c := 9 ≤ c.toNat && c.toNat ≤ 13 || 28 ≤ c.toNat && c.toNat ≤ 32 ||
    0x2000 ≤ c.toNat && c.toNat ≤ 0x200a ||
    [0x85, 0xa0, 0x1680, 0x2028, 0x2029, 0x202f, 0x205f, 0x3000].contains c.toNat
  lower := Host.ascii.lower
  recursionLimit_ge := Host.ascii.recursionLimit_ge
  isAlnum_ascii := Host.ascii.isAlnum_ascii
  isSpace_ascii c hc := by
    have hother : [0x85, 0xa0, 0x1680, 0x2028, 0x2029, 0x202f, 0x205f, 0x3000].contains c.toNat =
        false := by
      simp only [List.contains_eq_mem, List.mem_cons, List.not_mem_nil, or_false,
        decide_eq_false_iff_not]
      omega
    have hwide : decide (0x2000 ≤ c.toNat) = false := by
      simp only [decide_eq_false_iff_not]
      omega
    rw [hother, hwide]
    simp
  lower_ascii := Host.ascii.lower_ascii

/-- A line separator in a streamed text: the rest of the text, secret and all, is sent outside the
data line. -/
theorem separator_breaks_event :
    DataStreamEncoder.event (DataStreamEncoder.textDelta "1" "a\u2028password=hunter2") =
      some (sampleChunk "a\u2028password=hunter2") ∧
    redactEncodedEvent Host.unicodeSpaces (sampleChunk "a\u2028password=hunter2") =
      .ok (sampleChunk "a\npassword=hunter2") ∧
    ¬FramedWhole Host.unicodeSpaces (sampleChunk "a\npassword=hunter2")
      (redact Host.unicodeSpaces
        (DataStreamEncoder.textDelta "1" "a\u2028password=hunter2").json) := by
  refine ⟨by decide +kernel, by decide +kernel, fun h => ?_⟩
  have hcount := h.count_newline
  revert hcount
  decide +kernel

end MultiClaw
