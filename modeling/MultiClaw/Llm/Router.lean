import MultiClaw.Base.Lines
import MultiClaw.Llm.Providers
import MultiClaw.Mcp.Config

/-! The router's stream of events: lines of a provider, and attempts that may fail. -/
namespace MultiClaw.Llm

open Base

/-! Lines -/

/-- What a line of the stream asks for. -/
inductive StreamLine where
  | ignored
  | done
  | failure
  | malformed
  | recursion
  | chunk (raw : Json)

def isErrorChunk (chunk : Members) : Bool :=
  (chunk.lookup (.text "type")).any (fun type => strictText type = some "error") ||
    isTruthy (getOr chunk "error" .null)

def StreamLine.read (host : Host) (line : String) : StreamLine :=
  if !"data:".toList.isPrefixOf line.toList then .ignored
  else
    let data := (line.toList.drop 5).dropWhile host.isSpace
    if strip host.isSpace data = "[DONE]".toList then .done
    else if data = [] then .ignored
    else match Json.loads host.recursionLimit (String.ofList data) with
      | .ok (.obj raw) => if isErrorChunk raw then .failure else .chunk (.obj raw)
      | .error .recursion => .recursion
      | _ => .malformed

/-! One attempt -/

inductive HTTPError where
  | status (code : Nat)
  | connect
  | timeout
  | other
  deriving DecidableEq, Repr

def HTTPError.retryable : HTTPError → Bool
  | .status code => code = 429 || 500 ≤ code && code ≤ 599
  | .connect => true
  | .timeout => true
  | .other => false

/-- What breaks off the reading of a stream. -/
inductive Interruption where
  | http (error : HTTPError)
  | other
  deriving DecidableEq, Repr

/-- What a provider does with one request: the lines it sends, what happens after them, and
what happens when the connection is given back. -/
structure Attempt where
  lines : List String
  interruption : Option Interruption := none
  closing : Option HTTPError := none

inductive LLMError where
  | responseParse (message : String)
  | provider (message : String)
  | uncaught
  deriving DecidableEq, Repr

/-- How the loop over the lines is left. -/
inductive StreamEnd (σ : Type) where
  | exhausted (state : σ)
  | done (state : σ)
  | malformed
  | failure
  | uncaught

def StreamEnd.state? {σ : Type} : StreamEnd σ → Option σ
  | .exhausted state => some state
  | .done state => some state
  | _ => none

inductive AttemptEnd where
  | finished (final : List StreamEvent)
  | failed (error : HTTPError)
  | raised (error : LLMError)

namespace StreamAdapter

variable {σ : Type} (adapter : StreamAdapter σ) (host : Host)

/-- The events that are delivered while the lines are read. -/
def readStream : List String → σ → List StreamEvent × StreamEnd σ
  | [], state => ([], .exhausted state)
  | line :: lines, state =>
    match StreamLine.read host line with
    | .ignored => readStream lines state
    | .done => ([], .done state)
    | .failure => ([], .failure)
    | .malformed => ([], .malformed)
    | .recursion => ([], .uncaught)
    | .chunk raw =>
      match adapter.parseStreamEvents raw state with
      | .error .value => ([], .malformed)
      | .error .recursion => ([], .uncaught)
      | .ok (events, state) =>
        let (later, ending) := readStream lines state
        (events ++ later, ending)

def finishAttempt (state : σ) : AttemptEnd :=
  match adapter.finish state with
  | .ok final => .finished final
  | .error .value => .raised (.responseParse "invalid LLM response")
  | .error .recursion => .raised .uncaught

/-- What an attempt comes to once its lines are read. A malformed chunk and an error chunk
go before an error of the connection. -/
def closeAttempt (attempt : Attempt) : StreamEnd σ → AttemptEnd
  | .malformed => .raised (.responseParse "invalid LLM response")
  | .failure => .raised (.provider "LLM provider unavailable")
  | .uncaught => attempt.closing.elim (.raised .uncaught) .failed
  | .done state => attempt.closing.elim (adapter.finishAttempt state) .failed
  | .exhausted state =>
    match attempt.interruption with
    | none => attempt.closing.elim (adapter.finishAttempt state) .failed
    | some (.http error) => .failed (attempt.closing.getD error)
    | some .other => attempt.closing.elim (.raised .uncaught) .failed

/-- The events of an attempt that are delivered before it is closed, and its end. Every
attempt has a state of its own. -/
def runAttempt (attempt : Attempt) : List StreamEvent × AttemptEnd :=
  let (events, ending) := adapter.readStream host attempt.lines adapter.start
  (events, adapter.closeAttempt attempt ending)

end StreamAdapter

/-! The generator -/

/-- What the caller has received of each attempt, and what the generator raised. -/
structure Delivery where
  received : List (List StreamEvent)
  raised : Option LLMError

def Delivery.events (delivery : Delivery) : List StreamEvent := delivery.received.flatten

namespace StreamAdapter

variable {σ : Type} (adapter : StreamAdapter σ) (host : Host)

/-- The loop over `range(max_retries + 1)`, from an attempt on, when so many are left. -/
def streamFrom (maxRetries : Nat) (attempts : Nat → Attempt) :
    (remaining : Nat) → (attempt : Nat) → (delivered : Bool) → Delivery
  | 0, _, _ => { received := [], raised := none }
  | remaining + 1, attempt, delivered =>
    let (events, ending) := adapter.runAttempt host (attempts attempt)
    let delivered := delivered || !events.isEmpty
    match ending with
    | .raised error => { received := [events], raised := some error }
    | .finished final => { received := [events ++ final], raised := none }
    | .failed error =>
      if !delivered && attempt < maxRetries && error.retryable then
        let later := streamFrom maxRetries attempts remaining (attempt + 1) delivered
        { later with received := events :: later.received }
      else { received := [events], raised := some (.provider "LLM provider unavailable") }

def streamCompletion (maxRetries : Nat) (attempts : Nat → Attempt) : Delivery :=
  adapter.streamFrom host maxRetries attempts (maxRetries + 1) 0 false

end StreamAdapter

/-! What an attempt has to tell, from its lines alone -/

def StreamLine.goesOn : StreamLine → Bool
  | .ignored => true
  | .chunk _ => true
  | _ => false

def StreamLine.chunk? : StreamLine → Option Json
  | .chunk raw => some raw
  | _ => none

/-- The chunks of an attempt, up to the line that ends it. -/
def chunksOf (host : Host) (lines : List String) : List Json :=
  ((lines.map (StreamLine.read host)).takeWhile StreamLine.goesOn).filterMap StreamLine.chunk?

/-- The line that ends an attempt, if there is one. -/
def lastLine (host : Host) (lines : List String) : Option StreamLine :=
  (lines.map (StreamLine.read host)).find? (!·.goesOn)

/-- A stream that comes to its end: by its mark, or with its last line. -/
def Attempt.Completes (host : Host) (attempt : Attempt) : Prop :=
  attempt.closing = none ∧ (lastLine host attempt.lines = some .done ∨
    lastLine host attempt.lines = none ∧ attempt.interruption = none)

/-- The events of chunks as far as they can be parsed, and the final ones at their end. -/
def StreamAdapter.eventsFrom {σ : Type} (adapter : StreamAdapter σ) :
    List Json → σ → List StreamEvent
  | [], state => (adapter.finish state).toOption.getD []
  | raw :: chunks, state =>
    match adapter.parseStreamEvents raw state with
    | .error _ => []
    | .ok (events, state) => events ++ adapter.eventsFrom chunks state

def StreamAdapter.attemptEvents {σ : Type} (adapter : StreamAdapter σ) (host : Host)
    (attempt : Attempt) : List StreamEvent :=
  adapter.eventsFrom (chunksOf host attempt.lines) adapter.start

section Lines

variable {host : Host} {line : String} {lines : List String}

theorem chunksOf_ignored (h : StreamLine.read host line = .ignored) :
    chunksOf host (line :: lines) = chunksOf host lines := by
  simp [chunksOf, h, List.takeWhile_cons, List.filterMap_cons, StreamLine.goesOn,
    StreamLine.chunk?]

theorem chunksOf_chunk {raw : Json} (h : StreamLine.read host line = .chunk raw) :
    chunksOf host (line :: lines) = raw :: chunksOf host lines := by
  simp [chunksOf, h, List.takeWhile_cons, StreamLine.goesOn, StreamLine.chunk?]

theorem chunksOf_last (h : (StreamLine.read host line).goesOn = false) :
    chunksOf host (line :: lines) = [] := by
  simp [chunksOf, h]

theorem lastLine_goesOn (h : (StreamLine.read host line).goesOn = true) :
    lastLine host (line :: lines) = lastLine host lines := by
  simp [lastLine, h]

theorem lastLine_last (h : (StreamLine.read host line).goesOn = false) :
    lastLine host (line :: lines) = some (StreamLine.read host line) := by
  simp [lastLine, h]

end Lines

namespace StreamAdapter

variable {σ : Type} {adapter : StreamAdapter σ} {host : Host} {state : σ} {attempt : Attempt}
  {attempts : Nat → Attempt} {events final : List StreamEvent} {chunks : List Json}

theorem eventsFrom_of_streamEvents (h : adapter.streamEvents chunks state = .ok events) :
    adapter.eventsFrom chunks state = events := by
  induction chunks generalizing state events with
  | nil =>
    rw [streamEvents] at h
    simp [eventsFrom, h, Except.toOption]
  | cons raw chunks ih =>
    rw [streamEvents] at h
    obtain ⟨⟨first, next⟩, hparsed, h⟩ := bind_eq_ok.mp h
    obtain ⟨later, hlater, h⟩ := bind_eq_ok.mp h
    cases h
    simp only [eventsFrom, hparsed, ih hlater]

/-- What is delivered while the lines are read begins the events of the attempt. -/
theorem readStream_prefix (lines : List String) (state : σ) :
    (adapter.readStream host lines state).1 <+: adapter.eventsFrom (chunksOf host lines) state := by
  fun_induction readStream adapter host lines state with
  | case2 line lines state hline ih =>
    rw [chunksOf_ignored hline]
    exact ih
  | case9 line lines state raw hline events next hparsed later ending hlater ih =>
    rw [chunksOf_chunk hline, eventsFrom, hparsed]
    rw [hlater] at ih
    exact (List.prefix_append_right_inj events).mpr ih
  | _ => exact List.nil_prefix

theorem map_nil_append {ε α : Type} (result : Except ε (List α)) :
    result.map ([] ++ ·) = result := by
  cases result <;> rfl

/-- A loop that is left with a state has parsed every chunk. -/
theorem readStream_streamEvents {lines : List String} {last : σ}
    (h : (adapter.readStream host lines state).2.state? = some last) :
    adapter.streamEvents (chunksOf host lines) state =
      (adapter.finish last).map ((adapter.readStream host lines state).1 ++ ·) := by
  fun_induction readStream adapter host lines state with
  | case1 state =>
    cases h
    exact (map_nil_append _).symm
  | case2 line lines state hline ih =>
    rw [chunksOf_ignored hline]
    exact ih h
  | case3 line lines state hline =>
    cases h
    rw [chunksOf_last (by rw [hline]; rfl)]
    exact (map_nil_append _).symm
  | case9 line lines state raw hline events next hparsed later ending hlater ih =>
    rw [hlater] at ih
    rw [chunksOf_chunk hline, streamEvents, hparsed]
    simp only [bind, Except.bind, ih h]
    cases adapter.finish last <;> simp [Except.map, pure, Except.pure]
  | _ => cases h

theorem readStream_lastLine (adapter : StreamAdapter σ) (host : Host) (lines : List String)
    (state : σ) :
    match (adapter.readStream host lines state).2 with
    | .exhausted _ => lastLine host lines = none
    | .done _ => lastLine host lines = some .done
    | _ => True := by
  fun_induction readStream adapter host lines state with
  | case1 => rfl
  | case2 line lines state hline ih =>
    rw [lastLine_goesOn (by rw [hline]; rfl)]
    exact ih
  | case3 line lines state hline =>
    rw [lastLine_last (by rw [hline]; rfl), hline]
  | case9 line lines state raw hline events next hparsed later ending hlater ih =>
    rw [lastLine_goesOn (by rw [hline]; rfl)]
    rw [hlater] at ih
    exact ih
  | _ => trivial

theorem finishAttempt_eq_finished (h : adapter.finishAttempt state = .finished final) :
    adapter.finish state = .ok final := by
  rw [finishAttempt] at h
  split at h
  · cases h
    assumption
  · cases h
  · cases h

/-- An attempt that finishes came to its end, and its state was finished. -/
theorem closeAttempt_eq_finished {ending : StreamEnd σ}
    (h : adapter.closeAttempt attempt ending = .finished final) :
    attempt.closing = none ∧ ∃ last, adapter.finish last = .ok final ∧
      (ending = .done last ∨ ending = .exhausted last ∧ attempt.interruption = none) := by
  cases hclosing : attempt.closing with
  | some error =>
    cases ending with
    | exhausted last =>
      rcases hinterruption : attempt.interruption with _ | _ | _ <;>
        simp [closeAttempt, hclosing, hinterruption] at h
    | _ => simp [closeAttempt, hclosing] at h
  | none =>
    refine ⟨rfl, ?_⟩
    cases ending with
    | exhausted last =>
      rcases hinterruption : attempt.interruption with _ | _ | _ <;>
        simp only [closeAttempt, hclosing, hinterruption, Option.elim_none, reduceCtorEq] at h
      exact ⟨last, finishAttempt_eq_finished h, .inr ⟨rfl, rfl⟩⟩
    | done last =>
      rw [closeAttempt, hclosing] at h
      exact ⟨last, finishAttempt_eq_finished h, .inl rfl⟩
    | _ => simp [closeAttempt, hclosing] at h

theorem runAttempt_prefix : (adapter.runAttempt host attempt).1 <+:
    adapter.attemptEvents host attempt :=
  readStream_prefix attempt.lines adapter.start

theorem runAttempt_finished (h : adapter.runAttempt host attempt = (events, .finished final)) :
    attempt.Completes host ∧
      adapter.streamEvents (chunksOf host attempt.lines) adapter.start =
        .ok (events ++ final) := by
  have hlast := readStream_lastLine adapter host attempt.lines adapter.start
  obtain ⟨rfl, hend⟩ := Prod.mk.inj h
  obtain ⟨hclosing, last, hfinish, hending⟩ := closeAttempt_eq_finished hend
  have hstate : (adapter.readStream host attempt.lines adapter.start).2.state? = some last := by
    rcases hending with hending | ⟨hending, -⟩ <;> rw [hending] <;> rfl
  refine ⟨⟨hclosing, ?_⟩, ?_⟩
  · rcases hending with hending | ⟨hending, hquiet⟩
    · rw [hending] at hlast
      exact .inl hlast
    · rw [hending] at hlast
      exact .inr ⟨hlast, hquiet⟩
  · rw [readStream_streamEvents hstate, hfinish]
    rfl

/-- The last of the attempts tells all the caller receives; those before it told nothing. -/
structure OneAttempt (adapter : StreamAdapter σ) (host : Host) (attempts : Nat → Attempt)
    (first k : Nat) (delivery : Delivery) : Prop where
  received : delivery.received = List.replicate k [] ++ [delivery.events]
  begins : delivery.events <+: adapter.attemptEvents host (attempts (first + k))
  complete : delivery.raised = none → (attempts (first + k)).Completes host ∧
    adapter.streamEvents (chunksOf host (attempts (first + k)).lines) adapter.start =
      .ok delivery.events

theorem OneAttempt.of_raised {first : Nat} {error : LLMError}
    (h : (adapter.runAttempt host (attempts first)).1 = events) :
    OneAttempt adapter host attempts first 0 { received := [events], raised := some error } where
  received := by simp [Delivery.events]
  begins := by
    simp only [Delivery.events, List.flatten_singleton, ← h]
    exact runAttempt_prefix
  complete hnone := by cases hnone

theorem OneAttempt.of_finished {first : Nat}
    (h : adapter.runAttempt host (attempts first) = (events, .finished final)) :
    OneAttempt adapter host attempts first 0
      { received := [events ++ final], raised := none } where
  received := by simp [Delivery.events]
  begins := by
    have hevents := eventsFrom_of_streamEvents (runAttempt_finished h).2
    simp only [Delivery.events, List.flatten_singleton, ← hevents]
    exact List.prefix_rfl
  complete _ := by
    simp only [Delivery.events, List.flatten_singleton]
    exact runAttempt_finished h

theorem OneAttempt.after_silence {first k : Nat} {later : Delivery}
    (h : OneAttempt adapter host attempts (first + 1) k later) :
    OneAttempt adapter host attempts first (k + 1)
      { later with received := [] :: later.received } := by
  have hindex : first + (k + 1) = first + 1 + k := by omega
  have hevents : Delivery.events { later with received := [] :: later.received } =
      later.events := rfl
  refine ⟨?_, ?_, ?_⟩
  · rw [hevents, List.replicate_succ, List.cons_append, ← h.received]
  · rw [hevents, hindex]
    exact h.begins
  · rw [hevents, hindex]
    exact h.complete

theorem streamFrom_oneAttempt (adapter : StreamAdapter σ) (host : Host)
    (attempts : Nat → Attempt) {maxRetries remaining first : Nat}
    (h : remaining + first = maxRetries + 1) (hpos : 0 < remaining) :
    ∃ k < remaining, OneAttempt adapter host attempts first k
      (adapter.streamFrom host maxRetries attempts remaining first false) := by
  induction remaining generalizing first with
  | zero => exact absurd hpos (Nat.lt_irrefl 0)
  | succ remaining ih =>
    rcases hrun : adapter.runAttempt host (attempts first) with ⟨events, ending⟩
    have hevents := congrArg Prod.fst hrun
    rw [streamFrom, hrun]
    cases ending with
    | raised error => exact ⟨0, hpos, .of_raised hevents⟩
    | finished final => exact ⟨0, hpos, .of_finished hrun⟩
    | failed error =>
      simp only [Bool.false_or]
      split
      · rename_i hretry
        -- A retry is left only to an attempt before the last, with nothing delivered.
        simp only [Bool.not_not, Bool.and_eq_true, List.isEmpty_iff, decide_eq_true_eq] at hretry
        obtain ⟨⟨rfl, hlt⟩, -⟩ := hretry
        have hnext : remaining + (first + 1) = maxRetries + 1 := by omega
        obtain ⟨k, hk, hlater⟩ := ih hnext (by omega)
        exact ⟨k + 1, by omega, hlater.after_silence⟩
      · exact ⟨0, hpos, .of_raised hevents⟩

theorem stream_not_spliced (adapter : StreamAdapter σ) (host : Host) (maxRetries : Nat)
    (attempts : Nat → Attempt) :
    ∃ k ≤ maxRetries,
      (adapter.streamCompletion host maxRetries attempts).received =
        List.replicate k [] ++ [(adapter.streamCompletion host maxRetries attempts).events] ∧
      (adapter.streamCompletion host maxRetries attempts).events <+:
        adapter.attemptEvents host (attempts k) ∧
      ((adapter.streamCompletion host maxRetries attempts).raised = none →
        (attempts k).Completes host ∧
          adapter.streamEvents (chunksOf host (attempts k).lines) adapter.start =
            .ok (adapter.streamCompletion host maxRetries attempts).events) := by
  obtain ⟨k, hk, h⟩ := streamFrom_oneAttempt adapter host attempts
    (Nat.add_zero (maxRetries + 1)) (Nat.succ_pos maxRetries)
  have hindex : 0 + k = k := Nat.zero_add k
  exact ⟨k, Nat.lt_succ_iff.mp hk, h.received, hindex ▸ h.begins, hindex ▸ h.complete⟩

end StreamAdapter

end MultiClaw.Llm
