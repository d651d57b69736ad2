import Mathlib

/-! The sandbox runner: a process group, its two readers, and the call that waits for them. -/
namespace MultiClaw.SandboxRunner

def maxCaptureBytesPerStream : Nat := 128 * 1024
def readChunkSize : Nat := 64 * 1024

inductive Stream where
  | stdout
  | stderr
  deriving DecidableEq, Repr

/-! Captured output -/

structure CapturedOutput where
  stdout : List UInt8 := []
  stderr : List UInt8 := []
  outputLimitStream : Option Stream := none
  deriving DecidableEq

def CapturedOutput.bufferFor (captured : CapturedOutput) : Stream → List UInt8
  | .stdout => captured.stdout
  | .stderr => captured.stderr

def CapturedOutput.markOutputLimitExceeded (captured : CapturedOutput) (stream : Stream) :
    CapturedOutput :=
  if captured.outputLimitStream.isSome then captured else ⟨[], [], some stream⟩

def CapturedOutput.extend (captured : CapturedOutput) (chunk : List UInt8) :
    Stream → CapturedOutput
  | .stdout => { captured with stdout := captured.stdout ++ chunk }
  | .stderr => { captured with stderr := captured.stderr ++ chunk }

/-- What a reader does with a chunk. -/
def CapturedOutput.take (captured : CapturedOutput) (stream : Stream) (chunk : List UInt8) :
    CapturedOutput :=
  if captured.outputLimitStream.isSome then captured
  else if (captured.bufferFor stream).length + chunk.length > maxCaptureBytesPerStream then
    captured.markOutputLimitExceeded stream
  else captured.extend chunk stream

/-! Results -/

inductive CompletionState where
  | completed
  | timedOut
  | outputLimitExceeded
  deriving DecidableEq, Repr

structure SandboxExecResult where
  exitCode : Option Int
  timedOut : Bool
  completionState : Option CompletionState := none
  outputLimitStream : Option Stream := none
  signal : Option String
  stdout : List UInt8
  stderr : List UInt8
  deriving DecidableEq

def validateCompletionState (result : SandboxExecResult) : Except String SandboxExecResult :=
  let state := result.completionState.getD (if result.timedOut then .timedOut else .completed)
  let valid := { result with completionState := some state }
  match state with
  | .completed =>
    if result.timedOut then .error "timed_out must be false when completion_state is completed"
    else if result.outputLimitStream.isSome then .error ("output_limit_stream must be omitted " ++
      "unless completion_state is output_limit_exceeded")
    else .ok valid
  | .timedOut =>
    if !result.timedOut then .error "timed_out must be true when completion_state is timed_out"
    else if result.outputLimitStream.isSome then .error ("output_limit_stream must be omitted " ++
      "unless completion_state is output_limit_exceeded")
    else .ok valid
  | .outputLimitExceeded =>
    if result.timedOut then
      .error "timed_out must be false when completion_state is output_limit_exceeded"
    else if result.outputLimitStream.isNone then
      .error "output_limit_stream is required when completion_state is output_limit_exceeded"
    else if result.stdout ≠ [] then
      .error "stdout must be empty when completion_state is output_limit_exceeded"
    else if result.stderr ≠ [] then
      .error "stderr must be empty when completion_state is output_limit_exceeded"
    else .ok valid

/-- The exit code or the name of the signal; the host names the signals that it knows. -/
def decodeReturncode (signals : Nat → Option String) : Option Int → Option Int × Option String
  | none => (none, none)
  | some code =>
    if code ≥ 0 then (some code, none)
    else (none, some ((signals code.natAbs).getD s!"SIG{code.natAbs}"))

def buildResult (signals : Nat → Option String) (returncode : Option Int)
    (stdout stderr : List UInt8) (timedOut : Bool) (completionState : Option CompletionState)
    (outputLimitStream : Option Stream) : Except String SandboxExecResult :=
  let (exitCode, signal) := decodeReturncode signals returncode
  validateCompletionState
    ⟨exitCode, timedOut, completionState, outputLimitStream, signal, stdout, stderr⟩

def buildResultForCompletion (signals : Nat → Option String) (returncode : Option Int)
    (captured : CapturedOutput) (timedOut : Bool) : Except String SandboxExecResult :=
  if captured.outputLimitStream.isSome then
    buildResult signals returncode [] [] false (some .outputLimitExceeded)
      captured.outputLimitStream
  else buildResult signals returncode captured.stdout captured.stderr timedOut none none

/-! The run -/

inductive StopReason where
  | completed
  | timedOut
  | overflow
  | cancelled
  | failed
  deriving DecidableEq, Repr

/-- Where the call is: it waits for the process, for the group to obey a signal, for its own tasks,
or it is over. -/
inductive Phase where
  | waiting
  | terminating (reason : StopReason)
  | killing (reason : StopReason)
  | draining (reason : StopReason)
  | returned (result : Except String SandboxExecResult)
  | raised

structure State where
  /-- The return code of the first process, once it has ended. -/
  leader : Option Int := none
  /-- The other processes of the group that live. -/
  others : Nat := 0
  captured : CapturedOutput := {}
  stdoutRead : Bool := false
  stderrRead : Bool := false
  stdinWritten : Bool := false
  phase : Phase := .waiting

def State.groupGone (s : State) : Prop := s.leader.isSome ∧ s.others = 0

def State.over (s : State) : Prop :=
  match s.phase with
  | .returned _ => True
  | .raised => True
  | _ => False

def State.setRead (s : State) : Stream → State
  | .stdout => { s with stdoutRead := true }
  | .stderr => { s with stderrRead := true }

inductive Event where
  | spawn
  | exitOther
  | exitLeader (code : Int)
  | read (stream : Stream) (chunk : List UInt8)
  | endOfStream (stream : Stream)
  | stdinWritten
  | allDone
  | overflow
  | timeout
  | cancel
  | taskFails
  | groupGone
  | termGraceOver
  | killGraceOver
  | cancelAgain
  | finish (returncode : Option Int)

/-- The processes may do anything that processes can, and the readers and the call run between. -/
inductive Step (signals : Nat → Option String) : State → Event → State → Prop
  | spawn {s : State} (h : ¬ s.groupGone) : Step signals s .spawn { s with others := s.others + 1 }
  | exitOther {s : State} (h : 0 < s.others) :
      Step signals s .exitOther { s with others := s.others - 1 }
  | exitLeader {s : State} (code : Int) (h : s.leader = none) :
      Step signals s (.exitLeader code) { s with leader := some code }
  | read {s : State} (stream : Stream) (chunk : List UInt8) (hchunk : chunk.length ≤ readChunkSize)
      (h : ¬ s.over) :
      Step signals s (.read stream chunk) { s with captured := s.captured.take stream chunk }
  | endOfStream {s : State} (stream : Stream) (h : ¬ s.over) :
      Step signals s (.endOfStream stream) (s.setRead stream)
  | stdinWritten {s : State} (h : ¬ s.over) :
      Step signals s .stdinWritten { s with stdinWritten := true }
  | allDone {s : State} (hphase : s.phase = .waiting) (hleader : s.leader.isSome)
      (hout : s.stdoutRead = true) (herr : s.stderrRead = true) (hin : s.stdinWritten = true) :
      Step signals s .allDone { s with
        phase := if s.captured.outputLimitStream.isSome then .terminating .overflow
          else .draining .completed }
  | overflow {s : State} (hphase : s.phase = .waiting)
      (hlimit : s.captured.outputLimitStream.isSome) :
      Step signals s .overflow { s with phase := .terminating .overflow }
  | timeout {s : State} (hphase : s.phase = .waiting) :
      Step signals s .timeout { s with phase := .terminating .timedOut }
  | cancel {s : State} (hphase : s.phase = .waiting) :
      Step signals s .cancel { s with phase := .terminating .cancelled }
  | taskFails {s : State} (hphase : s.phase = .waiting) :
      Step signals s .taskFails { s with phase := .terminating .failed }
  | groupGone {s : State} (reason : StopReason)
      (hphase : s.phase = .terminating reason ∨ s.phase = .killing reason) (hgone : s.groupGone) :
      Step signals s .groupGone { s with phase := .draining reason }
  | termGraceOver {s : State} (reason : StopReason) (hphase : s.phase = .terminating reason) :
      Step signals s .termGraceOver { s with phase := .killing reason }
  | killGraceOver {s : State} (reason : StopReason) (hphase : s.phase = .killing reason) :
      Step signals s .killGraceOver { s with phase := .draining reason }
  | cancelAgain {s : State} (reason : StopReason) (hphase : s.phase = .terminating reason ∨
      s.phase = .killing reason ∨ s.phase = .draining reason) :
      Step signals s .cancelAgain { s with phase := .raised }
  | finish {s : State} (reason : StopReason) (returncode : Option Int)
      (hphase : s.phase = .draining reason) (hcode : returncode = none ∨ returncode = s.leader) :
      Step signals s (.finish returncode) { s with
        phase := match reason with
          | .cancelled => .raised
          | .failed => .raised
          | _ => .returned (buildResultForCompletion signals returncode s.captured
              (reason = .timedOut)) }

/-- The group ends with its first process, a kill takes effect within the grace period, and no
second cancellation arrives. -/
def Orderly (s : State) : Event → Prop
  | .allDone => s.others = 0
  | .killGraceOver => False
  | .cancelAgain => False
  | _ => True

/-- The states of the runs whose steps are all allowed. -/
inductive Reachable (signals : Nat → Option String) (allowed : State → Event → Prop) : State → Prop
  | start : Reachable signals allowed {}
  | step {s t : State} {event : Event} (h : Reachable signals allowed s)
      (hallowed : allowed s event) (hstep : Step signals s event t) : Reachable signals allowed t

/-! What every run keeps -/

variable {signals : Nat → Option String} {s t : State} {event : Event} {captured : CapturedOutput}

structure Bounded (captured : CapturedOutput) : Prop where
  stdout : captured.stdout.length ≤ maxCaptureBytesPerStream
  stderr : captured.stderr.length ≤ maxCaptureBytesPerStream

theorem Bounded.take (h : Bounded captured) (stream : Stream) (chunk : List UInt8) :
    Bounded (captured.take stream chunk) := by
  rw [CapturedOutput.take]
  split_ifs with hlimit hlong
  · exact h
  · rw [CapturedOutput.markOutputLimitExceeded, if_neg hlimit]
    exact ⟨Nat.zero_le _, Nat.zero_le _⟩
  · cases stream with
    | stdout =>
      refine ⟨?_, h.stderr⟩
      rw [CapturedOutput.extend, List.length_append]
      exact Nat.not_lt.mp hlong
    | stderr =>
      refine ⟨h.stdout, ?_⟩
      rw [CapturedOutput.extend, List.length_append]
      exact Nat.not_lt.mp hlong

/-- The completion-state rules of a result. -/
def WellFormed (result : SandboxExecResult) : Prop :=
  match result.completionState with
  | none => False
  | some .completed => result.timedOut = false ∧ result.outputLimitStream = none
  | some .timedOut => result.timedOut = true ∧ result.outputLimitStream = none
  | some .outputLimitExceeded => result.timedOut = false ∧ result.outputLimitStream.isSome ∧
      result.stdout = [] ∧ result.stderr = []

/-- The result passes its own validator, and keeps what was captured. -/
theorem buildResultForCompletion_ok (h : Bounded captured) (returncode : Option Int)
    (timedOut : Bool) :
    ∃ result, buildResultForCompletion signals returncode captured timedOut = .ok result ∧
      WellFormed result ∧ result.stdout.length ≤ maxCaptureBytesPerStream ∧
      result.stderr.length ≤ maxCaptureBytesPerStream := by
  rw [buildResultForCompletion]
  split
  case isTrue hlimit =>
    obtain ⟨stream, hstream⟩ := Option.isSome_iff_exists.mp hlimit
    rw [hstream]
    exact ⟨_, rfl, ⟨rfl, rfl, rfl, rfl⟩, Nat.zero_le _, Nat.zero_le _⟩
  case isFalse =>
    cases timedOut with
    | true => exact ⟨_, rfl, ⟨rfl, rfl⟩, h.stdout, h.stderr⟩
    | false => exact ⟨_, rfl, ⟨rfl, rfl⟩, h.stdout, h.stderr⟩

/-- The call has stopped waiting for the group, or is over. -/
def Phase.settled : Phase → Prop
  | .draining _ => True
  | .returned _ => True
  | .raised => True
  | _ => False

structure Sound (s : State) : Prop where
  bounded : Bounded s.captured
  gone : s.phase.settled → s.groupGone
  result : ∀ r, s.phase = .returned r → ∃ result, r = .ok result ∧ WellFormed result ∧
    result.stdout.length ≤ maxCaptureBytesPerStream ∧
    result.stderr.length ≤ maxCaptureBytesPerStream

theorem Sound.start : Sound {} where
  bounded := ⟨Nat.zero_le _, Nat.zero_le _⟩
  gone h := h.elim
  result _ h := nomatch h

/-- A step of the call that gets to a phase without a result, in which the group is gone if it has
stopped waiting. -/
theorem Sound.move (h : Sound s) {phase : Phase} (hgone : phase.settled → s.groupGone)
    (hresult : ∀ r, phase ≠ .returned r) : Sound { s with phase := phase } where
  bounded := h.bounded
  gone := hgone
  result r hr := absurd hr (hresult r)

theorem sound_step (h : Sound s) (horderly : Orderly s event) (hstep : Step signals s event t) :
    Sound t := by
  cases hstep with
  | spawn hlive => exact ⟨h.bounded, fun hphase => absurd (h.gone hphase) hlive, h.result⟩
  | exitOther hpos =>
    refine ⟨h.bounded, fun hphase => ?_, h.result⟩
    exact absurd (h.gone hphase).2 (Nat.pos_iff_ne_zero.mp hpos)
  | exitLeader code hnone => exact ⟨h.bounded, fun hphase => ⟨rfl, (h.gone hphase).2⟩, h.result⟩
  | read stream chunk hchunk hover => exact ⟨h.bounded.take stream chunk, h.gone, h.result⟩
  | endOfStream stream hover => cases stream <;> exact ⟨h.bounded, h.gone, h.result⟩
  | stdinWritten hover => exact ⟨h.bounded, h.gone, h.result⟩
  | allDone hphase hleader hout herr hin =>
    refine h.move (fun _ => ⟨hleader, horderly⟩) fun r => ?_
    split <;> nofun
  | overflow hphase hlimit => exact h.move (fun hsettled => hsettled.elim) nofun
  | timeout hphase => exact h.move (fun hsettled => hsettled.elim) nofun
  | cancel hphase => exact h.move (fun hsettled => hsettled.elim) nofun
  | taskFails hphase => exact h.move (fun hsettled => hsettled.elim) nofun
  | groupGone reason hphase hgone => exact h.move (fun _ => hgone) nofun
  | termGraceOver reason hphase => exact h.move (fun hsettled => hsettled.elim) nofun
  | killGraceOver reason hphase => exact horderly.elim
  | cancelAgain reason hphase => exact horderly.elim
  | finish reason returncode hphase hcode =>
    have hgone : s.groupGone := h.gone (by rw [hphase]; trivial)
    refine ⟨h.bounded, fun _ => hgone, fun r hr => ?_⟩
    cases reason with
    | cancelled => cases hr
    | failed => cases hr
    | completed => cases hr; exact buildResultForCompletion_ok h.bounded returncode _
    | timedOut => cases hr; exact buildResultForCompletion_ok h.bounded returncode _
    | overflow => cases hr; exact buildResultForCompletion_ok h.bounded returncode _

theorem sound_of_reachable (h : Reachable signals Orderly s) : Sound s := by
  induction h with
  | start => exact Sound.start
  | step h horderly hstep ih => exact sound_step ih horderly hstep

/-- In every state of an orderly run the buffers are within their limit; at its end no process of
the group lives, and the result obeys the completion-state rules. -/
theorem run_well_formed (h : Reachable signals Orderly s) :
    s.captured.stdout.length ≤ maxCaptureBytesPerStream ∧
    s.captured.stderr.length ≤ maxCaptureBytesPerStream ∧
    (s.over → s.groupGone) ∧
    ∀ r, s.phase = .returned r → ∃ result, r = .ok result ∧ WellFormed result ∧
      result.stdout.length ≤ maxCaptureBytesPerStream ∧
      result.stderr.length ≤ maxCaptureBytesPerStream := by
  have hsound := sound_of_reachable h
  refine ⟨hsound.bounded.stdout, hsound.bounded.stderr, fun hover => hsound.gone ?_, hsound.result⟩
  rw [State.over] at hover
  split at hover
  next hphase => rw [hphase]; trivial
  next hphase => rw [hphase]; trivial
  · exact hover.elim

/-- The first process has ended, with no output and so many others in its group. -/
def quietEnd (others : Nat) : State where
  leader := some 0
  others := others
  stdoutRead := true
  stderrRead := true
  stdinWritten := true

/-- From its start with so many others in the group, a process without output ends. -/
theorem reachable_quietEnd {allowed : State → Event → Prop} {others : Nat}
    (h : Reachable signals allowed { others := others }) (hleader : ∀ s, allowed s (.exitLeader 0))
    (hstreams : ∀ s stream, allowed s (.endOfStream stream))
    (hstdin : ∀ s, allowed s .stdinWritten) : Reachable signals allowed (quietEnd others) := by
  have hexit : Reachable signals allowed { leader := some 0, others := others } :=
    .step h (hleader _) (.exitLeader 0 rfl)
  have hout : Reachable signals allowed
      { leader := some 0, others := others, stdoutRead := true } :=
    .step hexit (hstreams _ _) (.endOfStream .stdout id)
  have herr : Reachable signals allowed
      { leader := some 0, others := others, stdoutRead := true, stderrRead := true } :=
    .step hout (hstreams _ _) (.endOfStream .stderr id)
  exact .step herr (hstdin _) (.stdinWritten id)

theorem run_well_formed_quiet :
    (State.mk (some 0) 0 {} true true true (.returned
      (buildResultForCompletion (fun _ => none) (some 0) {} false))).groupGone := by
  have hend : Reachable (fun _ => none) Orderly (quietEnd 0) :=
    reachable_quietEnd .start (fun _ => trivial) (fun _ _ => trivial) fun _ => trivial
  have hlast : Orderly (quietEnd 0) .allDone := rfl
  have hdone : Reachable (fun _ => none) Orderly
      { quietEnd 0 with phase := .draining .completed } :=
    .step hend hlast (.allDone rfl rfl rfl rfl rfl)
  have hfinish (s : State) : Orderly s (.finish (some 0)) := trivial
  have hover := hdone.step (hfinish _) (.finish .completed (some 0) rfl (.inr rfl))
  exact (run_well_formed hover).2.2.1 trivial

/-- A child with other outputs outlives the first process, and the call that returns. -/
theorem child_outlives_run :
    ∃ s : State, Reachable (fun _ => none) (fun _ _ => True) s ∧ s.over ∧ s.others = 1 := by
  have hspawn : Reachable (fun _ => none) (fun _ _ => True) { others := 1 } :=
    .step .start trivial (.spawn (fun h => nomatch h.1))
  have hend : Reachable (fun _ => none) (fun _ _ => True) (quietEnd 1) :=
    reachable_quietEnd hspawn (fun _ => trivial) (fun _ _ => trivial) fun _ => trivial
  have hdone : Reachable (fun _ => none) (fun _ _ => True)
      { quietEnd 1 with phase := .draining .completed } :=
    .step hend trivial (.allDone rfl rfl rfl rfl rfl)
  exact ⟨_, .step hdone trivial (.finish .completed (some 0) rfl (.inr rfl)), trivial, rfl⟩

end MultiClaw.SandboxRunner
