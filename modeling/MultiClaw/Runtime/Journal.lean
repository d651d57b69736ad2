import Mathlib

/-! The journal of a session's run events, the producers that fill it and a subscriber. -/
namespace MultiClaw

/-- A `run_event` entry; the sequence is its turn index. -/
structure RunEvent where
  sequence : Nat
  runId : String
  content : String
  deriving DecidableEq

end MultiClaw
