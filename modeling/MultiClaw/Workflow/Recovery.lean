import MultiClaw.Storage.Workflow
import MultiClaw.Workflow.Checkpoint

/-! The recovery service: what the latest checkpoint of a run asks for. -/
namespace MultiClaw

open Base

/-- What recovery calls state that it cannot go on from. -/
inductive Blocked where
  | corrupt
  | incompatible
  deriving DecidableEq, Repr

def Blocked.executionStatus : Blocked → ExecutionStatus
  | corrupt => .blockedCorrupt
  | incompatible => .blockedIncompatible

end MultiClaw
