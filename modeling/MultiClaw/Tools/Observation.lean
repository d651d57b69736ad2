import MultiClaw.Storage.Defaults
import MultiClaw.Tools.SchedulerSpec

/-! A tool call in flight: what happens between its preparation and the storing of its result. -/
namespace MultiClaw

open Base Transaction WorkflowRepository CoreToolScheduler

variable {call : ToolCall}

/-! A shell call whose run gets one heartbeat while the tool works -/

theorem sampleContext_tenantId_ne : "t" ≠ "" := by decide

theorem sampleContext_workspaceId_ne : "w" ≠ "" := by decide

def sampleContext : TenantContext where
  tenantId := "t"
  workspaceId := "w"
  sessionId := some "s"
  runId := some "00000000-0000-0000-0000-000000000001"
  tenantId_ne := sampleContext_tenantId_ne
  workspaceId_ne := sampleContext_workspaceId_ne

def sampleEnv : Env := { settings := .standard, host := .ascii, now := 0, now_lt := Env.zero_lt }

def sampleCall : ToolCall where
  toolName := "shell"
  toolKind := "execute"
  callId := some "call"
  input := ⟨"\x7b\x7d", sha256Hex "\x7b\x7d"⟩
  recoveryStrategy := .manualUncertain
  idempotencyKey := none

def sampleIds : NewIds :=
  { memoryId := "00000000-0000-0000-0000-000000000003", checkpointId := "observed" }

end MultiClaw
