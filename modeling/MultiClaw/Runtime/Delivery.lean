import MultiClaw.Runtime.Journal

/-! What a subscriber receives as long as the journal has room. -/
namespace MultiClaw

variable {lo hi : Nat} {runId : String} {rows : List RunEvent} {e : RunEvent}

/-- The events of a run after `lo` and up to `hi`, as a subscriber is sent them. -/
def between (rows : List RunEvent) (runId : String) (lo hi : Nat) : List (Nat × String) :=
  (rows.filter fun e => e.runId = runId ∧ lo < e.sequence ∧ e.sequence ≤ hi).map
    fun e => (e.sequence, e.content)

end MultiClaw
