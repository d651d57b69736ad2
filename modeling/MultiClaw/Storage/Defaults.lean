import MultiClaw.Storage.Schema

/-! A server for which nothing is configured. -/
namespace MultiClaw

def Settings.standard : Settings := {}

theorem Env.zero_lt : 0 < 2 ^ 63 := by decide

theorem Env.thousand_lt : 1000 < 2 ^ 63 := by decide

end MultiClaw
