import MultiClaw.Base.Table
import MultiClaw.Base.Transaction

/-! Transactions that rewrite the one row of a table that a where-clause selects, or fail. -/
namespace Base.Transaction

variable {η σ ε ρ κ : Type} {keys : ρ → List κ} [DecidableEq κ]

/-- Rewrite the rows that a where-clause selects, and fail if there is none. -/
def updateOne (table : σ → Table ρ κ keys) (put : Table ρ κ keys → σ → σ) (p : ρ → Bool)
    (f : ρ → ρ) (hf : ∀ r, keys (f r) = keys r) (e : ε) : Transaction η σ ε ρ := fun _ s =>
  match (table s).find? p with
  | none => .error e
  | some r => .ok (f r, put ((table s).update p f hf) s)

variable {table : σ → Table ρ κ keys} {put : Table ρ κ keys → σ → σ} {p : ρ → Bool} {f : ρ → ρ}
  {hf : ∀ r, keys (f r) = keys r} {e : ε} {env : η} {s s' : σ} {a r : ρ}

theorem run_updateOne : (updateOne table put p f hf e).run env s =
    match (table s).find? p with
    | none => .error e
    | some r => .ok (f r, put ((table s).update p f hf) s) := rfl

theorem run_updateOne_of_mem (hpins : (table s).Pins p) (hr : r ∈ (table s).rows)
    (hp : p r = true) : (updateOne table put p f hf e).run env s =
      .ok (f r, put ((table s).replace r (f r) (hf r)) s) := by
  obtain ⟨hnone, -, -⟩ | ⟨b, hb, hpb, hfind, -, hupdate⟩ := Table.update_cases hf hpins
  · exact absurd hp (Table.find?_eq_none.mp hnone r hr)
  · cases Table.eq_of_pins hpins hb hr hpb hp
    rw [run_updateOne, hfind, hupdate]

theorem run_updateOne_eq_ok (hpins : (table s).Pins p) :
    (updateOne table put p f hf e).run env s = .ok (a, s') ↔
      ∃ r ∈ (table s).rows, p r = true ∧ a = f r ∧
        s' = put ((table s).replace r (f r) (hf r)) s := by
  constructor
  · intro h
    cases hfind : (table s).find? p with
    | none =>
      rw [run_updateOne, hfind] at h
      cases h
    | some r =>
      obtain ⟨hr, hp⟩ := Table.mem_of_find? hfind
      rw [run_updateOne_of_mem hpins hr hp] at h
      cases h
      exact ⟨r, hr, hp, rfl, rfl⟩
  · rintro ⟨r, hr, hp, rfl, rfl⟩
    exact run_updateOne_of_mem hpins hr hp

end Base.Transaction
