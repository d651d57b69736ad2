import Mathlib

/-! Transactions over a store: they fail without effect or return with the store to commit. -/
namespace Base

theorem bind_eq_ok {ε α β : Type} {x : Except ε α} {f : α → Except ε β} {b : β} :
    (x >>= f) = .ok b ↔ ∃ a, x = .ok a ∧ f a = .ok b := by
  cases x with
  | error e => exact ⟨nofun, by rintro ⟨a, ha, -⟩; cases ha⟩
  | ok a => exact ⟨fun h => ⟨a, rfl, h⟩, by rintro ⟨a', ha, hf⟩; cases ha; exact hf⟩

theorem eq_ok_of_toOption {ε α : Type} {x : Except ε α} {a : α} (h : x.toOption = some a) :
    x = .ok a := by
  cases x with
  | error => cases h
  | ok => exact congrArg Except.ok (Option.some.inj h)

variable {η σ ε ε' α β : Type}

/-- A transaction reads an environment, works on a copy of the store, and either fails or
returns a value with the store to commit. -/
def Transaction (η σ ε α : Type) : Type := η → σ → Except ε (α × σ)

namespace Transaction

variable {env : η} {s s' t : σ} {a : α} {b : β} {e : ε} {x : Transaction η σ ε α}
  {f : α → Transaction η σ ε β}

def run (x : Transaction η σ ε α) (env : η) (s : σ) : Except ε (α × σ) := x env s

instance : Monad (Transaction η σ ε) where
  pure a := fun _ s => .ok (a, s)
  bind x f := fun env s =>
    match x.run env s with
    | .ok (a, s') => (f a).run env s'
    | .error e => .error e

def ask : Transaction η σ ε η := fun env s => .ok (env, s)

def get : Transaction η σ ε σ := fun _ s => .ok (s, s)

def set (s : σ) : Transaction η σ ε Unit := fun _ _ => .ok ((), s)

def throw (e : ε) : Transaction η σ ε α := fun _ _ => .error e

def ofExcept (r : Except ε α) : Transaction η σ ε α := fun _ s =>
  match r with
  | .ok a => .ok (a, s)
  | .error e => .error e

/-- The same transaction within one that has further ways to fail. -/
def mapError (g : ε → ε') (x : Transaction η σ ε α) : Transaction η σ ε' α := fun env s =>
  match x.run env s with
  | .ok r => .ok r
  | .error e => .error (g e)

/-- Run a transaction inside another one and go on if it fails, with the store as it was. -/
def trying (x : Transaction η σ ε α) : Transaction η σ ε (Except ε α) := fun env s =>
  match x.run env s with
  | .ok (a, s') => .ok (.ok a, s')
  | .error e => .ok (.error e, s)

/-- Commit on success; a failed transaction leaves the store as it was. -/
def commit (x : Transaction η σ ε α) (env : η) (s : σ) : Except ε α × σ :=
  match x.run env s with
  | .ok (a, s') => (.ok a, s')
  | .error e => (.error e, s)

@[simp] theorem run_pure : (pure a : Transaction η σ ε α).run env s = .ok (a, s) := rfl

@[simp] theorem run_ask : (ask : Transaction η σ ε η).run env s = .ok (env, s) := rfl

@[simp] theorem run_get : (get : Transaction η σ ε σ).run env s = .ok (s, s) := rfl

@[simp] theorem run_set : (set t : Transaction η σ ε Unit).run env s = .ok ((), t) := rfl

@[simp] theorem run_throw : (throw e : Transaction η σ ε α).run env s = .error e := rfl

@[simp] theorem run_ofExcept_ok : (ofExcept (.ok a) : Transaction η σ ε α).run env s = .ok (a, s) :=
  rfl

@[simp] theorem run_ofExcept_error :
    (ofExcept (.error e) : Transaction η σ ε α).run env s = .error e :=
  rfl

theorem run_trying : x.trying.run env s =
    match x.run env s with
    | .ok (a, s') => .ok (.ok a, s')
    | .error e => .ok (.error e, s) := rfl

theorem run_trying_of_ok (h : x.run env s = .ok (a, s')) :
    x.trying.run env s = .ok (.ok a, s') := by
  rw [run_trying, h]

theorem run_trying_of_error (h : x.run env s = .error e) :
    x.trying.run env s = .ok (.error e, s) := by
  rw [run_trying, h]

theorem commit_of_ok (h : x.run env s = .ok (a, s')) : x.commit env s = (.ok a, s') := by
  rw [commit, h]

theorem commit_of_error (h : x.run env s = .error e) : x.commit env s = (.error e, s) := by
  rw [commit, h]

theorem run_mapError_eq_ok {g : ε → ε'} :
    (x.mapError g).run env s = .ok (a, t) ↔ x.run env s = .ok (a, t) := by
  unfold mapError run
  cases h : x env s <;> simp [h]

theorem run_bind : (x >>= f).run env s =
    match x.run env s with
    | .ok (a, s') => (f a).run env s'
    | .error e => .error e := rfl

theorem run_map {g : α → β} : (g <$> x).run env s =
    match x.run env s with
    | .ok (a, s') => .ok (g a, s')
    | .error e => .error e := rfl

theorem run_bind_of_ok (h : x.run env s = .ok (a, s')) :
    (x >>= f).run env s = (f a).run env s' := by
  rw [run_bind, h]

theorem run_bind_of_error (h : x.run env s = .error e) : (x >>= f).run env s = .error e := by
  rw [run_bind, h]

theorem run_bind_eq_ok : (x >>= f).run env s = .ok (b, t) ↔
    ∃ a s', x.run env s = .ok (a, s') ∧ (f a).run env s' = .ok (b, t) := by
  rw [run_bind]
  cases h : x.run env s with
  | error e => simp
  | ok r => exact ⟨fun hf => ⟨r.1, r.2, rfl, hf⟩, by rintro ⟨a, s', hr, hf⟩; cases hr; exact hf⟩

theorem run_map_eq_ok {g : α → β} : (g <$> x).run env s = .ok (b, t) ↔
    ∃ a, x.run env s = .ok (a, t) ∧ g a = b := by
  rw [run_map]
  cases h : x.run env s with
  | error e => simp
  | ok r =>
    simp only [Except.ok.injEq, Prod.ext_iff]
    exact ⟨fun h => ⟨r.1, ⟨rfl, h.2⟩, h.1⟩, fun ⟨a, ha, hb⟩ => ⟨ha.1 ▸ hb, ha.2⟩⟩

theorem run_ofExcept_eq_ok {r : Except ε α} :
    (ofExcept r : Transaction η σ ε α).run env s = .ok (a, t) ↔ r = .ok a ∧ t = s := by
  cases r with
  | error e => simp
  | ok b => simp [eq_comm]

section Ensures

variable {Q : α → σ → Prop} {Q' : β → σ → Prop}

/-- If the transaction returns from this store, then with a value and a store that satisfy `Q`. -/
def Ensures (x : Transaction η σ ε α) (env : η) (s : σ) (Q : α → σ → Prop) : Prop :=
  ∀ a s', x.run env s = .ok (a, s') → Q a s'

theorem ensures_of_ok (h : x.run env s = .ok (a, s')) (hq : Q a s') : Ensures x env s Q := by
  intro b t hb
  cases h.symm.trans hb
  exact hq

theorem ensures_of_error (h : x.run env s = .error e) : Ensures x env s Q := by
  intro b t hb
  cases h.symm.trans hb

theorem ensures_bind (hx : Ensures x env s Q)
    (hf : ∀ a s', Q a s' → Ensures (f a) env s' Q') : Ensures (x >>= f) env s Q' := by
  intro b t h
  obtain ⟨a, s', hxa, hfa⟩ := run_bind_eq_ok.mp h
  exact hf a s' (hx a s' hxa) b t hfa

theorem ensures_map {g : α → β} (hx : Ensures x env s fun a s' => Q' (g a) s') :
    Ensures (g <$> x) env s Q' :=
  ensures_bind hx fun _ _ h => ensures_of_ok rfl h

theorem ensures_ask {f : η → Transaction η σ ε β} (hf : Ensures (f env) env s Q') :
    Ensures (ask >>= f) env s Q' := hf

theorem ensures_get {f : σ → Transaction η σ ε β} (hf : Ensures (f s) env s Q') :
    Ensures (get >>= f) env s Q' := hf

theorem ensures_ofExcept {r : Except ε α} (hf : ∀ a, r = .ok a → Ensures (f a) env s Q') :
    Ensures (ofExcept r >>= f) env s Q' := by
  cases r with
  | error e => exact ensures_of_error rfl
  | ok a => exact hf a rfl

theorem ensures_trivial : Ensures x env s fun _ _ => True := fun _ _ _ => trivial

theorem commit_of_ensures (hx : Ensures x env s fun _ s' => s' = s) :
    (x.commit env s).2 = s := by
  unfold commit
  split
  · exact hx _ _ ‹_›
  · rfl

end Ensures

section Leads

variable {R : η → σ → σ → Prop}

/-- Every successful run of the transaction is a sequence of `R` steps on the store. -/
def Leads (R : η → σ → σ → Prop) (x : Transaction η σ ε α) : Prop :=
  ∀ ⦃env s a s'⦄, x.run env s = .ok (a, s') → Relation.ReflTransGen (R env) s s'

theorem leads_pure : Leads R (pure a : Transaction η σ ε α) := by
  rintro env s a s' h
  cases h
  exact .refl

theorem leads_ask : Leads R (ask : Transaction η σ ε η) := by
  rintro env s a s' h
  cases h
  exact .refl

theorem leads_get : Leads R (get : Transaction η σ ε σ) := by
  rintro env s a s' h
  cases h
  exact .refl

theorem leads_throw : Leads R (throw e : Transaction η σ ε α) := by
  rintro env s a s' h
  cases h

theorem leads_ofExcept {r : Except ε α} : Leads R (ofExcept r : Transaction η σ ε α) := by
  rintro env s a s' h
  cases r with
  | error e => cases h
  | ok b =>
    cases h
    exact .refl

theorem leads_bind (hx : Leads R x) (hf : ∀ a, Leads R (f a)) : Leads R (x >>= f) := by
  intro env s b t h
  obtain ⟨a, s', hxa, hfa⟩ := run_bind_eq_ok.mp h
  exact (hx hxa).trans (hf a hfa)

theorem leads_map {g : α → β} (hx : Leads R x) : Leads R (g <$> x) :=
  leads_bind hx fun _ => leads_pure

theorem Leads.ensures (hx : Leads R x) :
    Ensures x env s fun _ s' => Relation.ReflTransGen (R env) s s' := fun _ _ h => hx h

theorem commit_leads {r : σ → σ → Prop}
    (hx : Ensures x env s fun _ s' => Relation.ReflTransGen r s s') :
    Relation.ReflTransGen r s (x.commit env s).2 := by
  unfold commit
  split
  · exact hx _ _ ‹_›
  · exact .refl

end Leads

end Transaction

end Base
