import Mathlib

/-! Programs whose state outlives their failures. -/
namespace Base

variable {σ ε α β : Type}

def exec (x : ExceptT ε (StateM σ) α) (s : σ) : Except ε α × σ := x.run s

/-- A result that is known, as a program. -/
def ofResult (r : Except ε α) : ExceptT ε (StateM σ) α := ExceptT.mk (pure r)

section Exec

variable {x : ExceptT ε (StateM σ) α} {f : α → ExceptT ε (StateM σ) β} {s t : σ}

@[simp]
theorem exec_pure (a : α) : exec (pure a : ExceptT ε (StateM σ) α) s = (.ok a, s) := rfl

@[simp]
theorem exec_throw (e : ε) : exec (throw e : ExceptT ε (StateM σ) α) s = (.error e, s) := rfl

theorem exec_ofResult_eq_ok {r : Except ε α} {a : α} :
    exec (ofResult r) s = (.ok a, t) ↔ r = .ok a ∧ s = t :=
  Prod.mk.injEq _ _ _ _ ▸ Iff.rfl

theorem exec_bind : exec (x >>= f) s =
    match exec x s with
    | (.ok a, t) => exec (f a) t
    | (.error e, t) => (.error e, t) := by
  have hrun : exec (x >>= f) s =
      (ExceptT.bindCont f (exec x s).1 : StateM σ (Except ε β)) (exec x s).2 := rfl
  rw [hrun]
  rcases exec x s with ⟨_ | _, _⟩ <;> rfl

theorem exec_tryCatch {handler : ε → ExceptT ε (StateM σ) α} : exec (tryCatch x handler) s =
    match exec x s with
    | (.ok a, t) => (.ok a, t)
    | (.error e, t) => exec (handler e) t := by
  have hrun : exec (tryCatch x handler) s = (match (exec x s).1 with
    | Except.ok a => (pure (Except.ok a) : StateM σ (Except ε α))
    | Except.error e => handler e) (exec x s).2 := rfl
  rw [hrun]
  rcases exec x s with ⟨_ | _, _⟩ <;> rfl

/-- A sequence succeeds if both of its parts do. -/
theorem exec_bind_eq_ok {b : β} : exec (x >>= f) s = (.ok b, t) ↔
    ∃ a u, exec x s = (.ok a, u) ∧ exec (f a) u = (.ok b, t) := by
  rw [exec_bind]
  rcases exec x s with ⟨_ | a, u⟩
  · simp
  · simp only [Prod.mk.injEq, Except.ok.injEq, and_assoc, exists_eq_left', exists_and_left]

/-- Every run of a program moves the state along a relation, also when it fails. -/
def Moves (r : σ → σ → Prop) (x : ExceptT ε (StateM σ) α) : Prop := ∀ s, r s (exec x s).2

namespace Moves

variable {r r' : σ → σ → Prop}

section Refl

variable [Std.Refl r]

theorem pure (a : α) : Moves r (pure a : ExceptT ε (StateM σ) α) := fun s => refl_of r s

theorem throw (e : ε) : Moves r (throw e : ExceptT ε (StateM σ) α) := fun s => refl_of r s

theorem ofResult (result : Except ε α) : Moves r (ofResult result : ExceptT ε (StateM σ) α) :=
  fun s => refl_of r s

end Refl

/-- A last part that moves along a finer relation. -/
theorem after (hcomp : ∀ s t u, r' s t → r t u → r' s u) (hx : Moves r' x)
    (hf : ∀ a, Moves r (f a)) : Moves r' (x >>= f) := by
  intro s
  rw [exec_bind]
  have hs := hx s
  rcases hrun : exec x s with ⟨_ | a, u⟩ <;> rw [hrun] at hs
  · exact hs
  · exact hcomp _ _ _ hs (hf a u)

theorem bind [IsTrans σ r] (hx : Moves r x) (hf : ∀ a, Moves r (f a)) : Moves r (x >>= f) :=
  .after (fun _ _ _ => trans_of r) hx hf

theorem ite {c : Prop} [Decidable c] {y : ExceptT ε (StateM σ) α} (hx : Moves r x)
    (hy : Moves r y) : Moves r (if c then x else y) := by
  split
  · exact hx
  · exact hy

theorem forM [Std.Refl r] [IsTrans σ r] {l : List β} {g : β → ExceptT ε (StateM σ) PUnit}
    (h : ∀ b ∈ l, Moves r (g b)) : Moves r (l.forM g) := by
  induction l with
  | nil => exact .pure _
  | cons b l ih =>
    rw [List.forall_mem_cons] at h
    exact .bind h.1 fun _ => ih h.2

theorem mapM [Std.Refl r] [IsTrans σ r] {l : List α} (h : ∀ a ∈ l, Moves r (f a)) :
    Moves r (l.mapM f) := by
  induction l with
  | nil => exact .pure _
  | cons a l ih =>
    rw [List.forall_mem_cons] at h
    rw [List.mapM_cons]
    exact .bind h.1 fun b => .bind (ih h.2) fun bs => .pure _

theorem tryCatch [IsTrans σ r] {handler : ε → ExceptT ε (StateM σ) α} (hx : Moves r x)
    (hhandler : ∀ e, Moves r (handler e)) : Moves r (tryCatch x handler) := by
  intro s
  have hs := hx s
  rw [exec_tryCatch]
  rcases hrun : exec x s with ⟨e | a, t⟩ <;> rw [hrun] at hs
  · exact trans_of r hs (hhandler e t)
  · exact hs

end Moves

/-- Every run from certain states moves the state along a relation. -/
def MovesFrom (p : σ → Prop) (r : σ → σ → Prop) (x : ExceptT ε (StateM σ) α) : Prop :=
  ∀ s, p s → r s (exec x s).2

namespace MovesFrom

variable {p : σ → Prop} {r : σ → σ → Prop}

theorem of_moves (h : Moves r x) : MovesFrom p r x := fun s _ => h s

/-- The second part starts where the first one has succeeded. -/
theorem bind [IsTrans σ r] {q : α → σ → Prop} (hx : MovesFrom p r x)
    (hq : ∀ s a t, p s → exec x s = (.ok a, t) → q a t) (hf : ∀ a, MovesFrom (q a) r (f a)) :
    MovesFrom p r (x >>= f) := by
  intro s hs
  rw [exec_bind]
  have hmove := hx s hs
  rcases hrun : exec x s with ⟨_ | a, t⟩ <;> rw [hrun] at hmove
  · exact hmove
  · exact trans_of r hmove (hf a t (hq s a t hs hrun))

/-- The same, when the first part may start anywhere. -/
theorem after_moves [IsTrans σ r] {q : α → σ → Prop} (hx : Moves r x)
    (hq : ∀ s a t, exec x s = (.ok a, t) → q a t) (hf : ∀ a, MovesFrom (q a) r (f a)) :
    Moves r (x >>= f) := by
  have h : MovesFrom (fun _ => True) r (x >>= f) :=
    bind (of_moves hx) (fun s a t _ => hq s a t) hf
  exact fun s => h s trivial

end MovesFrom

end Exec

end Base
