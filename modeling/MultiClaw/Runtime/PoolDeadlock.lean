import MultiClaw.Runtime.Pool

/-! Calls of the runtime pool wait in a cycle only over a runtime that a capacity eviction has seen
and another call has removed. -/
namespace MultiClaw

open Base

variable {n : Nat} {p p' : RuntimePool n} {i j : Fin n} {outcome : Bool} {w : Sweep}
  {t : String} {e : Nat} {c c' : CallState} {s s' : PoolState n}

/-! What a step does to the locks -/

abbrev RuntimePool.view (p : RuntimePool n) (locks : List PoolLock) (uses : List (String × Nat)) :
    LockView PoolLock String (Fin n) :=
  ⟨p.owner, p.tenantLocks, locks, uses⟩

section Moves

variable {l : PoolLock} {locks : List PoolLock} {uses : List (String × Nat)}

theorem take_moves (hfree : p.isFree l = true) :
    LockMoves i (p.view locks uses) ((p.take l i).view (l :: locks) uses) :=
  .take (by simpa [RuntimePool.isFree] using hfree)

theorem release_moves :
    LockMoves i (p.view (l :: locks) uses) ((p.release l).view locks uses) :=
  .release

theorem retain_moves :
    LockMoves i (p.view (.table :: locks) uses)
      ((p.retain t).view locks ((t, p.tenantLocks.entry t) :: uses)) :=
  .trans .retain .release

theorem drop_moves :
    LockMoves i (p.view (.table :: locks) ((t, e) :: uses)) ((p.drop t e).view locks uses) :=
  .trans .drop .release

end Moves

/-- What is left of a sweep holds and uses what its tenant lock does. -/
def Sweep.view (p : RuntimePool n) : Option Sweep → LockView PoolLock String (Fin n)
  | some w => p.view w.lock.locks (w.lock.uses w.tenantId)
  | none => p.view [] []

/-- A sweep starts with the first item, before it has touched a lock. -/
theorem Sweep.of_start? {kind : SweepKind} {items : List (String × Nat)}
    (h : Sweep.start? kind items = some w) :
    ∃ t r rest, items = (t, r) :: rest ∧ w = ⟨kind, t, some r, rest, .enter⟩ := by
  cases items with
  | nil => cases h
  | cons item rest =>
    cases h
    exact ⟨_, _, _, rfl, rfl⟩

theorem Sweep.start?_view {kind : SweepKind} {items : List (String × Nat)} :
    Sweep.view p (Sweep.start? kind items) = p.view [] [] := by
  cases items <;> rfl

theorem Sweep.step?_moves {w' : Option Sweep} (h : w.step? p i outcome = some (p', w')) :
    LockMoves i (Sweep.view p (some w)) (Sweep.view p' w') := by
  obtain ⟨kind, tenantId, runtime, rest, lock⟩ := w
  cases lock with
  | enter =>
    simp only [Sweep.step?] at h
    split_ifs at h with hfree
    cases h
    exact take_moves hfree
  | entering =>
    cases h
    exact retain_moves
  | waiting e =>
    simp only [Sweep.step?] at h
    split_ifs at h with hfree
    split at h
    · cases h
      exact take_moves hfree
    · cases h
      exact .refl
  | held e =>
    cases h
    refine .trans release_moves ?_
    split <;> exact .refl
  | leave e =>
    simp only [Sweep.step?] at h
    split_ifs at h with hfree
    cases h
    exact take_moves hfree
  | leaving e =>
    cases h
    rw [Sweep.next?, Sweep.start?_view]
    exact drop_moves

theorem CallState.acquireStep?_moves {lock : TenantLock}
    (h : CallState.acquireStep? p i t lock = some (p', c')) :
    LockMoves i (p.view lock.locks (lock.uses t)) (p'.view c'.locks c'.uses) := by
  cases lock with
  | enter =>
    simp only [CallState.acquireStep?] at h
    split_ifs at h with hfree
    cases h
    exact take_moves hfree
  | entering =>
    cases h
    exact retain_moves
  | waiting e =>
    simp only [CallState.acquireStep?] at h
    split_ifs at h with hfree
    split at h
    · cases h
      exact .refl
    · cases h
      exact take_moves hfree
  | held e => cases h
  | leave e =>
    simp only [CallState.acquireStep?] at h
    split_ifs at h with hfree
    cases h
    exact take_moves hfree
  | leaving e =>
    cases h
    exact drop_moves

theorem CallState.depart_moves :
    LockMoves i (p.view [.tenant e, .capacity] [(t, e)])
      ((CallState.depart p t e).1.view (CallState.depart p t e).2.locks
        (CallState.depart p t e).2.uses) :=
  .trans (.perm (.swap _ _ _) (.refl _)) (.trans release_moves release_moves)

theorem CallState.admittedStep?_moves {stage : AcquireStage}
    (h : CallState.admittedStep? p i outcome t e stage = some (p', c')) :
    LockMoves i (p.view (CallState.admitted t e stage).locks (CallState.admitted t e stage).uses)
      (p'.view c'.locks c'.uses) := by
  cases stage with
  | capacity =>
    simp only [CallState.admittedStep?] at h
    split_ifs at h with hfree
    · cases h
      exact release_moves
    · cases h
      exact .trans (take_moves hfree) (.perm (.swap _ _ _) (.refl _))
    · split at h
      · rename_i w hw
        cases h
        obtain ⟨_, _, _, -, rfl⟩ := Sweep.of_start? hw
        exact .trans (take_moves hfree) (.perm (.swap _ _ _) (.refl _))
      · cases h
        exact release_moves
  | evicting w =>
    simp only [CallState.admittedStep?] at h
    split at h
    · cases h
    · rename_i hstep
      cases h
      exact (Sweep.step?_moves hstep).frame [.tenant e, .capacity] [(t, e)]
    · rename_i hstep
      have hmoves := (Sweep.step?_moves hstep).frame [.tenant e, .capacity] [(t, e)]
      split_ifs at h
      · cases h
        exact hmoves
      · cases h
        exact .trans hmoves depart_moves
  | creating =>
    simp only [CallState.admittedStep?] at h
    split_ifs at h
    · cases h
      exact depart_moves
    · cases h
      exact .refl
    · cases h
      exact .trans (depart_moves (p := p)) .refl
  | discarding =>
    cases h
    exact depart_moves

/-- The lock that `close` holds beside those of its sweep. -/
def SweepKind.locks : SweepKind → List PoolLock
  | .close => [.close]
  | .revoke | .evict => []

theorem CallState.locks_sweep (w : Sweep) :
    (CallState.sweep w).locks = w.kind.locks ++ w.lock.locks := by
  obtain ⟨kind, _, _, _, _⟩ := w
  cases kind <;> rfl

theorem CallState.swept_moves (kind : SweepKind) :
    LockMoves i (p.view (kind.locks ++ []) []) ((CallState.swept p kind).view [] []) := by
  cases kind with
  | close => exact release_moves
  | revoke => exact .refl
  | evict => exact .refl

theorem Sweep.kind_of_step? {w' : Sweep} (h : w.step? p i outcome = some (p', some w')) :
    w'.kind = w.kind := by
  obtain ⟨kind, tenantId, runtime, rest, lock⟩ := w
  cases lock <;> simp only [Sweep.step?] at h
  case enter | leave =>
    split_ifs at h
    cases h
    rfl
  case entering | held =>
    cases h
    rfl
  case waiting =>
    split_ifs at h
    split at h <;> cases h <;> rfl
  case leaving =>
    obtain ⟨-, hnext⟩ := Prod.mk.inj (Option.some.inj h)
    obtain ⟨_, _, _, -, rfl⟩ := Sweep.of_start? hnext
    rfl

theorem CallState.step?_moves (h : CallState.step? p i outcome c = some (p', c')) :
    LockMoves i (p.view c.locks c.uses) (p'.view c'.locks c'.uses) := by
  cases c with
  | idle op =>
    cases op with
    | acquire =>
      cases h
      split <;> exact .refl
    | revoke =>
      cases h
      exact .refl
    | evictIdle =>
      cases h
      cases hw : Sweep.start? .evict p.runtimes with
      | none => exact .refl
      | some w =>
        obtain ⟨_, _, _, -, rfl⟩ := Sweep.of_start? hw
        exact .refl
    | close =>
      cases h
      exact .refl
  | acquire t lock => exact acquireStep?_moves h
  | admitted t e stage => exact admittedStep?_moves h
  | closing =>
    simp only [CallState.step?] at h
    split_ifs at h with hfree
    · cases h
      exact .refl
    · cases h
      exact take_moves hfree
  | snapshot =>
    simp only [CallState.step?] at h
    split_ifs at h with hfree
    split at h
    · rename_i w hw
      cases h
      obtain ⟨_, _, _, -, rfl⟩ := Sweep.of_start? hw
      exact .refl
    · cases h
      exact swept_moves .close
  | sweep w =>
    simp only [CallState.step?] at h
    rw [locks_sweep]
    split at h
    · cases h
    · rename_i w' hstep
      cases h
      rw [locks_sweep, Sweep.kind_of_step? hstep]
      exact (Sweep.step?_moves hstep).frame w.kind.locks []
    · rename_i hstep
      cases h
      exact .trans ((Sweep.step?_moves hstep).frame w.kind.locks []) (swept_moves w.kind)
  | finished => cases h

def PoolState.Agrees (s : PoolState n) : Prop :=
  LocksAgree s.pool.owner s.pool.tenantLocks (fun i => (s.calls i).locks) fun i => (s.calls i).uses

theorem PoolState.agrees_initial (maxResidentTenants : Nat) (ops : Fin n → PoolOp) :
    (PoolState.initial maxResidentTenants ops).Agrees where
  owned l i := by simp [PoolState.initial, RuntimePool.empty, CallState.locks]
  nodup i := List.nodup_nil
  counts := RefTable.counts_empty fun _ => rfl

theorem PoolState.Agrees.step (h : s.Agrees) (hstep : s.step? i outcome = some s') :
    s'.Agrees := by
  obtain ⟨⟨p', c'⟩, hcall, rfl⟩ := Option.map_eq_some_iff.mp hstep
  have hmoves := LocksAgree.moves (CallState.step?_moves hcall) h rfl rfl
  have hlocks := Function.comp_update CallState.locks s.calls i c'
  have huses := Function.comp_update CallState.uses s.calls i c'
  simp only [Function.comp_def] at hlocks huses
  rw [PoolState.Agrees, hlocks, huses]
  exact hmoves

/-! What a step does to the runtimes -/

/-- The tenants with a resident runtime. -/
def RuntimePool.residents (p : RuntimePool n) : List String := p.runtimes.map Prod.fst

theorem RuntimePool.lookup_eq_none : p.runtimes.lookup t = none ↔ t ∉ p.residents := by
  rw [List.lookup_eq_none_iff]
  simp only [RuntimePool.residents, List.mem_map, not_exists, not_and, bne_iff_ne]
  exact ⟨fun h r hr he => h r hr he.symm, fun h r hr he => h r hr he.symm⟩

theorem RuntimePool.mem_residents_pop {u : String} :
    u ∈ (p.pop t).residents ↔ u ∈ p.residents ∧ u ≠ t := by
  simp [RuntimePool.residents, RuntimePool.pop]

/-- The tenant whose runtime a sweep drops with this step. -/
def Sweep.drops (w : Sweep) (p : RuntimePool n) (outcome : Bool) : Option String :=
  match w.lock with
  | .held _ => if w.removes p outcome then some w.tenantId else none
  | _ => none

def CallState.drops (p : RuntimePool n) (outcome : Bool) : CallState → Option String
  | .sweep w | .admitted _ _ (.evicting w) => w.drops p outcome
  | _ => none

/-- The pool without the runtime of a tenant, if one is given. -/
def RuntimePool.without (p : RuntimePool n) : Option String → RuntimePool n
  | some t => p.pop t
  | none => p

theorem Sweep.step?_residents {w' : Option Sweep} (h : w.step? p i outcome = some (p', w')) :
    p'.runtimes = (p.without (w.drops p outcome)).runtimes := by
  obtain ⟨kind, tenantId, runtime, rest, lock⟩ := w
  cases lock with
  | enter | leave =>
    simp only [Sweep.step?] at h
    split_ifs at h
    cases h
    rfl
  | entering | leaving =>
    cases h
    rfl
  | waiting e =>
    simp only [Sweep.step?] at h
    split_ifs at h
    split at h <;> cases h <;> rfl
  | held e =>
    cases h
    simp only [Sweep.drops]
    split <;> rfl

theorem CallState.swept_runtimes (kind : SweepKind) :
    (CallState.swept p kind).runtimes = p.runtimes := by
  cases kind <;> rfl

/-- Apart from the runtime that `acquire` has created, a step only drops one. -/
theorem CallState.step?_residents (h : CallState.step? p i outcome c = some (p', c')) :
    (∃ t e, c = .admitted t e .creating ∧ c' = .acquire t (.leave e) ∧
      ∃ r, p'.runtimes = p.runtimes ++ [(t, r)]) ∨
      p'.runtimes = (p.without (c.drops p outcome)).runtimes := by
  cases c with
  | idle op => cases op <;> cases h <;> exact .inr rfl
  | acquire t lock =>
    refine .inr ?_
    cases lock <;> simp only [CallState.step?, CallState.acquireStep?] at h
    case enter | leave =>
      split_ifs at h
      cases h
      rfl
    case entering | leaving =>
      cases h
      rfl
    case held => cases h
    case waiting =>
      split_ifs at h
      split at h <;> cases h <;> rfl
  | admitted t e stage =>
    cases stage with
    | capacity =>
      refine .inr ?_
      simp only [CallState.step?, CallState.admittedStep?] at h
      split_ifs at h
      · cases h
        rfl
      · cases h
        rfl
      · split at h <;> cases h <;> rfl
    | evicting w =>
      refine .inr ?_
      simp only [CallState.step?, CallState.admittedStep?] at h
      split at h
      · cases h
      · rename_i hstep
        cases h
        exact Sweep.step?_residents hstep
      · rename_i hstep
        have hres := Sweep.step?_residents hstep
        split_ifs at h <;> cases h <;> exact hres
    | creating =>
      simp only [CallState.step?, CallState.admittedStep?] at h
      split_ifs at h
      · cases h
        exact .inr rfl
      · cases h
        exact .inr rfl
      · cases h
        exact .inl ⟨t, e, rfl, rfl, _, rfl⟩
    | discarding =>
      cases h
      exact .inr rfl
  | closing =>
    refine .inr ?_
    simp only [CallState.step?] at h
    split_ifs at h <;> cases h <;> rfl
  | snapshot =>
    refine .inr ?_
    simp only [CallState.step?] at h
    split_ifs at h
    split at h <;> cases h <;> rfl
  | sweep w =>
    refine .inr ?_
    simp only [CallState.step?] at h
    split at h
    · cases h
    · rename_i hstep
      cases h
      exact Sweep.step?_residents hstep
    · rename_i hstep
      cases h
      rw [swept_runtimes]
      exact Sweep.step?_residents hstep
  | finished => cases h

/-- A call that is admitted was admitted before, or found no runtime of its tenant. -/
theorem CallState.of_step?_admitted {stage : AcquireStage}
    (h : CallState.step? p i outcome c = some (p', .admitted t e stage)) :
    (∃ stage', c = .admitted t e stage') ∨ (stage = .capacity ∧ p.runtimes.lookup t = none) := by
  cases c with
  | idle op =>
    cases op <;> simp only [CallState.step?] at h
    case acquire => split at h <;> cases h
    case evictIdle => cases hw : Sweep.start? .evict p.runtimes <;> simp [hw] at h
    case revoke | close => cases h
  | acquire t' lock =>
    cases lock <;> simp only [CallState.step?, CallState.acquireStep?] at h
    case enter | leave => split_ifs at h; cases h
    case entering | held | leaving => cases h
    case waiting =>
      split_ifs at h
      split at h
      · cases h
      · rename_i hnone
        cases h
        exact .inr ⟨rfl, hnone⟩
  | admitted t' e' stage' =>
    refine .inl ⟨stage', ?_⟩
    cases stage' <;> simp only [CallState.step?, CallState.admittedStep?] at h
    case capacity =>
      split_ifs at h
      · cases h
      · cases h
        rfl
      · split at h <;> cases h
        rfl
    case evicting =>
      split at h
      · cases h
      · cases h
        rfl
      · split_ifs at h <;> cases h
        rfl
    case creating =>
      split_ifs at h <;> cases h
      rfl
    case discarding => cases h
  | closing =>
    simp only [CallState.step?] at h
    split_ifs at h <;> cases h
  | snapshot =>
    simp only [CallState.step?] at h
    split_ifs at h
    split at h <;> cases h
  | sweep w =>
    simp only [CallState.step?] at h
    split at h <;> cases h
  | finished => cases h

/-! The tenants that a capacity eviction still has to deal with -/

/-- The tenants of a sweep that it has not reached yet. -/
def Sweep.pending (w : Sweep) : List String :=
  match w.lock with
  | .enter | .entering | .waiting _ => w.tenantId :: w.rest.map Prod.fst
  | .held _ | .leave _ | .leaving _ => w.rest.map Prod.fst

/-- The tenants that a capacity eviction of the call has seen and not reached yet. -/
def CallState.pending : CallState → List String
  | .admitted _ _ (.evicting w) => w.pending
  | _ => []

def Sweep.Distinct (w : Sweep) : Prop := (w.tenantId :: w.rest.map Prod.fst).Nodup

theorem Sweep.start?_pending {kind : SweepKind} (h : Sweep.start? kind p.runtimes = some w)
    (hnodup : p.residents.Nodup) : w.Distinct ∧ w.pending = p.residents := by
  obtain ⟨t, r, rest, hruntimes, rfl⟩ := Sweep.of_start? h
  have heq : p.residents = t :: rest.map Prod.fst := by simp [RuntimePool.residents, hruntimes]
  exact ⟨by rwa [heq] at hnodup, heq.symm⟩

theorem Sweep.step?_pending {w' : Sweep} (h : w.step? p i outcome = some (p', some w'))
    (hw : w.Distinct) :
    w'.Distinct ∧ ∀ u ∈ w'.pending, u ∈ w.pending ∧ w.drops p outcome ≠ some u := by
  obtain ⟨kind, tenantId, runtime, rest, lock⟩ := w
  have htail := List.nodup_cons.mp hw
  cases lock with
  | enter | leave =>
    simp only [Sweep.step?] at h
    split_ifs at h
    cases h
    exact ⟨hw, fun u hu => ⟨hu, by simp [Sweep.drops]⟩⟩
  | entering =>
    cases h
    exact ⟨hw, fun u hu => ⟨hu, by simp [Sweep.drops]⟩⟩
  | waiting e =>
    simp only [Sweep.step?] at h
    split_ifs at h
    split at h <;> cases h <;>
      exact ⟨hw, fun u hu => ⟨List.mem_cons_of_mem _ hu, by simp [Sweep.drops]⟩⟩
  | held e =>
    cases h
    refine ⟨hw, fun u hu => ⟨hu, ?_⟩⟩
    simp only [Sweep.drops]
    split
    · rintro ⟨rfl⟩
      exact htail.1 hu
    · simp
  | leaving e =>
    obtain ⟨-, hnext⟩ := Prod.mk.inj (Option.some.inj h)
    obtain ⟨t, r, rest', hrest, rfl⟩ := Sweep.of_start? hnext
    simp only at hrest
    subst hrest
    exact ⟨htail.2, fun u hu => ⟨hu, by simp [Sweep.drops]⟩⟩

/-- What a calm step leaves alone: the runtime it drops is not one that another call's capacity
eviction has seen and not reached yet. -/
def PoolState.Calm (s : PoolState n) (i : Fin n) (outcome : Bool) : Prop :=
  ∀ j, j ≠ i → ∀ t ∈ (s.calls j).pending, (s.calls i).drops s.pool outcome ≠ some t

instance : Decidable (s.Calm i outcome) := inferInstanceAs (Decidable (∀ _, _))

structure PoolState.Inv (s : PoolState n) : Prop where
  agrees : s.Agrees
  nodup : s.pool.residents.Nodup
  absent : ∀ i t e stage, s.calls i = .admitted t e stage → t ∉ s.pool.residents
  distinct : ∀ i t e w, s.calls i = .admitted t e (.evicting w) → w.Distinct
  resident : ∀ i, ∀ t ∈ (s.calls i).pending, t ∈ s.pool.residents

theorem PoolState.inv_initial (maxResidentTenants : Nat) (ops : Fin n → PoolOp) :
    (PoolState.initial maxResidentTenants ops).Inv where
  agrees := agrees_initial maxResidentTenants ops
  nodup := List.nodup_nil
  absent i t e stage h := by cases h
  distinct i t e w h := by cases h
  resident i t h := by cases h

/-- The calls that are admitted for one tenant are one call. -/
theorem PoolState.Agrees.admitted_eq (h : s.Agrees) {e' : Nat} {stage stage' : AcquireStage}
    (hi : s.calls i = .admitted t e stage) (hj : s.calls j = .admitted t e' stage') : i = j := by
  have huse : ∀ {e stage}, (t, e) ∈ (CallState.admitted t e stage).uses := by
    intro e stage
    cases stage <;> simp [CallState.uses]
  have hlock : ∀ {e stage}, PoolLock.tenant e ∈ (CallState.admitted t e stage).locks := by
    intro e stage
    cases stage <;> simp [CallState.locks]
  have he : e = e' := Option.some.inj ((h.counts.entry_of_use i t e (by simp [hi, huse])).symm.trans
    (h.counts.entry_of_use j t e' (by simp [hj, huse])))
  subst he
  exact h.owned.eq_of_mem (l := .tenant e) (by simp [hi, hlock]) (by simp [hj, hlock])

theorem RuntimePool.mem_residents_without {u : String} {d : Option String} :
    u ∈ (p.without d).residents ↔ u ∈ p.residents ∧ d ≠ some u := by
  cases d with
  | none => simp [RuntimePool.without]
  | some t =>
    rw [RuntimePool.without, RuntimePool.mem_residents_pop]
    simp [eq_comm]

theorem RuntimePool.nodup_without {d : Option String} (h : p.residents.Nodup) :
    (p.without d).residents.Nodup := by
  cases d with
  | none => exact h
  | some t => exact h.sublist (List.Sublist.map _ List.filter_sublist)

/-- A capacity eviction has just started, or goes on. -/
theorem CallState.of_step?_evicting {w' : Sweep}
    (h : CallState.step? p i outcome c = some (p', .admitted t e (.evicting w'))) :
    (c = .admitted t e .capacity ∧ Sweep.start? .evict p.runtimes = some w') ∨
      ∃ w, c = .admitted t e (.evicting w) ∧ w.step? p i outcome = some (p', some w') := by
  obtain ⟨stage, rfl⟩ | ⟨⟨⟩, -⟩ := of_step?_admitted h
  · cases stage <;> simp only [CallState.step?, CallState.admittedStep?] at h
    case capacity =>
      split_ifs at h
      · cases h
      · cases h
      · split at h
        · rename_i hw
          cases h
          exact .inl ⟨rfl, hw⟩
        · cases h
    case evicting w =>
      split at h
      · cases h
      · rename_i hstep
        cases h
        exact .inr ⟨w, rfl, hstep⟩
      · split_ifs at h <;> cases h
    case creating => split_ifs at h <;> cases h
    case discarding => cases h

/-- A tenant with an admitted call has no resident runtime, and no tenant has two. -/
theorem PoolState.residents_step (hagrees : s.Agrees) (hnodup : s.pool.residents.Nodup)
    (habsent : ∀ i t e stage, s.calls i = .admitted t e stage → t ∉ s.pool.residents)
    (hstep : s.step? i outcome = some s') : s'.pool.residents.Nodup ∧
      ∀ i t e stage, s'.calls i = .admitted t e stage → t ∉ s'.pool.residents := by
  obtain ⟨⟨p', c'⟩, hcall, rfl⟩ := Option.map_eq_some_iff.mp hstep
  obtain ⟨t, e, hc, hc', r, hruntimes⟩ | hruntimes := CallState.step?_residents hcall
  · -- `acquire` has created the runtime of its tenant, and is not admitted any more
    have hres : p'.residents = s.pool.residents ++ [t] := by
      simp [RuntimePool.residents, hruntimes]
    constructor
    · simpa [hres, List.nodup_append] using
        ⟨hnodup, fun a ha he => habsent i t e _ hc (he ▸ ha)⟩
    · intro j t' e' stage hj
      by_cases hji : j = i
      · subst hji
        simp [hc'] at hj
      · simp only [Function.update_of_ne hji] at hj
        simp only [hres, List.mem_append, List.mem_singleton, not_or]
        exact ⟨habsent j t' e' stage hj, by rintro rfl; exact hji (hagrees.admitted_eq hj hc)⟩
  · constructor
    · simp only [RuntimePool.residents, hruntimes]
      exact RuntimePool.nodup_without hnodup
    · intro j t e stage hj hmem
      have hmem' : t ∈ s.pool.residents := by
        rw [RuntimePool.residents, hruntimes] at hmem
        exact (RuntimePool.mem_residents_without.mp hmem).1
      by_cases hji : j = i
      · subst hji
        simp only [Function.update_self] at hj
        subst hj
        obtain ⟨stage', hc⟩ | ⟨-, hnone⟩ := CallState.of_step?_admitted hcall
        · exact habsent j t e stage' hc hmem'
        · exact RuntimePool.lookup_eq_none.mp hnone hmem'
      · exact habsent j t e stage (by simpa [Function.update_of_ne hji] using hj) hmem'

theorem PoolState.Inv.step (h : s.Inv) (hcalm : s.Calm i outcome)
    (hstep : s.step? i outcome = some s') : s'.Inv := by
  have hagrees := h.agrees.step hstep
  obtain ⟨hnodup, habsent⟩ := residents_step h.agrees h.nodup h.absent hstep
  obtain ⟨⟨p', c'⟩, hcall, rfl⟩ := Option.map_eq_some_iff.mp hstep
  obtain ⟨t, e, hc, hc', r, hruntimes⟩ | hruntimes := CallState.step?_residents hcall
  · have hres : p'.residents = s.pool.residents ++ [t] := by
      simp [RuntimePool.residents, hruntimes]
    refine ⟨hagrees, hnodup, habsent, ?_, ?_⟩
    · intro j t' e' w hj
      by_cases hji : j = i
      · subst hji
        simp [hc'] at hj
      · exact h.distinct j t' e' w (by simpa [Function.update_of_ne hji] using hj)
    · intro j u hu
      by_cases hji : j = i
      · subst hji
        simp [hc', CallState.pending] at hu
      · simp only [Function.update_of_ne hji] at hu
        simp [hres, h.resident j u hu]
  · have hres : ∀ u, u ∈ p'.residents ↔
        u ∈ s.pool.residents ∧ (s.calls i).drops s.pool outcome ≠ some u := by
      intro u
      rw [RuntimePool.residents, hruntimes]
      exact RuntimePool.mem_residents_without
    refine ⟨hagrees, hnodup, habsent, ?_, ?_⟩
    · intro j t e w hj
      by_cases hji : j = i
      · subst hji
        simp only [Function.update_self] at hj
        subst hj
        obtain ⟨-, hw⟩ | ⟨w₀, hc, hw⟩ := CallState.of_step?_evicting hcall
        · exact (Sweep.start?_pending hw h.nodup).1
        · exact (Sweep.step?_pending hw (h.distinct j t e w₀ hc)).1
      · exact h.distinct j t e w (by simpa [Function.update_of_ne hji] using hj)
    · intro j u hu
      rw [hres]
      by_cases hji : j = i
      · subst hji
        simp only [Function.update_self] at hu
        unfold CallState.pending at hu
        split at hu
        · obtain ⟨hc, hw⟩ | ⟨w₀, hc, hw⟩ := CallState.of_step?_evicting hcall
          · rw [(Sweep.start?_pending hw h.nodup).2] at hu
            exact ⟨hu, by simp [hc, CallState.drops]⟩
          · obtain ⟨hpending, hdrops⟩ := (Sweep.step?_pending hw (h.distinct j _ _ w₀ hc)).2 u hu
            exact ⟨h.resident j u (by rw [hc]; exact hpending), by rw [hc]; exact hdrops⟩
        · cases hu
      · simp only [Function.update_of_ne hji] at hu
        exact ⟨h.resident j u hu, hcalm j hji u hu⟩

/-! Ranks of waiting calls -/

/-- Calls wait for calls of a higher rank. -/
def CallState.rank : CallState → Nat
  | .acquire _ _ | .sweep _ | .snapshot => 1
  | .admitted _ _ .capacity => 2
  | .admitted _ _ (.evicting _) => 3
  | _ => 0

theorem TenantLock.locks_of_waits {lock : TenantLock} {l : PoolLock} (h : lock.waits = some l) :
    lock.locks = [] := by
  cases lock <;> first | rfl | cases h

theorem CallState.rank_of_waits_close (h : c.waits = some .close) : c.rank = 0 := by
  have hlock : ∀ lock : TenantLock, lock.waits ≠ some .close := by
    intro lock
    cases lock <;> simp [TenantLock.waits]
  unfold CallState.waits at h
  split at h
  · exact absurd h (hlock _)
  · cases h
  · cases h
  · exact absurd h (hlock _)
  · exact absurd h (hlock _)
  · rfl
  all_goals cases h

theorem CallState.rank_of_waits_capacity (h : c.waits = some .capacity) : c.rank ≤ 2 := by
  have hlock : ∀ lock : TenantLock, lock.waits ≠ some .capacity := by
    intro lock
    cases lock <;> simp [TenantLock.waits]
  unfold CallState.waits at h
  split at h
  · exact absurd h (hlock _)
  · exact le_rfl
  · simp [CallState.rank]
  · exact absurd h (hlock _)
  · exact absurd h (hlock _)
  all_goals cases h

theorem CallState.of_waits_tenant (h : c.waits = some (.tenant e)) :
    c.rank = 1 ∨ ∃ t e' w, c = .admitted t e' (.evicting w) ∧ w.lock = .waiting e := by
  have hlock : ∀ lock : TenantLock, lock.waits = some (.tenant e) → lock = .waiting e := by
    intro lock hwaits
    cases lock <;> simp_all [TenantLock.waits]
  unfold CallState.waits at h
  split at h
  · exact .inl rfl
  · cases h
  · cases h
  · exact .inr ⟨_, _, _, rfl, hlock _ h⟩
  · exact .inl rfl
  all_goals cases h

/-- A capacity eviction does not wait for a call that found no runtime of its tenant. -/
theorem PoolState.Inv.evicting_ne (h : s.Inv) {t' : String} {e' : Nat} {stage : AcquireStage}
    (hi : s.calls i = .admitted t' e' (.evicting w)) (hw : w.lock = .waiting e) :
    s.calls j ≠ .admitted t e stage := by
  intro hj
  have huse : (w.tenantId, e) ∈ (s.calls i).uses := by
    simp [hi, CallState.uses, hw, TenantLock.uses]
  have huse' : (t, e) ∈ (s.calls j).uses := by
    rw [hj]
    cases stage <;> simp [CallState.uses]
  have htenant := h.agrees.counts.entries_inj _ _ e (h.agrees.counts.entry_of_use i _ _ huse)
    (h.agrees.counts.entry_of_use j _ _ huse')
  refine h.absent j t e stage hj (h.resident i t ?_)
  rw [hi, ← htenant]
  simp [CallState.pending, Sweep.pending, hw]

theorem PoolState.Inv.rank_lt (h : s.Inv) {k : Fin n} (hij : s.WaitsFor i j)
    (hjk : s.WaitsFor j k) : (s.calls i).rank < (s.calls j).rank := by
  obtain ⟨l, hwaits, howner⟩ := hij
  obtain ⟨l', hwaits', -⟩ := hjk
  have hmem : l ∈ (s.calls j).locks := (h.agrees.owned l j).mp howner
  have htenant : ∀ t e stage, s.calls j = .admitted t e stage → l = .tenant e →
      (s.calls i).rank = 1 := by
    rintro t e stage hj rfl
    obtain hrank | ⟨t', e', w, hi, hw⟩ := CallState.of_waits_tenant hwaits
    · exact hrank
    · exact absurd hj (h.evicting_ne hi hw)
  cases hj : s.calls j with
  | idle op => simp [hj, CallState.locks] at hmem
  | acquire t lock =>
    simp [hj, CallState.locks, TenantLock.locks_of_waits (hj ▸ hwaits')] at hmem
  | admitted t e stage =>
    cases stage with
    | capacity =>
      simp only [hj, CallState.locks, List.mem_singleton] at hmem
      rw [htenant t e _ hj hmem]
      exact Nat.one_lt_two
    | evicting w =>
      have hw : w.lock.locks = [] := TenantLock.locks_of_waits (hj ▸ hwaits')
      simp only [hj, CallState.locks, hw, List.mem_cons, List.not_mem_nil, or_false] at hmem
      obtain rfl | rfl := hmem
      · rw [htenant t e _ hj rfl]
        exact (by decide : 1 < 3)
      · exact lt_of_le_of_lt (CallState.rank_of_waits_capacity hwaits) (by decide : 2 < 3)
    | creating | discarding => simp [hj, CallState.waits] at hwaits'
  | closing => simp [hj, CallState.locks] at hmem
  | snapshot =>
    simp only [hj, CallState.locks, List.mem_singleton] at hmem
    rw [CallState.rank_of_waits_close (hmem ▸ hwaits)]
    exact Nat.zero_lt_one
  | sweep w =>
    have hw : w.lock.locks = [] := TenantLock.locks_of_waits (hj ▸ hwaits')
    simp only [hj, CallState.locks_sweep, hw, List.append_nil] at hmem
    cases hkind : w.kind <;> simp only [hkind, SweepKind.locks, List.mem_singleton,
      List.not_mem_nil] at hmem
    rw [CallState.rank_of_waits_close (hmem ▸ hwaits)]
    exact Nat.zero_lt_one
  | finished => simp [hj, CallState.locks] at hmem

/-- Every step of the trace is calm in the state in which it is made. -/
def PoolState.CalmRun (s : PoolState n) : List (Fin n × Bool) → Prop
  | [] => True
  | (i, outcome) :: trace =>
    s.Calm i outcome ∧
      match s.step? i outcome with
      | some s' => s'.CalmRun trace
      | none => True

instance PoolState.decidableCalmRun (s : PoolState n) (trace : List (Fin n × Bool)) :
    Decidable (s.CalmRun trace) := by
  induction trace generalizing s with
  | nil => exact instDecidableTrue
  | cons move trace ih =>
    refine @instDecidableAnd _ _ _ ?_
    cases s.step? move.1 move.2 with
    | none => exact instDecidableTrue
    | some s' => exact ih s'

theorem PoolState.Inv.run (h : s.Inv) {trace : List (Fin n × Bool)} (hcalm : s.CalmRun trace)
    (hrun : s.run? trace = some s') : s'.Inv := by
  induction trace generalizing s with
  | nil =>
    cases hrun
    exact h
  | cons move trace ih =>
    obtain ⟨s₁, hstep, hrest⟩ := Option.bind_eq_some_iff.mp hrun
    obtain ⟨hmove, htrace⟩ := hcalm
    simp only [hstep] at htrace
    exact ih (h.step hmove hstep) htrace hrest

/-- No interleaving ends in a deadlock in which no call drops a runtime that another call's capacity
eviction has seen and not reached yet. -/
theorem pool_calls_never_deadlock (maxResidentTenants : Nat) (ops : Fin n → PoolOp)
    (trace : List (Fin n × Bool))
    (hcalm : (PoolState.initial maxResidentTenants ops).CalmRun trace)
    (hrun : (PoolState.initial maxResidentTenants ops).run? trace = some s) :
    ¬s.Deadlocked := by
  rintro ⟨calls, hcalls, hwait⟩
  have hinv := (PoolState.inv_initial maxResidentTenants ops).run hcalm hrun
  refine @no_wait_cycle _ s.WaitsFor (fun i => (s.calls i).rank)
    (fun i j k => hinv.rank_lt) calls hcalls ?_
  intro i hi
  obtain ⟨j, hj, -, hij⟩ := hwait i hi
  exact ⟨j, hj, hij⟩

/-- Two tenants take turns in a pool for one of them: the second call evicts the first runtime. -/
theorem pool_calls_never_deadlock_turns :
    ∃ s, (PoolState.initial 1 ![.acquire "a", .acquire "b"]).run?
        (List.replicate 8 (0, true) ++ List.replicate 14 (1, true)) = some s ∧
      s.pool.residents = ["b"] ∧ ¬s.Deadlocked := by
  have hrun : ((PoolState.initial 1 ![.acquire "a", .acquire "b"]).run?
      (List.replicate 8 (0, true) ++ List.replicate 14 (1, true))).map (·.pool.residents) =
        some ["b"] := by
    decide +kernel
  obtain ⟨s, hs, hresidents⟩ := Option.map_eq_some_iff.mp hrun
  exact ⟨s, hs, hresidents, pool_calls_never_deadlock 1 _ _ (by decide +kernel) hs⟩

/-- Tenants `z` and `y` are resident in a pool for two. An `acquire` of `x` starts to evict them,
and while it closes the runtime of `z`, the runtime of `y` is revoked and acquired again. -/
theorem revoked_tenant_deadlocks_eviction :
    ¬∀ (n maxResidentTenants : Nat) (ops : Fin n → PoolOp) (trace : List (Fin n × Bool))
      (s : PoolState n),
      (PoolState.initial maxResidentTenants ops).run? trace = some s → ¬s.Deadlocked := by
  intro h
  let ops : Fin 5 → PoolOp :=
    ![.acquire "z", .acquire "y", .acquire "x", .revoke "y", .acquire "y"]
  let trace : List (Fin 5 × Bool) :=
    List.replicate 8 (0, true) ++ List.replicate 8 (1, true) ++ List.replicate 8 (2, true) ++
      List.replicate 7 (3, true) ++ List.replicate 4 (4, true) ++ List.replicate 5 (2, true)
  have hrun : ((PoolState.initial 2 ops).run? trace).map (fun s =>
      ((s.calls 2).waits, (s.calls 4).waits, s.pool.owner (.tenant 5), s.pool.owner .capacity)) =
        some (some (.tenant 5), some .capacity, some 4, some 2) := by
    decide +kernel
  obtain ⟨s, hs, hfound⟩ := Option.map_eq_some_iff.mp hrun
  simp only [Prod.mk.injEq] at hfound
  obtain ⟨hwaits, hwaits', howner, howner'⟩ := hfound
  refine h 5 2 ops trace s hs ⟨{2, 4}, by simp, ?_⟩
  intro i hi
  obtain rfl | rfl : i = 2 ∨ i = 4 := by simpa using hi
  · exact ⟨4, by simp, by decide, .tenant 5, hwaits, howner⟩
  · exact ⟨2, by simp, by decide, .capacity, hwaits', howner'⟩

end MultiClaw
