import MultiClaw.Workflow.Steps

/-! What each repository operation returns and writes. -/
namespace MultiClaw

open Base Transaction WorkflowRepository

variable {env : Env} {db : Db} {context : TenantContext} {lease : RunLease} {r : RunRow}
  {owner : String}

theorem Db.getRun_scope (h : db.getRun context = some r) :
    r ∈ db.runs.rows ∧ contextPredicate context r.scope = true :=
  Table.mem_of_find? h

theorem run_eq_of_scope {a b : RunRow} (ha : a ∈ db.runs.rows) (hb : b ∈ db.runs.rows)
    (h : a.scope.runId = b.scope.runId) : a = b :=
  Table.eq_of_shared_key ha hb (by simp [RunRow.keys, h] : b.scope.runId ∈ a.keys)
    (by simp [RunRow.keys])

theorem getRun_eq_some (hr : r ∈ db.runs.rows) (hctx : contextPredicate context r.scope = true) :
    db.getRun context = some r := by
  refine Table.find?_eq_some_of_mem hr hctx ?_
  intro a _ ha
  have hs := scope_eq_of_contextPredicate ha hctx
  exact ⟨a.scope.runId, by simp [RunRow.keys], by simp [RunRow.keys, hs]⟩

/-- A where-clause within one context finds the row of that context, or nothing. -/
theorem find?_runs {p : RunRow → Bool}
    (hp : ∀ r, p r = true → contextPredicate context r.scope = true) :
    db.runs.find? p = (db.getRun context).filter p := by
  cases h : db.runs.find? p with
  | some r =>
    obtain ⟨hr, hpr⟩ := Table.mem_of_find? h
    rw [getRun_eq_some hr (hp r hpr), Option.filter_some, if_pos hpr]
  | none =>
    cases hrun : db.getRun context with
    | none => rfl
    | some r =>
      rw [Option.filter_some, if_neg (Table.find?_eq_none.mp h r (Db.getRun_scope hrun).1)]

theorem currentRun_eq_filter (lease : RunLease) (now : Nat) : db.currentRun lease now =
    (db.getRun lease.context).filter (currentLeasePredicate lease now) :=
  find?_runs fun _ h => (currentLeasePredicate_iff.mp h).1

/-- Replacing the row of a context is visible to a lookup in that context. -/
theorem getRun_replace {r' : RunRow} {h : r'.keys = r.keys} (hr : db.getRun context = some r)
    (hscope : r'.scope = r.scope) :
    Db.getRun { db with runs := db.runs.replace r r' h } context = some r' := by
  unfold Db.getRun at hr ⊢
  rw [Table.find?_replace, hr]
  · simp
  · intro a ha hka
    obtain ⟨hmem, _⟩ := Table.mem_of_find? hr
    have : a = r := run_eq_of_scope ha hmem (List.singleton_inj.mp hka)
    rw [this, hscope]

theorem requireLease_run {t v : Nat} (hrun : db.getRun context = some r)
    (howner : r.leaseOwner = some owner) (ht : r.fencingToken = t) (hv : r.version = v)
    (hx : r.leaseExpiresAt ≠ none) :
    (requireLease context owner t v).run env db = .ok (r.lease context, db) := by
  obtain ⟨x, hx⟩ := Option.ne_none_iff_exists'.mp hx
  have hfind : (db.runs.find? fun r => contextPredicate context r.scope &&
      r.leaseOwner == some owner && r.fencingToken == t && r.version == v) = some r := by
    obtain ⟨hr, hctx⟩ := Db.getRun_scope hrun
    have hp : ∀ r : RunRow, (contextPredicate context r.scope && r.leaseOwner == some owner &&
        r.fencingToken == t && r.version == v) = true →
        contextPredicate context r.scope = true := by
      simp +contextual
    rw [find?_runs hp, hrun]
    simp [hctx, howner, ht, hv]
  simp [requireLease, run_bind, hfind, hx, RunRow.lease, howner, ht, hv]

/-! Runs -/

section UpdateRunLease

variable {p : RunRow → Bool} {f : RunRow → RunRow} {hf : ∀ r, (f r).keys = r.keys} {t v : Nat}

/-- A conditional update of a run that the where-clause does not select writes nothing. -/
theorem updateRunLease_of_none (hnone : db.runs.find? p = none) :
    (updateRunLease p f hf context owner t v).run env db = .ok (none, db) := by
  have hno := Table.find?_eq_none.mp hnone
  have hcount : db.runs.count p = 0 := List.countP_eq_zero.mpr hno
  simp [updateRunLease, updateRuns, run_bind, hcount, Table.update_eq_self hno]

/-- A conditional update rewrites the run that its where-clause selects and returns the lease on
the new row. -/
theorem updateRunLease_run (hp : ∀ r, p r = true → contextPredicate context r.scope = true)
    (hrun : db.getRun context = some r) (hscope : (f r).scope = r.scope)
    (hlease : p r = true → (f r).leaseOwner = some owner ∧ (f r).fencingToken = t ∧
      (f r).version = v ∧ (f r).leaseExpiresAt ≠ none) :
    (updateRunLease p f hf context owner t v).run env db =
      if p r then .ok (some ((f r).lease context),
        { db with runs := db.runs.replace r (f r) (hf r) })
      else .ok (none, db) := by
  by_cases hpr : p r = true
  · rw [if_pos hpr]
    obtain ⟨hr, hctx⟩ := Db.getRun_scope hrun
    obtain ⟨hnone, -, -⟩ | ⟨r', hr', hpr', -, hcount, hupd⟩ := Table.update_cases hf (pins_runs hp)
    · exact absurd hpr (Table.find?_eq_none.mp hnone r hr)
    · have heq : r' = r := Table.eq_of_pins (pins_runs hp) hr' hr hpr' hpr
      subst heq
      obtain ⟨ho, ht, hv, hx⟩ := hlease hpr
      have hreq : (requireLease context owner t v).run env
          { db with runs := db.runs.replace r' (f r') (hf r') } = _ :=
        requireLease_run (getRun_replace hrun hscope) ho ht hv hx
      simp [updateRunLease, updateRuns, run_bind, run_map, hcount, hupd, hreq]
  · rw [if_neg hpr]
    apply updateRunLease_of_none
    rw [find?_runs hp, hrun, Option.filter_some, if_neg hpr]

end UpdateRunLease

theorem takeOverRun_run : (takeOverRun context owner).run env db =
    match db.getRun context with
    | none => .ok (none, db)
    | some r =>
      if r.status.isTerminal then
        .error (.invalidTransition ("cannot acquire terminal run: " ++ r.status.value))
      else if r.leaseExpiresAt.any (· ≤ env.now) then
        .ok (some ((r.grant env owner).lease context),
          { db with runs := db.runs.replace r (r.grant env owner) (r.grant_keys env owner) })
      else .ok (none, db) := by
  cases hrun : db.getRun context with
  | none => simp [takeOverRun, run_bind, hrun]
  | some r =>
    obtain ⟨_, hctx⟩ := Db.getRun_scope hrun
    by_cases hterm : r.status.isTerminal = true
    · simp [takeOverRun, run_bind, hrun, hterm]
    · cases hx : r.leaseExpiresAt with
      | none => simp [takeOverRun, run_bind, hrun, hterm, hx]
      | some x =>
        simp only [takeOverRun, run_bind, run_ask, run_get, hrun, hterm, hx, reduceCtorEq,
          Bool.false_eq_true, if_false]
        rw [updateRunLease_run (by simp +contextual) hrun rfl (by simp [RunRow.grant])]
        simp [hctx, hx]

theorem resumeWaitingRun_run : (resumeWaitingRun context owner).run env db =
    match db.getRun context with
    | none => .ok (none, db)
    | some r =>
      if r.status = .awaitingUser then
        .ok (some ((r.resume env owner).lease context),
          { db with runs := db.runs.replace r (r.resume env owner) (r.resume_keys env owner) })
      else .ok (none, db) := by
  cases hrun : db.getRun context with
  | none => simp [resumeWaitingRun, run_bind, hrun]
  | some r =>
    obtain ⟨_, hctx⟩ := Db.getRun_scope hrun
    by_cases hwait : r.status = .awaitingUser
    · simp only [resumeWaitingRun, run_bind, run_ask, run_get, hrun, hwait, ne_eq,
        not_true_eq_false, if_false]
      rw [updateRunLease_run (by simp +contextual) hrun rfl (by simp [RunRow.resume, RunRow.grant])]
      simp [hctx, hwait]
    · simp [resumeWaitingRun, run_bind, hrun, hwait]

/-- A row that a new owner has just taken carries that owner's lease, with the next token. -/
def GrantedTo (owner : String) (r r' : RunRow) : Prop :=
  r'.scope = r.scope ∧ r'.leaseOwner = some owner ∧ r'.fencingToken = r.fencingToken + 1 ∧
    r'.version = r.version + 1 ∧ r'.leaseExpiresAt ≠ none

theorem updateWaitingPlanRun_run {planId : String} {planVersion expected : Nat}
    {digest : Option String} {write : RunRow → Env → RunRow}
    {hwrite : ∀ r env, (write r env).keys = r.keys}
    (hgrant : ∀ r, GrantedTo owner r (write r env)) :
    (updateWaitingPlanRun context owner planId planVersion expected digest write hwrite).run env
        db =
      match db.getRun context with
      | none => .ok (none, db)
      | some r =>
        if r.status = .awaitingUser ∧ r.plan.any (·.planId == planId) = true ∧
            r.version = expected ∧
            db.planVersionExists context planId planVersion digest = true then
          .ok (some ((write r env).lease context),
            { db with runs := db.runs.replace r (write r env) (hwrite r env) })
        else .ok (none, db) := by
  cases hrun : db.getRun context with
  | none => simp [updateWaitingPlanRun, run_bind, hrun]
  | some r =>
    obtain ⟨_, hctx⟩ := Db.getRun_scope hrun
    obtain ⟨hscope, hlease⟩ := hgrant r
    by_cases hguard : r.status = .awaitingUser ∧ r.plan.any (·.planId == planId) = true ∧
      r.version = expected ∧ db.planVersionExists context planId planVersion digest = true
    · obtain ⟨hwait, hbound, hversion, hexists⟩ := hguard
      simp only [updateWaitingPlanRun, run_bind, run_ask, run_get, hrun]
      rw [if_neg (by simp [hwait, hbound, hversion, hexists]),
        updateRunLease_run (by simp +contextual) hrun hscope (fun _ => hlease)]
      simp [hctx, hwait, hbound, hversion, hexists]
    · simp only [updateWaitingPlanRun, run_bind, run_ask, run_get, hrun]
      rw [if_pos, if_neg hguard, run_pure]
      by_contra hno
      simp only [not_or, not_not, Bool.not_eq_false] at hno
      exact hguard ⟨hno.1, hno.2.1, hno.2.2.1, hno.2.2.2⟩

theorem requestCancellation_run : (requestCancellation context).run env db =
    match db.getRun context with
    | none => .ok (none, db)
    | some r =>
      if r.status.isTerminal ∨ r.cancelRequestedAt ≠ none then .ok (some r, db)
      else .ok (some (r.cancelRequest env),
          { db with
            runs := db.runs.replace r (r.cancelRequest env) (r.cancelRequest_keys env) }) := by
  cases hrun : db.getRun context with
  | none => simp [requestCancellation, run_bind, hrun]
  | some r =>
    obtain ⟨hr, hctx⟩ := Db.getRun_scope hrun
    by_cases hdone : r.status.isTerminal = true ∨ r.cancelRequestedAt ≠ none
    · simp only [requestCancellation, run_bind, run_ask, run_get, hrun, if_pos hdone, run_pure]
    · simp only [requestCancellation, updateRuns, run_bind, run_ask, run_get, run_set, run_pure,
        hrun, if_neg hdone]
      have hp : ∀ a : RunRow, (contextPredicate context a.scope && a.version == r.version &&
          a.status == r.status) = true → contextPredicate context a.scope = true := by
        simp +contextual
      have hsel : (contextPredicate context r.scope && r.version == r.version &&
          r.status == r.status) = true := by
        simp [hctx]
      rw [Table.update_eq_replace (pins_runs hp) hr hsel,
        getRun_replace hrun (r.cancelRequest_scope env)]

theorem refreshLease_run : (refreshLease lease).run env db =
    match db.currentRun lease env.now with
    | none => .ok (none, db)
    | some r => .ok (some ((r.refresh env).lease lease.context),
        { db with runs := db.runs.replace r (r.refresh env) (r.refresh_keys env) }) := by
  simp only [refreshLease, run_bind, run_ask]
  cases hcur : db.currentRun lease env.now with
  | none => exact updateRunLease_of_none hcur
  | some r =>
    obtain ⟨hr, hlease⟩ := currentRun_eq_some hcur
    obtain ⟨hctx, howner, htoken, hversion, _⟩ := currentLeasePredicate_iff.mp hlease
    rw [updateRunLease_run (fun _ h => (currentLeasePredicate_iff.mp h).1)
      (getRun_eq_some hr hctx) rfl, if_pos hlease]
    simp [RunRow.refresh, howner, htoken, hversion]

theorem transitionRun_of_current {target : RunStatus}
    (hcur : db.currentRun lease env.now = some r) :
    (WorkflowRepository.transitionRun lease target).run env db =
      if target ∈ r.status.legalTargets then
        .ok (some ((r.moveTo env target).lease lease.context),
          { db with runs := db.runs.replace r (r.moveTo env target) (r.moveTo_keys env target) })
      else .error (illegalRunTransition r.status target) := by
  obtain ⟨hr, hlease⟩ := currentRun_eq_some hcur
  obtain ⟨hctx, howner, htoken, hversion, _⟩ := currentLeasePredicate_iff.mp hlease
  have hrun : db.getRun lease.context = some r := getRun_eq_some hr hctx
  by_cases hlegal : target ∈ r.status.legalTargets
  · have hvalid : validateRunTransition r lease target = .ok () := by
      simp [validateRunTransition, howner, htoken, hversion, hlegal]
    simp only [WorkflowRepository.transitionRun, run_bind, run_ask, run_get, hrun, hvalid,
      run_ofExcept_ok, if_pos hlegal]
    rw [updateRunLease_run (fun _ h => (currentLeasePredicate_iff.mp h).1) hrun rfl, if_pos hlease]
    simp [RunRow.moveTo, howner, htoken, hversion]
  · have hvalid : validateRunTransition r lease target =
        .error (illegalRunTransition r.status target) := by
      simp [validateRunTransition, howner, htoken, hversion, hlegal]
    simp [WorkflowRepository.transitionRun, run_bind, hrun, hvalid, hlegal]

theorem transitionRun_of_stale {target : RunStatus} (hcur : db.currentRun lease env.now = none) :
    (∃ e, (WorkflowRepository.transitionRun lease target).run env db = .error e) ∨
      (WorkflowRepository.transitionRun lease target).run env db = .ok (none, db) := by
  cases hrun : db.getRun lease.context with
  | none => simp [WorkflowRepository.transitionRun, run_bind, hrun]
  | some r =>
    cases hvalid : validateRunTransition r lease target with
    | error e => simp [WorkflowRepository.transitionRun, run_bind, hrun, hvalid]
    | ok =>
      right
      simp only [WorkflowRepository.transitionRun, run_bind, run_ask, run_get, hrun, hvalid,
        run_ofExcept_ok]
      exact updateRunLease_of_none hcur

/-! Executions -/

variable {e e' : ExecutionRow} {executionId : String}

theorem getExecution_mem (h : db.getExecution context executionId = some e) :
    e ∈ db.executions.rows ∧ contextPredicate context e.scope = true ∧
      e.executionId = executionId := by
  obtain ⟨he, hp⟩ := Table.mem_of_find? h
  simpa [he] using hp

theorem getExecution_eq_some (he : e ∈ db.executions.rows)
    (hctx : contextPredicate context e.scope = true) :
    db.getExecution context e.executionId = some e := by
  refine Table.find?_eq_some_of_mem he (by simp [hctx]) ?_
  intro a _ ha
  have hid : a.executionId = e.executionId := by simp at ha; exact ha.2
  exact ⟨.id e.executionId, by simp [ExecutionRow.keys, hid], by simp [ExecutionRow.keys]⟩

theorem getExecution_replace {h : e'.keys = e.keys}
    (he : db.getExecution context executionId = some e) :
    Db.getExecution { db with executions := db.executions.replace e e' h } context executionId =
      some e' := by
  obtain ⟨hmem, _, _⟩ := getExecution_mem he
  unfold Db.getExecution at he ⊢
  rw [Table.find?_replace, he]
  · simp
  · intro a ha hka
    have : a = e := Table.eq_of_shared_key ha hmem (k := .id e.executionId)
      (by rw [hka]; simp [ExecutionRow.keys]) (by simp [ExecutionRow.keys])
    simp only [ExecutionRow.keys, List.cons.injEq, RowKey.id.injEq, RowKey.toolCall.injEq] at h
    rw [this, h.1, h.2.1.1]

section UpdateExecution

variable {p : ExecutionRow → Bool} {f : ExecutionRow → ExecutionRow}
  {hf : ∀ e, (f e).keys = e.keys}

theorem updateExecution_of_none (hnone : db.executions.find? p = none) :
    (updateExecution p f hf context executionId).run env db = .ok (none, db) := by
  have hno := Table.find?_eq_none.mp hnone
  have hcount : db.executions.count p = 0 := List.countP_eq_zero.mpr hno
  simp [updateExecution, updateExecutions, run_bind, hcount, Table.update_eq_self hno]

theorem updateExecution_run (hp : ∀ e, p e = true →
      contextPredicate context e.scope = true ∧ e.executionId = executionId) :
    (updateExecution p f hf context executionId).run env db =
      match (db.getExecution context executionId).filter p with
      | none => .ok (none, db)
      | some e => .ok (some (f e),
          { db with executions := db.executions.replace e (f e) (hf e) }) := by
  have hpins : db.executions.Pins p := pins_executions fun e h => (hp e h).2
  obtain ⟨hnone, -, -⟩ | ⟨e, he, hpe, hfind, hcount, hupd⟩ := Table.update_cases hf hpins
  · rw [updateExecution_of_none hnone]
    cases hget : db.getExecution context executionId with
    | none => rfl
    | some e =>
      have hno := Table.find?_eq_none.mp hnone e (getExecution_mem hget).1
      simp [Option.filter_some, hno]
  · obtain ⟨hctx, hid⟩ := hp e hpe
    have hget : db.getExecution context executionId = some e := hid ▸ getExecution_eq_some he hctx
    have hafter : Db.getExecution
        { db with executions := db.executions.replace e (f e) (hf e) } context executionId = _ :=
      getExecution_replace hget
    simp [updateExecution, updateExecutions, run_bind, hcount, hupd, hafter, hget,
      Option.filter_some, hpe]

end UpdateExecution

section ExecutionWrites

variable {expected target : ExecutionStatus} {version : Nat} {metadata : ExecutionMetadata}

theorem transitionExecution_of_stale (hcur : db.currentRun lease env.now = none) :
    (WorkflowRepository.transitionExecution lease executionId expected version target).run env db =
      if target ∈ expected.legalTargets then .ok (none, db)
      else .error (illegalExecutionTransition expected target) := by
  by_cases hlegal : target ∈ expected.legalTargets <;>
    simp [WorkflowRepository.transitionExecution, run_bind, hcur, hlegal]

theorem transitionExecution_of_current (hcur : db.currentRun lease env.now = some r)
    (hlegal : target ∈ expected.legalTargets) :
    (WorkflowRepository.transitionExecution lease executionId expected version target).run env db =
      match (db.getExecution lease.context executionId).filter
        fun e => e.status == expected && e.version == version with
      | none => .ok (none, db)
      | some e => .ok (some (e.moveTo env target),
          { db with
            executions := db.executions.replace e (e.moveTo env target)
              (e.moveTo_keys env target) }) := by
  simp only [WorkflowRepository.transitionExecution, hlegal, not_true_eq_false, if_false, run_bind,
    run_ask, run_get, hcur]
  rw [updateExecution_run (by simp +contextual)]
  cases hget : db.getExecution lease.context executionId with
  | none => rfl
  | some e =>
    obtain ⟨_, hctx, hid⟩ := getExecution_mem hget
    simp [Option.filter_some, hctx, hid]

theorem updateExecutionMetadata_of_stale (hcur : db.currentRun lease env.now = none) :
    (WorkflowRepository.updateExecutionMetadata lease executionId expected version metadata).run
      env db = .ok (none, db) := by
  simp [WorkflowRepository.updateExecutionMetadata, run_bind, hcur]

/-- The columns of a row can take the metadata. -/
def ExecutionMetadata.fits (metadata : ExecutionMetadata) (e : ExecutionRow) : Bool :=
  writable e.externalRequestId metadata.externalRequestId &&
    writable e.resultRef metadata.resultRef && writable e.resultDigest metadata.resultDigest

theorem updateExecutionMetadata_of_current (hcur : db.currentRun lease env.now = some r) :
    (WorkflowRepository.updateExecutionMetadata lease executionId expected version metadata).run
        env db =
      match metadata.targetStatus.filter (· ∉ expected.legalTargets) with
      | some target => .error (illegalExecutionTransition expected target)
      | none =>
        match (db.getExecution lease.context executionId).filter
          fun e => e.status == expected && e.version == version && metadata.fits e with
        | none => .ok (none, db)
        | some e => .ok (some (e.fill env metadata),
            { db with
              executions := db.executions.replace e (e.fill env metadata)
                (e.fill_keys env metadata) }) := by
  simp only [WorkflowRepository.updateExecutionMetadata, run_bind, run_ask, run_get, hcur]
  cases metadata.targetStatus.filter (· ∉ expected.legalTargets) with
  | some target => rfl
  | none =>
    simp only
    rw [updateExecution_run (by simp +contextual)]
    cases hget : db.getExecution lease.context executionId with
    | none => rfl
    | some e =>
      obtain ⟨_, hctx, hid⟩ := getExecution_mem hget
      simp [Option.filter_some, hctx, hid, ExecutionMetadata.fits, and_assoc]

theorem insertExecution_of_stale {budget : Option Int} {new : NewExecution}
    (hcur : db.currentRun lease env.now = none) :
    (insertExecution budget lease new).run env db = .ok (none, db) := by
  simp [insertExecution, run_bind, hcur]

theorem insertExecution_of_current {budget : Option Int} {new : NewExecution}
    (hcur : db.currentRun lease env.now = some r) :
    (insertExecution budget lease new).run env db =
      if r.plan.isSome ∧ budget.any fun n => n ≤ (roundsCharged db r.scope : Int) then
        .error (.planRoundBudgetExceeded "Plan round budget exceeded")
      else if db.executions.any fun e => e.scope == r.scope && !e.status.isTerminal then
        .ok (none, db)
      else if new.approvalId.all fun id => (db.getApproval lease.context id).isSome then
        match db.executions.insert? (new.row r.scope env.now) with
        | none => .error .integrity
        | some executions => .ok (some (new.row r.scope env.now), { db with executions })
      else .error .integrity := by
  simp only [insertExecution, run_bind, run_ask, run_get, hcur]
  split_ifs
  · rfl
  · rfl
  · cases db.executions.insert? (new.row r.scope env.now) <;> rfl
  · rfl

end ExecutionWrites

/-! Approvals and checkpoints -/

theorem insertApproval_of_stale {approvalId toolCallId : String} {expiresAt : Nat}
    (hcur : db.currentRun lease env.now = none) :
    (insertApproval lease approvalId toolCallId expiresAt).run env db = .ok (none, db) := by
  simp [insertApproval, run_bind, hcur]

theorem insertApproval_of_current {approvalId toolCallId : String} {expiresAt : Nat}
    (hcur : db.currentRun lease env.now = some r) :
    (insertApproval lease approvalId toolCallId expiresAt).run env db =
      match db.approvals.insert?
        ⟨approvalId, r.scope, toolCallId, .awaitingUser, env.now, none, expiresAt, 1⟩ with
      | none => .error .integrity
      | some approvals => .ok
          (some ⟨approvalId, r.scope, toolCallId, .awaitingUser, env.now, none, expiresAt, 1⟩,
            { db with approvals }) := by
  simp only [insertApproval, run_bind, run_ask, run_get, hcur]
  split <;> simp_all [run_bind]

theorem insertCheckpoint_of_stale {new : NewCheckpoint}
    (hcur : db.currentRun lease env.now = none) :
    (insertCheckpoint lease new).run env db = .ok (none, db) := by
  simp [insertCheckpoint, run_bind, hcur]

theorem insertCheckpoint_of_current {new : NewCheckpoint}
    (hcur : db.currentRun lease env.now = some r) :
    (insertCheckpoint lease new).run env db =
      match checkpointConflict db lease.context new with
      | some conflict => .error conflict
      | none =>
        if new.approvalId.all fun id => (db.getApproval lease.context id).isSome then
          match db.checkpoints.insert?
            (new.row r.scope (db.getNextCheckpointSeq lease.context) env.now) with
          | none => .error .integrity
          | some checkpoints => .ok
              (some (new.checkpointSeq.getD (db.getNextCheckpointSeq lease.context)),
                { db with checkpoints })
        else .error .integrity := by
  simp only [insertCheckpoint, run_bind, run_ask, run_get, hcur]
  cases checkpointConflict db lease.context new with
  | some conflict => rfl
  | none =>
    simp only
    split_ifs
    · cases db.checkpoints.insert?
        (new.row r.scope (db.getNextCheckpointSeq lease.context) env.now) <;> rfl
    · rfl

end MultiClaw
