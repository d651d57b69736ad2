import MultiClaw.Workflow.System

/-! Fencing: versions and tokens grow, and a lease that is not on the row changes nothing. -/
namespace MultiClaw

open Base Transaction Relation WorkflowRepository

variable {env : Env} {db db' : Db} {context : TenantContext} {lease : RunLease} {r r' : RunRow}
  {owner : String} {may : Effect → Prop}

/-- A later row of the same run: the same row or a newer version, whose fencing token has not
fallen, and has grown if the owner is another one. -/
structure RunRow.Follows (r' r : RunRow) : Prop where
  scope : r'.scope = r.scope
  version : r' = r ∨ r.version < r'.version
  token : r.fencingToken ≤ r'.fencingToken
  owner : r'.leaseOwner ≠ r.leaseOwner → r.fencingToken < r'.fencingToken

theorem RunRow.Follows.refl (r : RunRow) : r.Follows r :=
  ⟨rfl, .inl rfl, le_rfl, fun h => absurd rfl h⟩

theorem RunRow.Follows.trans {r'' : RunRow} (h : r'.Follows r) (h' : r''.Follows r') :
    r''.Follows r where
  scope := h'.scope.trans h.scope
  version := by
    rcases h.version with rfl | hv
    · exact h'.version
    · rcases h'.version with rfl | hv'
      · exact .inr hv
      · exact .inr (hv.trans hv')
  token := h.token.trans h'.token
  owner := by
    intro hne
    have ht := h.token
    have ht' := h'.token
    by_cases howner : r'.leaseOwner = r.leaseOwner
    · have := h'.owner (howner ▸ hne)
      omega
    · have := h.owner howner
      omega

theorem RunChange.follows (h : RunChange env r r') : r'.Follows r := by
  have hscope := h.scope_eq
  cases h with
  | cancelRequest =>
    unfold RunRow.cancelRequest at *
    split <;> exact ⟨rfl, .inr (Nat.lt_succ_self _), le_rfl, fun h => absurd rfl h⟩
  | refresh => exact ⟨hscope, .inr (Nat.lt_succ_self _), le_rfl, fun h => absurd rfl h⟩
  | transition => exact ⟨hscope, .inr (Nat.lt_succ_self _), le_rfl, fun h => absurd rfl h⟩
  | _ =>
    exact ⟨hscope, .inr (Nat.lt_succ_self _), Nat.le_succ _, fun _ => Nat.lt_succ_self _⟩

/-- No step removes a run or turns its row back. -/
theorem Step.follows (h : Step may env db db') (hr : r ∈ db.runs.rows) :
    ∃ r' ∈ db'.runs.rows, r'.Follows r := by
  cases h with
  | insertRun row runs _ _ _ _ _ hinsert =>
    exact ⟨r, (Table.mem_insert? hinsert).mpr (.inl hr), .refl r⟩
  | changeRun a a' ha hchange =>
    by_cases hra : r = a
    · subst hra
      exact ⟨a', (Table.mem_replace_iff hchange.keys_eq hr (by simp [RunRow.keys])).mpr (.inl rfl),
        hchange.follows⟩
    · exact ⟨r, (Table.mem_replace_iff hchange.keys_eq ha (by simp [RunRow.keys])).mpr
        (.inr ⟨hr, hra⟩), .refl r⟩
  | _ => exact ⟨r, hr, .refl r⟩

theorem steps_follows (h : ReflTransGen (Step may env) db db') (hr : r ∈ db.runs.rows) :
    ∃ r' ∈ db'.runs.rows, r'.Follows r := by
  induction h with
  | refl => exact ⟨r, hr, .refl r⟩
  | tail _ hstep ih =>
    obtain ⟨r₁, hr₁, h₁⟩ := ih
    obtain ⟨r₂, hr₂, h₂⟩ := hstep.follows hr₁
    exact ⟨r₂, hr₂, h₁.trans h₂⟩

theorem runAll_follows (calls : List Call) (hr : r ∈ db.runs.rows) :
    ∃ r' ∈ (Call.runAll db calls).runs.rows, r'.Follows r := by
  induction calls generalizing db r with
  | nil => exact ⟨r, hr, .refl r⟩
  | cons call calls ih =>
    obtain ⟨r₁, hr₁, h₁⟩ := steps_follows (call.step_writes db) hr
    obtain ⟨r₂, hr₂, h₂⟩ := ih hr₁
    exact ⟨r₂, hr₂, h₁.trans h₂⟩

/-! Leases that are not on the row -/

/-- The owner, token or version of the lease is not that of the row it is presented for. -/
def Db.Rejects (db : Db) (lease : RunLease) : Prop :=
  ∀ r, db.getRun lease.context = some r → r.leaseOwner ≠ some lease.leaseOwner ∨
    r.fencingToken ≠ lease.fencingToken ∨ r.version ≠ lease.version

theorem currentRun_of_rejects (h : db.Rejects lease) (now : Nat) :
    db.currentRun lease now = none := by
  rw [currentRun_eq_filter, Option.filter_eq_none_iff]
  intro r hr hlease
  obtain ⟨_, howner, htoken, hversion, _⟩ := currentLeasePredicate_iff.mp hlease
  rcases h r hr with h | h | h
  · exact h howner
  · exact h htoken
  · exact h hversion

section Refused

variable {α : Type} {x : Tx (Option α)} {message : String} {Q : α → Db → Prop}

/-- A lost update surfaces as a stale fence, so that nothing is committed. -/
theorem orStale_refused (hx : Ensures x env db fun o _ => o = none) :
    Ensures (x >>= WorkflowCoordinator.orStale message) env db Q := by
  refine ensures_bind hx fun o db' ho => ?_
  subst ho
  exact ensures_of_error rfl

theorem executionConflict_refused : Ensures (WorkflowCoordinator.executionConflict lease) env db
    Q := by
  unfold WorkflowCoordinator.executionConflict
  simp only [Ensures, run_bind, run_ask, run_get]
  split <;> simp

variable (hcur : db.currentRun lease env.now = none)

include hcur

theorem heartbeat_refused {Q : RunLease → Db → Prop} :
    Ensures (WorkflowCoordinator.heartbeat lease) env db Q := by
  have hnone : (refreshLease lease).run env db = .ok (none, db) := by rw [refreshLease_run, hcur]
  exact orStale_refused (ensures_of_ok hnone rfl)

theorem transitionRun_refused {target : RunStatus} {Q : RunLease → Db → Prop} :
    Ensures (WorkflowCoordinator.transitionRun lease target) env db Q := by
  refine orStale_refused ?_
  obtain ⟨e, herr⟩ | hnone := transitionRun_of_stale hcur
  · exact ensures_of_error herr
  · exact ensures_of_ok hnone rfl

theorem finishRun_refused {target : RunStatus} {Q : RunLease → Db → Prop} :
    Ensures (WorkflowCoordinator.finishRun lease target) env db Q := by
  unfold WorkflowCoordinator.finishRun
  split_ifs
  · exact ensures_of_error rfl
  · refine ensures_get ?_
    split_ifs
    · exact ensures_of_error rfl
    · exact transitionRun_refused hcur

theorem checkpointPayload_refused {payload : CheckpointPayload} {options : CheckpointOptions}
    {Q : Nat → Db → Prop} :
    Ensures (WorkflowCoordinator.checkpointPayload lease payload options) env db Q := by
  refine ensures_ask (ensures_ofExcept fun _ _ => ensures_ofExcept fun _ _ => ?_)
  exact orStale_refused (ensures_of_ok (insertCheckpoint_of_stale hcur) rfl)

theorem transitionExecution_refused {executionId : String} {expected target : ExecutionStatus}
    {version : Nat} {Q : RunLease → Db → Prop} :
    Ensures (WorkflowCoordinator.transitionExecution lease executionId expected version target)
      env db Q := by
  refine ensures_bind (Q := fun o _ => o = none) ?_ fun o db' ho => ?_
  · have hrun : (WorkflowRepository.transitionExecution lease executionId expected version
        target).run env db = _ := transitionExecution_of_stale hcur
    split_ifs at hrun
    · exact ensures_of_ok hrun rfl
    · exact ensures_of_error hrun
  · subst ho
    exact executionConflict_refused

theorem updateExecutionMetadata_refused {executionId : String} {expected : ExecutionStatus}
    {version : Nat} {metadata : ExecutionMetadata} {Q : ExecutionRow → Db → Prop} :
    Ensures (WorkflowCoordinator.updateExecutionMetadata lease executionId expected version
      metadata) env db Q := by
  refine ensures_bind (Q := fun o _ => o = none)
    (ensures_of_ok (updateExecutionMetadata_of_stale hcur) rfl) fun o db' ho => ?_
  subst ho
  exact executionConflict_refused

theorem createExecution_refused {new : NewExecution} :
    Ensures (WorkflowCoordinator.createExecution lease new) env db fun _ db' => db' = db :=
  ensures_ask (ensures_of_ok (insertExecution_of_stale hcur) rfl)

/-- A call whose lease is not current commits nothing. -/
theorem WorkflowOp.tx_refused {op : WorkflowOp} (hlease : op.lease? = some lease) :
    Ensures op.tx env db fun _ db' => db' = db := by
  cases op <;> simp only [WorkflowOp.lease?, reduceCtorEq, Option.some.injEq] at hlease <;>
    subst hlease <;> apply ensures_map
  case heartbeat => exact heartbeat_refused hcur
  case transitionRun => exact transitionRun_refused hcur
  case finishRun => exact finishRun_refused hcur
  case finishRunWithCheckpoint =>
    exact ensures_bind (Q := fun _ _ => False) (finishRun_refused hcur) fun _ _ h => h.elim
  case checkpoint =>
    exact ensures_ofExcept fun _ _ => checkpointPayload_refused hcur
  case createApproval =>
    exact orStale_refused (ensures_of_ok (insertApproval_of_stale hcur) rfl)
  case createExecution => exact createExecution_refused hcur
  case transitionExecution => exact transitionExecution_refused hcur
  case updateExecutionMetadata => exact updateExecutionMetadata_refused hcur

end Refused

/-! Granted leases -/

/-- The lease is the one on the row of its run, expired or not. -/
def Db.Holds (db : Db) (lease : RunLease) : Prop :=
  ∃ r ∈ db.runs.rows, contextPredicate lease.context r.scope = true ∧
    r.leaseOwner = some lease.leaseOwner ∧ r.fencingToken = lease.fencingToken ∧
    r.version = lease.version

theorem requireLease_holds {t v : Nat} :
    Ensures (requireLease context owner t v) env db fun lease db' => db'.Holds lease := by
  intro lease db' h
  simp only [requireLease, run_bind, run_get] at h
  split at h
  · cases h
  · rename_i r hfind
    obtain ⟨hr, hp⟩ := Table.mem_of_find? hfind
    simp only [Bool.and_eq_true, beq_iff_eq] at hp
    split at h <;> cases h
    exact ⟨r, hr, hp.1.1.1, hp.1.1.2, hp.1.2, hp.2⟩

theorem updateRunLease_holds {p : RunRow → Bool} {f : RunRow → RunRow}
    {hf : ∀ r, (f r).keys = r.keys} {t v : Nat} :
    Ensures (updateRunLease p f hf context owner t v) env db
      fun o db' => ∀ lease ∈ o, db'.Holds lease := by
  refine ensures_bind ensures_trivial fun n db' _ => ?_
  split_ifs
  · exact ensures_of_ok rfl (by simp)
  · refine ensures_map fun lease db'' h => ?_
    simpa using requireLease_holds lease db'' h

theorem insertCheckpoint_runs {new : NewCheckpoint} :
    Ensures (insertCheckpoint lease new) env db fun _ db' => db'.runs = db.runs := by
  intro o db' h
  cases hcur : db.currentRun lease env.now with
  | none =>
    rw [insertCheckpoint_of_stale hcur] at h
    cases h
    rfl
  | some r =>
    rw [insertCheckpoint_of_current hcur] at h
    split at h
    · cases h
    · split_ifs at h
      split at h <;> cases h
      rfl

theorem checkpointPayload_runs {payload : CheckpointPayload} {options : CheckpointOptions} :
    Ensures (WorkflowCoordinator.checkpointPayload lease payload options) env db
      fun _ db' => db'.runs = db.runs := by
  refine ensures_ask (ensures_ofExcept fun _ _ => ensures_ofExcept fun _ _ => ?_)
  refine ensures_bind insertCheckpoint_runs fun o db' hruns => ?_
  cases o with
  | none => exact ensures_of_error rfl
  | some seq => exact ensures_of_ok rfl hruns

theorem checkpoint_runs {phase : CheckpointPhase} {data : FieldValues}
    {options : CheckpointOptions} :
    Ensures (WorkflowCoordinator.checkpoint lease phase data options) env db
      fun _ db' => db'.runs = db.runs :=
  ensures_ofExcept fun _ _ => checkpointPayload_runs

theorem Db.Holds.of_runs (h : db.Holds lease) (hruns : db'.runs = db.runs) : db'.Holds lease := by
  unfold Db.Holds at h ⊢
  rw [hruns]
  exact h

/-- After a lease was granted, a checkpoint leaves it in place. -/
theorem holds_after_checkpoint {α : Type} {x : Tx α} (h : db.Holds lease)
    (hx : Ensures x env db fun _ db' => db'.runs = db.runs) :
    Ensures (x >>= fun _ => pure lease) env db fun lease db' => db'.Holds lease :=
  ensures_bind hx fun _ _ hruns => ensures_of_ok rfl (h.of_runs hruns)

theorem orStale_holds {message : String} {o : Option RunLease}
    (ho : ∀ lease ∈ o, db.Holds lease) :
    Ensures (WorkflowCoordinator.orStale message o) env db fun lease db' => db'.Holds lease := by
  cases o with
  | none => exact ensures_of_error rfl
  | some lease => exact ensures_of_ok rfl (ho lease rfl)

theorem createRun_holds {status : RunStatus} {plan : Option PlanBinding} :
    Ensures (createRun context owner status plan) env db fun lease db' => db'.Holds lease := by
  refine ensures_ask (ensures_get ?_)
  split
  · exact ensures_of_error rfl
  · split_ifs
    · split
      · exact ensures_of_error rfl
      · exact ensures_bind ensures_trivial fun _ _ _ => requireLease_holds
    · exact ensures_of_error rfl

theorem takeOverRun_holds :
    Ensures (takeOverRun context owner) env db fun o db' => ∀ lease ∈ o, db'.Holds lease := by
  refine ensures_ask (ensures_get ?_)
  split
  · exact ensures_of_ok rfl (by simp)
  · split_ifs
    · exact ensures_of_error rfl
    · exact ensures_of_ok rfl (by simp)
    · exact updateRunLease_holds

theorem resumeWaitingRun_holds :
    Ensures (resumeWaitingRun context owner) env db fun o db' => ∀ lease ∈ o, db'.Holds lease := by
  refine ensures_ask (ensures_get ?_)
  split
  · exact ensures_of_ok rfl (by simp)
  · split_ifs
    · exact ensures_of_ok rfl (by simp)
    · exact updateRunLease_holds

theorem updateWaitingPlanRun_holds {planId : String} {planVersion expected : Nat}
    {digest : Option String} {write : RunRow → Env → RunRow}
    {hwrite : ∀ r env, (write r env).keys = r.keys} :
    Ensures (updateWaitingPlanRun context owner planId planVersion expected digest write hwrite)
      env db fun o db' => ∀ lease ∈ o, db'.Holds lease := by
  refine ensures_ask (ensures_get ?_)
  split
  · exact ensures_of_ok rfl (by simp)
  · split_ifs
    · exact ensures_of_ok rfl (by simp)
    · exact updateRunLease_holds

theorem transitionRun_holds {target : RunStatus} :
    Ensures (WorkflowCoordinator.transitionRun lease target) env db
      fun lease db' => db'.Holds lease := by
  refine ensures_bind (Q := fun o db' => ∀ lease ∈ o, db'.Holds lease) ?_
    fun _ _ ho => orStale_holds ho
  refine ensures_ask (ensures_get ?_)
  split
  · exact ensures_of_ok rfl (by simp)
  · exact ensures_bind ensures_trivial fun _ _ _ => updateRunLease_holds

theorem finishRun_holds {target : RunStatus} :
    Ensures (WorkflowCoordinator.finishRun lease target) env db
      fun lease db' => db'.Holds lease := by
  unfold WorkflowCoordinator.finishRun
  split_ifs
  · exact ensures_of_error rfl
  · refine ensures_bind ensures_trivial fun _ _ _ => ?_
    split_ifs
    · exact ensures_of_error rfl
    · exact transitionRun_holds

theorem terminalCheckpoint_runs {target : RunStatus} {missing checkpointId : String} :
    Ensures (WorkflowCoordinator.terminalCheckpoint lease target missing checkpointId) env db
      fun _ db' => db'.runs = db.runs := by
  refine ensures_get ?_
  split
  · exact ensures_of_error rfl
  · exact ensures_bind checkpoint_runs fun _ _ h => ensures_of_ok rfl h

/-- A call that returns a lease leaves that lease on the row. -/
theorem WorkflowOp.tx_holds (op : WorkflowOp) :
    Ensures op.tx env db fun o db' => ∀ lease ∈ o, db'.Holds lease := by
  cases op <;> apply ensures_map <;>
    simp only [Option.mem_some_iff, forall_eq', Option.not_mem_none, IsEmpty.forall_iff,
      implies_true]
  case startRun => exact ensures_bind ensures_trivial fun _ _ _ => createRun_holds
  case startRunWithCheckpoint =>
    refine ensures_bind ensures_trivial fun _ _ _ => ensures_bind createRun_holds fun _ _ h => ?_
    refine ensures_get ?_
    split
    · exact ensures_of_error rfl
    · exact holds_after_checkpoint h checkpoint_runs
  case startPlanRunWithCheckpoint =>
    refine ensures_get ?_
    split_ifs
    · refine ensures_bind ensures_trivial fun _ _ _ => ensures_bind createRun_holds fun _ _ h => ?_
      exact ensures_ofExcept fun _ _ => holds_after_checkpoint h checkpointPayload_runs
    · exact ensures_of_error rfl
  case startApprovedPlanRunWithCheckpoint =>
    refine ensures_get ?_
    split_ifs
    · refine ensures_bind ensures_trivial fun _ _ _ => ensures_bind createRun_holds fun _ _ h => ?_
      refine ensures_get ?_
      split
      · exact ensures_of_error rfl
      · exact holds_after_checkpoint h checkpoint_runs
    · exact ensures_of_error rfl
  case acquireRun =>
    refine ensures_bind takeOverRun_holds fun o _ ho => ?_
    cases o with
    | none => exact ensures_of_error rfl
    | some lease => exact ensures_of_ok rfl (ho lease rfl)
  case resumeWaitingRun =>
    refine ensures_bind resumeWaitingRun_holds fun o _ ho => ?_
    cases o with
    | none => exact ensures_of_error rfl
    | some lease => exact ensures_of_ok rfl (ho lease rfl)
  case resumeWaitingPlanRun =>
    exact ensures_bind updateWaitingPlanRun_holds fun _ _ ho => orStale_holds ho
  case fenceWaitingPlanRun =>
    refine ensures_bind updateWaitingPlanRun_holds fun _ _ ho =>
      ensures_bind (orStale_holds ho) fun _ _ h => ?_
    exact ensures_ofExcept fun _ _ => ensures_get (holds_after_checkpoint h checkpointPayload_runs)
  case cancelWaitingPlanRun =>
    refine ensures_bind updateWaitingPlanRun_holds fun _ _ ho =>
      ensures_bind (orStale_holds ho) fun _ _ h => ?_
    exact holds_after_checkpoint h terminalCheckpoint_runs
  case heartbeat =>
    refine ensures_bind (Q := fun o db' => ∀ lease ∈ o, db'.Holds lease) ?_
      fun _ _ ho => orStale_holds ho
    exact ensures_ask updateRunLease_holds
  case transitionRun => exact transitionRun_holds
  case finishRun => exact finishRun_holds
  case finishRunWithCheckpoint =>
    exact ensures_bind finishRun_holds fun _ _ h => holds_after_checkpoint h terminalCheckpoint_runs
  all_goals exact ensures_trivial

theorem Call.granted_holds {call : Call} (h : call.granted db = some lease) :
    (call.step db).Holds lease := by
  unfold Call.granted at h
  unfold Call.step
  unfold Transaction.commit at *
  cases hrun : call.op.tx.run call.env db with
  | error e => simp [hrun] at h
  | ok a =>
    simp only [hrun] at h ⊢
    exact call.op.tx_holds _ _ hrun lease h

/-- A row that follows one on which a lease was granted to another owner has a newer token. -/
theorem token_lt_of_holds {older newer : RunLease} (hfollows : r'.Follows r)
    (holder : r.leaseOwner = some older.leaseOwner ∧ r.fencingToken = older.fencingToken)
    (hnewer : r'.leaseOwner = some newer.leaseOwner ∧ r'.fencingToken = newer.fencingToken)
    (hne : older.leaseOwner ≠ newer.leaseOwner) : older.fencingToken < newer.fencingToken := by
  rw [← holder.2, ← hnewer.2]
  apply hfollows.owner
  rw [holder.1, hnewer.1]
  exact fun h => hne (Option.some.inj h).symm

theorem currentRun_eq_none_of_token (hr : r ∈ db.runs.rows)
    (hctx : contextPredicate lease.context r.scope = true)
    (htoken : lease.fencingToken < r.fencingToken) (now : Nat) :
    db.currentRun lease now = none := by
  apply currentRun_of_rejects
  intro r' hr'
  obtain ⟨hmem, hctx'⟩ := Db.getRun_scope hr'
  have hsame : r' = r :=
    run_eq_of_scope hmem hr (congrArg RunScope.runId (scope_eq_of_contextPredicate hctx' hctx))
  subst hsame
  exact .inr (.inl htoken.ne')

/-- Once a lease of a run was granted to another owner, an older lease is never accepted again. -/
theorem older_lease_refused {first second : Call} {between after : List Call}
    {older newer : RunLease} (hfirst : first.granted db = some older)
    (hsecond : second.granted (Call.runAll (first.step db) between) = some newer)
    (hscope : older.context.scope? = newer.context.scope?)
    (hne : older.leaseOwner ≠ newer.leaseOwner) (now : Nat) :
    (Call.runAll db (first :: between ++ second :: after)).currentRun older now = none := by
  obtain ⟨r₁, hr₁, hctx₁, howner₁, htoken₁, _⟩ := Call.granted_holds hfirst
  obtain ⟨r₂, hr₂, hctx₂, howner₂, htoken₂, _⟩ := Call.granted_holds hsecond
  obtain ⟨r₁', hr₁', hfollows⟩ := runAll_follows (between ++ [second]) hr₁
  have hend : Call.runAll (first.step db) (between ++ [second]) =
      second.step (Call.runAll (first.step db) between) := by
    simp [Call.runAll]
  rw [hend] at hr₁'
  -- both leases were on the row of one run
  have hrow : r₁' = r₂ := by
    refine run_eq_of_scope hr₁' hr₂ ?_
    rw [contextPredicate_iff] at hctx₁ hctx₂
    rw [hfollows.scope, Option.some.inj (hctx₁.symm.trans (hscope.trans hctx₂))]
  subst hrow
  have htoken := token_lt_of_holds hfollows ⟨howner₁, htoken₁⟩ ⟨howner₂, htoken₂⟩ hne
  obtain ⟨r₃, hr₃, hlater⟩ := runAll_follows after hr₂
  have hall : Call.runAll db (first :: between ++ second :: after) =
      Call.runAll (second.step (Call.runAll (first.step db) between)) after := by
    simp [Call.runAll]
  rw [hall]
  refine currentRun_eq_none_of_token hr₃ ?_ ?_ now
  · rw [hlater.scope, contextPredicate_iff, hscope, ← contextPredicate_iff]
    exact hctx₂
  · have := hlater.token
    omega

/-- Fencing safety of every interleaving of the workflow operations. -/
theorem fencing_safety (db : Db) :
    (∀ (calls : List Call) (call : Call), ∀ r ∈ (Call.runAll db calls).runs.rows,
      ∃ r' ∈ (call.step (Call.runAll db calls)).runs.rows, r'.scope = r.scope ∧
        (r' ≠ r → r.version < r'.version) ∧
        (r'.leaseOwner ≠ r.leaseOwner → r.fencingToken < r'.fencingToken)) ∧
    (∀ (calls : List Call) (call : Call) (lease : RunLease), call.op.lease? = some lease →
      (Call.runAll db calls).Rejects lease →
      SameWorkflow (Call.runAll db calls) (call.step (Call.runAll db calls))) ∧
    ∀ (first second : Call) (before between after : List Call) (older newer : RunLease),
      first.granted (Call.runAll db before) = some older →
      second.granted (Call.runAll db (before ++ first :: between)) = some newer →
      older.context.scope? = newer.context.scope? → older.leaseOwner ≠ newer.leaseOwner →
      ∀ now, (Call.runAll db (before ++ first :: between ++ second :: after)).currentRun older
        now = none := by
  refine ⟨?_, ?_, ?_⟩
  · intro calls call r hr
    obtain ⟨r', hr', hfollows⟩ := steps_follows (call.step_writes _) hr
    exact ⟨r', hr', hfollows.scope, hfollows.version.resolve_left, hfollows.owner⟩
  · intro calls call lease hlease hrejects
    have hsame : call.step (Call.runAll db calls) = Call.runAll db calls :=
      commit_of_ensures (WorkflowOp.tx_refused (currentRun_of_rejects hrejects _) hlease)
    rw [hsame]
    exact ⟨rfl, rfl, rfl, rfl⟩
  · intro first second before between after older newer hfirst hsecond hscope hne now
    have hsplit : ∀ calls, Call.runAll db (before ++ calls) =
        Call.runAll (Call.runAll db before) calls := fun calls => by
      simp [Call.runAll]
    rw [hsplit] at hsecond
    rw [List.append_assoc, hsplit]
    exact older_lease_refused hfirst hsecond hscope hne now

/-- A second process takes over after the lease of the first one ran out. -/
theorem fencing_safety_takeOver :
    let context : TenantContext :=
      { tenantId := "t", workspaceId := "w", sessionId := some "s", runId := some "r" }
    let first : Call := ⟨{ settings := {}, host := .ascii, now := 0 }, .startRun context "a"⟩
    let second : Call :=
      ⟨{ settings := {}, host := .ascii, now := 20000 }, .acquireRun context "b"⟩
    first.granted .empty = some ⟨context, "a", 1, 1, 20000⟩ ∧
      second.granted (Call.runAll .empty [first]) = some ⟨context, "b", 2, 2, 40000⟩ ∧
      (Call.runAll .empty [first, second]).currentRun ⟨context, "a", 1, 1, 20000⟩ 20001 =
        none := by
  intro context first second
  have hfirst : first.granted .empty = some ⟨context, "a", 1, 1, 20000⟩ := by decide
  have hsecond : second.granted (Call.runAll .empty [first]) =
      some ⟨context, "b", 2, 2, 40000⟩ := by decide
  exact ⟨hfirst, hsecond, (fencing_safety .empty).2.2 first second [] [] [] _ _ hfirst hsecond rfl
    (by decide) 20001⟩

end MultiClaw
