import MultiClaw.Storage.WorkflowSpec

/-! Every operation of the repository and the coordinator is a sequence of steps. -/
namespace MultiClaw

open Base Transaction Relation

variable {env : Env} {db db' : Db} {context : TenantContext} {lease : RunLease} {r : RunRow}
  {owner : String} {may : Effect → Prop}

namespace WorkflowRepository

theorem currentRun_lease (h : db.currentRun lease env.now = some r) :
    r ∈ db.runs.rows ∧ contextPredicate lease.context r.scope = true ∧
      r.leaseExpiresAt.any (env.now < ·) = true := by
  obtain ⟨hr, hlease⟩ := currentRun_eq_some h
  obtain ⟨hctx, -, -, -, hlive⟩ := currentLeasePredicate_iff.mp hlease
  exact ⟨hr, hctx, hlive⟩

theorem requireLease_writes {t v : Nat} : Writes may (requireLease context owner t v) := by
  intro env db a db' h
  simp only [requireLease, run_bind, run_get] at h
  split at h
  · cases h
  · split at h <;> cases h
    exact .refl

theorem createRun_writes {status : RunStatus} {plan : Option PlanBinding}
    (hlive : status.isTerminal = false)
    (hmay : ∀ scope, contextPredicate context scope = true → may (.newRun scope plan)) :
    Writes may (createRun context owner status plan) := by
  intro env db a db' h
  simp only [createRun, run_bind, run_ask, run_get] at h
  split at h
  · cases h
  · rename_i scope hscope
    split at h
    · split at h
      · cases h
      · rename_i hinsert
        obtain ⟨_, _, hset, hreq⟩ := run_bind_eq_ok.mp h
        cases hset
        exact .head (.insertRun _ _ rfl rfl hlive rfl
          (hmay scope (contextPredicate_iff.mpr hscope)) hinsert) (requireLease_writes hreq)
    · cases h

theorem takeOverRun_writes : Writes may (takeOverRun context owner) := by
  intro env db a db' h
  rw [takeOverRun_run] at h
  split at h
  · cases h
    exact .refl
  · rename_i r hrun
    split_ifs at h with hterm hexpired
    · cases h
      exact .single (.changeRun r _ (Db.getRun_scope hrun).1
        (.takeOver owner (by simpa using hterm) hexpired) fun h => absurd h hterm)
    · cases h
      exact .refl

theorem resumeWaitingRun_writes : Writes may (resumeWaitingRun context owner) := by
  intro env db a db' h
  rw [resumeWaitingRun_run] at h
  split at h
  · cases h
    exact .refl
  · rename_i r hrun
    split_ifs at h with hwait
    · cases h
      exact .single (.changeRun r _ (Db.getRun_scope hrun).1 (.resume owner hwait)
        (by simp [RunRow.resume, RunStatus.isTerminal]))
    · cases h
      exact .refl

theorem updateWaitingPlanRun_writes {planId : String} {planVersion expected : Nat}
    {digest : Option String} {write : RunRow → Env → RunRow}
    {hwrite : ∀ r env, (write r env).keys = r.keys}
    (hgrant : ∀ env r, GrantedTo owner r (write r env))
    (hchange : ∀ env r, r.status = .awaitingUser → RunChange env r (write r env))
    (hend : ∀ env r, contextPredicate context r.scope = true → r.status = .awaitingUser →
      (write r env).status.isTerminal = true → may (.endRun r.scope)) :
    Writes may (updateWaitingPlanRun context owner planId planVersion expected digest write
      hwrite) := by
  intro env db a db' h
  rw [updateWaitingPlanRun_run (hgrant env)] at h
  split at h
  · cases h
    exact .refl
  · rename_i r hrun
    split_ifs at h with hguard
    · cases h
      obtain ⟨hr, hctx⟩ := Db.getRun_scope hrun
      exact .single (.changeRun r _ hr (hchange env r hguard.1)
        fun h _ => hend env r hctx hguard.1 h)
    · cases h
      exact .refl

theorem grant_grantedTo : GrantedTo owner r (r.grant env owner) := by
  simp [GrantedTo, RunRow.grant]

theorem resumePlan_grantedTo {planVersion : Nat} :
    GrantedTo owner r (r.resumePlan env owner planVersion) := by
  simp [GrantedTo, RunRow.resumePlan, RunRow.resume, RunRow.grant]

theorem cancelWaiting_grantedTo : GrantedTo owner r (r.cancelWaiting env owner) := by
  simp [GrantedTo, RunRow.cancelWaiting, RunRow.grant]

theorem resumeWaitingPlanRun_writes {planId : String} {planVersion expected : Nat} :
    Writes may (resumeWaitingPlanRun context owner planId planVersion expected) :=
  updateWaitingPlanRun_writes (fun _ _ => resumePlan_grantedTo)
    (fun _ _ h => .resumePlan owner planVersion h)
    (by simp [RunRow.resumePlan, RunRow.resume, RunStatus.isTerminal])

theorem fenceWaitingPlanRun_writes {planId digest : String} {planVersion expected : Nat} :
    Writes may (fenceWaitingPlanRun context owner planId planVersion digest expected) :=
  updateWaitingPlanRun_writes (fun _ _ => grant_grantedTo) (fun _ _ h => .fence owner h)
    (by simp +contextual [RunRow.grant, RunStatus.isTerminal])

theorem cancelWaitingPlanRun_writes {planId : String} {planVersion expected : Nat}
    (hmay : ∀ scope, contextPredicate context scope = true → may (.endRun scope)) :
    Writes may (cancelWaitingPlanRun context owner planId planVersion expected) :=
  updateWaitingPlanRun_writes (fun _ _ => cancelWaiting_grantedTo)
    (fun _ _ h => .cancelWaiting owner h) fun _ r hctx _ _ => hmay r.scope hctx

theorem requestCancellation_writes (hmay : ∀ r, db.getRun context = some r →
      r.status = .awaitingUser → may (.endRun r.scope)) :
    Ensures (requestCancellation context) env db
      fun _ db' => ReflTransGen (Step may env) db db' := by
  intro a db' h
  rw [requestCancellation_run] at h
  split at h
  · cases h
    exact .refl
  · rename_i r hrun
    split_ifs at h with hdone
    · cases h
      exact .refl
    · cases h
      simp only [ne_eq, not_or, Bool.not_eq_true, not_not] at hdone
      refine .single (.changeRun r _ (Db.getRun_scope hrun).1 (.cancelRequest hdone.1 hdone.2) ?_)
      intro hend hlive
      by_cases hwait : r.status = .awaitingUser
      · exact hmay r hrun hwait
      · simp [RunRow.cancelRequest, hwait, hlive] at hend

theorem refreshLease_writes : Writes may (refreshLease lease) := by
  intro env db a db' h
  rw [refreshLease_run] at h
  split at h
  · cases h
    exact .refl
  · rename_i r hcur
    cases h
    obtain ⟨hr, hctx, hlive⟩ := currentRun_lease hcur
    exact .single (.changeRun r _ hr (.refresh hlive)
      fun h h' => by simp_all [RunRow.refresh])

theorem transitionRun_writes {target : RunStatus} (hmay : target.isTerminal = true → ∀ scope,
      contextPredicate lease.context scope = true → may (.endRun scope)) :
    Writes may (transitionRun lease target) := by
  intro env db a db' h
  cases hcur : db.currentRun lease env.now with
  | none =>
    obtain ⟨e, herr⟩ | hnone := transitionRun_of_stale hcur
    · cases herr.symm.trans h
    · cases hnone.symm.trans h
      exact .refl
  | some r =>
    rw [transitionRun_of_current hcur] at h
    split_ifs at h with hlegal
    cases h
    obtain ⟨hr, hctx, hlive⟩ := currentRun_lease hcur
    exact .single (.changeRun r _ hr (.transition target hlegal hlive)
      fun h _ => hmay h r.scope hctx)

theorem run_updateApprovals {p : ApprovalRow → Bool} {f : ApprovalRow → ApprovalRow}
    {hf : ∀ a, (f a).keys = a.keys} (approvalId : String) {n : Nat}
    (hid : ∀ a, p a = true → a.approvalId = approvalId)
    (hchange : ∀ a, p a = true → ApprovalChange env a (f a))
    (h : (updateApprovals p f hf).run env db = .ok (n, db')) :
    ReflTransGen (Step may env) db db' := by
  simp only [updateApprovals, run_bind, run_get, run_set, run_pure] at h
  cases h
  obtain ⟨-, -, hsame⟩ | ⟨a, ha, hpa, -, -, hupd⟩ := Table.update_cases hf (pins_approvals hid)
  · rw [hsame]
  · rw [hupd]
    exact .single (.changeApproval a (f a) ha (hchange a hpa))

theorem insertApproval_writes {approvalId toolCallId : String} {expiresAt : Nat} :
    Writes may (insertApproval lease approvalId toolCallId expiresAt) := by
  intro env db a db' h
  cases hcur : db.currentRun lease env.now with
  | none =>
    rw [insertApproval_of_stale hcur] at h
    cases h
    exact .refl
  | some r =>
    rw [insertApproval_of_current hcur] at h
    split at h
    · cases h
    · rename_i hinsert
      cases h
      exact .single (.insertApproval lease r _ _ hcur rfl rfl hinsert)

theorem markApprovalExpired_writes {approvalId : String} {version : Nat} :
    Writes may (markApprovalExpired context approvalId version) := by
  intro env db a db' h
  obtain ⟨_, _, hask, h⟩ := run_bind_eq_ok.mp h
  cases hask
  obtain ⟨_, _, hupd, hret⟩ := run_bind_eq_ok.mp h
  cases hret
  refine run_updateApprovals approvalId ?_ ?_ hupd
  · simp +contextual
  · intro a ha
    simp only [Bool.and_eq_true, beq_iff_eq, decide_eq_true_eq] at ha
    exact .expire ha.1.1.2 ha.2

theorem resolveApproval_writes {approvalId : String} {approved : Bool} {version : Nat} :
    Writes may (resolveApproval context approvalId approved version) := by
  intro env db a db' h
  obtain ⟨_, _, hask, h⟩ := run_bind_eq_ok.mp h
  cases hask
  obtain ⟨n, db₁, hupd, hret⟩ := run_bind_eq_ok.mp h
  have hsame : db' = db₁ := by
    split_ifs at hret
    · cases hret
      rfl
    · obtain ⟨_, _, hget, hret⟩ := run_bind_eq_ok.mp hret
      cases hget
      cases hret
      rfl
  subst hsame
  refine run_updateApprovals approvalId ?_ ?_ hupd
  · simp +contextual
  · intro a ha
    simp only [Bool.and_eq_true, beq_iff_eq, decide_eq_true_eq] at ha
    exact .resolve approved ha.1.1.2 ha.2

theorem insertExecution_writes {new : NewExecution}
    (hmay : ∀ scope, contextPredicate lease.context scope = true →
      may (.newExecution scope new.status)) :
    Ensures (insertExecution (some (WorkflowCoordinator.planRoundBudget env.settings)) lease new)
      env db fun _ db' => ReflTransGen (Step may env) db db' := by
  intro a db' h
  cases hcur : db.currentRun lease env.now with
  | none =>
    rw [insertExecution_of_stale hcur] at h
    cases h
    exact .refl
  | some r =>
    rw [insertExecution_of_current hcur] at h
    split_ifs at h with hbudget hbusy
    · cases h
      exact .refl
    · split at h
      · cases h
      · rename_i hinsert
        cases h
        obtain ⟨_, hctx, _⟩ := currentRun_lease hcur
        refine .single (.insertExecution lease r _ _ hcur rfl ?_ rfl (hmay r.scope hctx) ?_ hinsert)
        · intro e he hscope
          by_contra hopen
          exact hbusy (List.any_eq_true.mpr ⟨e, he, by simp [hscope, hopen]⟩)
        · intro hplan
          simpa [hplan] using hbudget

theorem scope_of_getExecution {e : ExecutionRow} {executionId : String}
    (hcur : db.currentRun lease env.now = some r)
    (hget : db.getExecution lease.context executionId = some e) :
    e ∈ db.executions.rows ∧ e.scope = r.scope := by
  obtain ⟨he, hctx, _⟩ := getExecution_mem hget
  obtain ⟨_, hlease⟩ := currentRun_eq_some hcur
  exact ⟨he, scope_eq_of_contextPredicate hctx (currentLeasePredicate_iff.mp hlease).1⟩

theorem transitionExecution_writes {executionId : String} {expected target : ExecutionStatus}
    {version : Nat} :
    Writes may (transitionExecution lease executionId expected version target) := by
  intro env db a db' h
  by_cases hlegal : target ∈ expected.legalTargets
  · cases hcur : db.currentRun lease env.now with
    | none =>
      rw [transitionExecution_of_stale hcur, if_pos hlegal] at h
      cases h
      exact .refl
    | some r =>
      rw [transitionExecution_of_current hcur hlegal] at h
      split at h
      · cases h
        exact .refl
      · rename_i e hfilter
        cases h
        obtain ⟨hget, hp⟩ := Option.filter_eq_some_iff.mp hfilter
        obtain ⟨he, hscope⟩ := scope_of_getExecution hcur hget
        have hstatus : e.status = expected := by simp at hp; exact hp.1
        exact .single (.changeExecution lease r e _ hcur he hscope
          (.transition target (hstatus ▸ hlegal)))
  · simp [transitionExecution, hlegal] at h

theorem updateExecutionMetadata_writes {executionId : String} {expected : ExecutionStatus}
    {version : Nat} {metadata : ExecutionMetadata} :
    Writes may (updateExecutionMetadata lease executionId expected version metadata) := by
  intro env db a db' h
  cases hcur : db.currentRun lease env.now with
  | none =>
    rw [updateExecutionMetadata_of_stale hcur] at h
    cases h
    exact .refl
  | some r =>
    rw [updateExecutionMetadata_of_current hcur] at h
    split at h
    · cases h
    · rename_i hlegal
      split at h
      · cases h
        exact .refl
      · rename_i e hfilter
        cases h
        obtain ⟨hget, hp⟩ := Option.filter_eq_some_iff.mp hfilter
        obtain ⟨he, hscope⟩ := scope_of_getExecution hcur hget
        simp only [ExecutionMetadata.fits, Bool.and_eq_true, beq_iff_eq] at hp
        refine .single (.changeExecution lease r e _ hcur he hscope
          (.metadata metadata ?_ hp.2.1.1 hp.2.1.2 hp.2.2))
        intro target htarget
        simp only [Option.filter_eq_none_iff, decide_not, Bool.not_eq_true',
          decide_eq_false_iff_not, not_not] at hlegal
        exact hp.1.1 ▸ hlegal target htarget

theorem insertCheckpoint_writes {new : NewCheckpoint} :
    Writes may (insertCheckpoint lease new) := by
  intro env db a db' h
  cases hcur : db.currentRun lease env.now with
  | none =>
    rw [insertCheckpoint_of_stale hcur] at h
    cases h
    exact .refl
  | some r =>
    rw [insertCheckpoint_of_current hcur] at h
    split at h
    · cases h
    · split_ifs at h
      split at h
      · cases h
      · rename_i hinsert
        cases h
        exact .single (.insertCheckpoint lease r _ _ hcur rfl hinsert)

end WorkflowRepository

namespace WorkflowCoordinator

variable {checkpointId : String} {options : CheckpointOptions}

theorem orStale_writes {α : Type} {message : String} {o : Option α} :
    Writes may (orStale message o) := by
  cases o with
  | none => exact leads_throw
  | some a => exact leads_pure

theorem enforceRunQuota_writes {tenantId : String} : Writes may (enforceRunQuota tenantId) := by
  refine leads_bind leads_ask fun env => leads_bind leads_get fun db => ?_
  split_ifs
  · exact leads_throw
  · exact leads_pure

theorem checkpointPayload_writes {payload : CheckpointPayload} :
    Writes may (checkpointPayload lease payload options) :=
  leads_bind leads_ask fun _ => leads_bind leads_ofExcept fun _ => leads_bind leads_ofExcept
    fun _ => leads_bind WorkflowRepository.insertCheckpoint_writes fun _ => orStale_writes

theorem checkpoint_writes {phase : CheckpointPhase} {data : FieldValues} :
    Writes may (checkpoint lease phase data options) :=
  leads_bind leads_ofExcept fun _ => checkpointPayload_writes

theorem startRun_writes
    (hmay : ∀ scope, contextPredicate context scope = true → may (.newRun scope none)) :
    Writes may (startRun context owner) :=
  leads_bind enforceRunQuota_writes fun _ => WorkflowRepository.createRun_writes rfl hmay

theorem startRunWithCheckpoint_writes
    (hmay : ∀ scope, contextPredicate context scope = true → may (.newRun scope none)) :
    Writes may (startRunWithCheckpoint context owner checkpointId) := by
  refine leads_bind enforceRunQuota_writes fun _ =>
    leads_bind (WorkflowRepository.createRun_writes rfl hmay) fun lease => leads_bind leads_get
      fun db => ?_
  split
  · exact leads_throw
  · exact leads_bind checkpoint_writes fun _ => leads_pure

theorem startPlanRunWithCheckpoint_writes {planId planDigest : String} {planVersion : Nat}
    (hmay : ∀ scope, contextPredicate context scope = true →
      may (.newRun scope (some ⟨planId, planVersion, planVersion⟩))) :
    Writes may (startPlanRunWithCheckpoint context owner planId planVersion planDigest
      checkpointId) := by
  refine leads_bind leads_get fun db => ?_
  split_ifs
  · exact leads_bind enforceRunQuota_writes fun _ =>
      leads_bind (WorkflowRepository.createRun_writes rfl hmay) fun _ => leads_bind leads_ofExcept
        fun _ => leads_bind checkpointPayload_writes fun _ => leads_pure
  · exact leads_throw

theorem startApprovedPlanRunWithCheckpoint_writes {planId planDigest : String}
    {planVersion : Nat} (hmay : ∀ scope, contextPredicate context scope = true →
      may (.newRun scope (some ⟨planId, planVersion, planVersion⟩))) :
    Writes may (startApprovedPlanRunWithCheckpoint context owner planId planVersion planDigest
      checkpointId) := by
  refine leads_bind leads_get fun db => ?_
  split_ifs
  · refine leads_bind enforceRunQuota_writes fun _ =>
      leads_bind (WorkflowRepository.createRun_writes rfl hmay) fun lease => leads_bind leads_get
        fun db => ?_
    split
    · exact leads_throw
    · exact leads_bind checkpoint_writes fun _ => leads_pure
  · exact leads_throw

theorem acquireRun_writes : Writes may (acquireRun context owner) := by
  refine leads_bind WorkflowRepository.takeOverRun_writes fun o => ?_
  split
  · exact leads_pure
  · exact leads_throw

theorem resumeWaitingRun_writes : Writes may (resumeWaitingRun context owner) := by
  refine leads_bind WorkflowRepository.resumeWaitingRun_writes fun o => ?_
  split
  · exact leads_pure
  · exact leads_throw

theorem resumeWaitingPlanRun_writes {planId : String} {planVersion expected : Nat} :
    Writes may (resumeWaitingPlanRun context owner planId planVersion expected) :=
  leads_bind WorkflowRepository.resumeWaitingPlanRun_writes fun _ => orStale_writes

theorem fenceWaitingPlanRun_writes {planId planDigest : String} {planVersion expected : Nat} :
    Writes may (fenceWaitingPlanRun context owner planId planVersion expected planDigest
      checkpointId) :=
  leads_bind WorkflowRepository.fenceWaitingPlanRun_writes fun _ => leads_bind orStale_writes
    fun _ => leads_bind leads_ofExcept fun _ => leads_bind leads_get
      fun _ => leads_bind checkpointPayload_writes fun _ => leads_pure

theorem terminalCheckpoint_writes {target : RunStatus} {missing : String} :
    Writes may (terminalCheckpoint lease target missing checkpointId) := by
  refine leads_bind leads_get fun db => ?_
  split
  · exact leads_throw
  · exact leads_bind checkpoint_writes fun _ => leads_pure

theorem cancelWaitingPlanRun_writes {planId : String} {planVersion expected : Nat}
    (hmay : ∀ scope, contextPredicate context scope = true → may (.endRun scope)) :
    Writes may (cancelWaitingPlanRun context owner planId planVersion expected checkpointId) :=
  leads_bind (WorkflowRepository.cancelWaitingPlanRun_writes hmay) fun _ =>
    leads_bind orStale_writes fun _ => leads_bind terminalCheckpoint_writes fun _ => leads_pure

theorem requestCancellation_close_writes {finishedAt : Nat} :
    Writes may (requestCancellation.close context checkpointId db r finishedAt) :=
  leads_bind checkpoint_writes fun _ => leads_pure

theorem requestCancellation_writes (hmay : ∀ r, db.getRun context = some r →
      r.status = .awaitingUser → may (.endRun r.scope)) :
    Ensures (requestCancellation context checkpointId) env db
      fun _ db' => ReflTransGen (Step may env) db db' := by
  refine ensures_bind (WorkflowRepository.requestCancellation_writes hmay) fun o db₁ hfirst => ?_
  -- what follows the update writes at most a checkpoint
  suffices hrest : Writes may _ from fun _ _ h => hfirst.trans (hrest h)
  split
  · exact leads_throw
  · split
    · exact leads_pure
    · split_ifs
      · exact leads_pure
      · refine leads_bind leads_get fun db => ?_
        split
        · split
          · exact leads_throw
          · exact leads_pure
          · exact requestCancellation_close_writes
        · exact requestCancellation_close_writes

theorem heartbeat_writes : Writes may (heartbeat lease) :=
  leads_bind WorkflowRepository.refreshLease_writes fun _ => orStale_writes

theorem transitionRun_writes {target : RunStatus} (hmay : target.isTerminal = true → ∀ scope,
      contextPredicate lease.context scope = true → may (.endRun scope)) :
    Writes may (transitionRun lease target) :=
  leads_bind (WorkflowRepository.transitionRun_writes hmay) fun _ => orStale_writes

theorem finishRun_writes {target : RunStatus} (hmay : target.isTerminal = true →
      (target = .completed → db.hasNonterminalExecution lease.context = false) →
      ∀ scope, contextPredicate lease.context scope = true → may (.endRun scope)) :
    Ensures (finishRun lease target) env db fun _ db' => ReflTransGen (Step may env) db db' := by
  unfold finishRun
  split_ifs with hterm
  · exact ensures_of_error rfl
  · refine ensures_get ?_
    split_ifs with hopen
    · exact ensures_of_error rfl
    · refine (transitionRun_writes fun ht => hmay ht ?_).ensures
      intro hcompleted
      simpa [hcompleted] using hopen

theorem finishRunWithCheckpoint_writes {target : RunStatus} (hmay : target.isTerminal = true →
      (target = .completed → db.hasNonterminalExecution lease.context = false) →
      ∀ scope, contextPredicate lease.context scope = true → may (.endRun scope)) :
    Ensures (finishRunWithCheckpoint lease target checkpointId) env db
      fun _ db' => ReflTransGen (Step may env) db db' := by
  refine ensures_bind (finishRun_writes hmay) fun lease db₁ hfirst => ?_
  exact fun _ _ h => hfirst.trans (leads_bind terminalCheckpoint_writes (fun _ => leads_pure) h)

theorem decideApproval_writes {approvalId : String} {approved : Bool} {version : Nat} :
    Writes may (decideApproval context approvalId approved version) := by
  refine leads_bind WorkflowRepository.resolveApproval_writes fun o => ?_
  split
  · exact leads_pure
  · refine leads_bind WorkflowRepository.markApprovalExpired_writes fun expired => ?_
    split_ifs
    · exact leads_pure
    · refine leads_bind leads_get fun db => ?_
      split
      · exact leads_throw
      · split_ifs <;> exact leads_throw

theorem createApproval_writes {approvalId toolCallId : String} {expiresAt : Nat} :
    Writes may (createApproval lease approvalId toolCallId expiresAt) :=
  leads_bind WorkflowRepository.insertApproval_writes fun _ => orStale_writes

theorem createExecution_writes {new : WorkflowRepository.NewExecution}
    (hmay : ∀ scope, contextPredicate lease.context scope = true →
      may (.newExecution scope new.status)) :
    Writes may (createExecution lease new) :=
  fun _ _ _ _ h => WorkflowRepository.insertExecution_writes hmay _ _ h

theorem executionConflict_writes {α : Type} : Writes may (executionConflict lease : Tx α) := by
  refine leads_bind leads_ask fun env => leads_bind leads_get fun db => ?_
  split <;> exact leads_throw

theorem transitionExecution_writes {executionId : String} {expected target : ExecutionStatus}
    {version : Nat} :
    Writes may (transitionExecution lease executionId expected version target) := by
  refine leads_bind WorkflowRepository.transitionExecution_writes fun o => ?_
  split
  · exact leads_pure
  · exact executionConflict_writes

theorem updateExecutionMetadata_writes {executionId : String} {expected : ExecutionStatus}
    {version : Nat} {metadata : ExecutionMetadata} :
    Writes may (updateExecutionMetadata lease executionId expected version metadata) := by
  refine leads_bind WorkflowRepository.updateExecutionMetadata_writes fun o => ?_
  split
  · exact leads_pure
  · exact executionConflict_writes

end WorkflowCoordinator

end MultiClaw
