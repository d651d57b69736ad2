import MultiClaw.Workflow.Fencing
import MultiClaw.Workflow.Frames

/-! Checkpoints are read back as they were written, and numbered in the order of their commits. -/
namespace MultiClaw

open Base Transaction Relation WorkflowRepository WorkflowCoordinator

variable {env : Env} {db db' db₁ : Db} {context : TenantContext} {lease : RunLease}
  {owner checkpointId : String} {payload : CheckpointPayload} {options : CheckpointOptions}
  {phase : CheckpointPhase} {data : FieldValues}

/-! Reading back -/

theorem phase_of_modelValidate {members : List (PyStr × Json)}
    (h : phase.modelValidate members = some payload) : payload.phase = phase := by
  unfold CheckpointPhase.modelValidate at h
  split at h
  · split at h
    · cases h
    · split at h <;> cases h
      rfl
  · cases h

theorem validatePhasePayload_eq_ok (h : validatePhasePayload phase data = .ok payload) :
    payload.phase = phase := by
  unfold validatePhasePayload at h
  split at h
  · rename_i hmodel
    cases h
    exact phase_of_modelValidate hmodel
  · cases h

/-- The encoding does not depend on the process that makes it. -/
theorem encodeCheckpointPayload_host (host host' : Host) {maxBytes : Nat} :
    encodeCheckpointPayload host payload maxBytes =
      encodeCheckpointPayload host' payload maxBytes := by
  simp only [encodeCheckpointPayload, rejectSecretFields_payload]

theorem scope_of_contextPredicate {scope : RunScope} (h : contextPredicate context scope = true) :
    context.tenantId = scope.tenantId ∧ context.workspaceId = scope.workspaceId ∧
      context.sessionId = some scope.sessionId ∧ context.runId = some scope.runId := by
  rw [contextPredicate_iff] at h
  unfold TenantContext.scope? at h
  split at h <;> cases h
  exact ⟨rfl, rfl, ‹_›, ‹_›⟩

/-- A scope that the coordinator accepts is accepted again when the row is decoded. -/
theorem validateCheckpointScope_stored {approvalId executionId : Option String}
    {row : CheckpointRow} (hctx : contextPredicate lease.context row.scope = true)
    (hscope : WorkflowCoordinator.validateCheckpointScope lease payload options =
      .ok (approvalId, executionId))
    (happroval : row.approvalId = approvalId) (hexecution : row.executionId = executionId) :
    validateCheckpointScope row payload = .ok () := by
  obtain ⟨htenant, hworkspace, hsession, hrun⟩ := scope_of_contextPredicate hctx
  unfold WorkflowCoordinator.validateCheckpointScope at hscope
  unfold validateCheckpointScope
  rw [htenant, hworkspace, hsession, hrun] at hscope
  split at hscope
  · cases hscope
  · rename_i hid
    rw [if_neg hid]
    cases hphase : payload.phase with
    | runStarted =>
      simp only [hphase] at hscope ⊢
      split_ifs at hscope ⊢
      rfl
    | awaitingApproval =>
      simp only [hphase] at hscope ⊢
      split_ifs at hscope
      cases hscope
      rw [if_neg (by simp [happroval])]
    | executionDispatching =>
      simp only [hphase] at hscope ⊢
      split_ifs at hscope
      cases hscope
      rw [if_neg (by simp [hexecution])]
    | executionResultObserved =>
      simp only [hphase] at hscope ⊢
      split_ifs at hscope
      cases hscope
      rw [if_neg (by simp [hexecution])]
    | _ => rfl

/-! Numbering -/

theorem newest_eq_getLast? {cs : List CheckpointRow}
    (h : cs.Pairwise fun c d => c.checkpointSeq < d.checkpointSeq) :
    Db.newest cs = cs.getLast? := by
  induction cs with
  | nil => rfl
  | cons c cs ih =>
    rw [List.pairwise_cons] at h
    rw [Db.newest, ih h.2, List.getLast?_cons]
    cases hlast : cs.getLast? with
    | none => rfl
    | some d =>
      have hlt := h.1 d (List.mem_of_getLast? hlast)
      simp only [Option.getD_some]
      rw [if_neg (by omega)]

/-- Every checkpoint belongs to a stored run. -/
def Db.Owned (db : Db) : Prop := ∀ c ∈ db.checkpoints.rows, ∃ r ∈ db.runs.rows, r.scope = c.scope

/-- The checkpoints of each run stand in the order of their numbers. -/
def Db.Increasing (db : Db) : Prop :=
  db.checkpoints.rows.Pairwise fun c d => c.scope = d.scope → c.checkpointSeq < d.checkpointSeq

/-- At most one checkpoint is added, with the next number of its run. -/
def NextCheckpoint (db db' : Db) : Prop :=
  db'.checkpoints = db.checkpoints ∨ ∃ context row, contextPredicate context row.scope = true ∧
    row.checkpointSeq = db.getNextCheckpointSeq context ∧
    db'.checkpoints.rows = db.checkpoints.rows ++ [row]

theorem NextCheckpoint.of_same (hsame : db₁.checkpoints = db.checkpoints)
    (h : NextCheckpoint db₁ db') : NextCheckpoint db db' := by
  unfold NextCheckpoint Db.getNextCheckpointSeq Db.getLatestCheckpoint at h ⊢
  rwa [hsame] at h

theorem Db.Increasing.next (h : db.Increasing) (hnext : NextCheckpoint db db') :
    db'.Increasing := by
  rcases hnext with hsame | ⟨context, row, hctx, hseq, hrows⟩
  · unfold Db.Increasing
    rwa [hsame]
  · unfold Db.Increasing
    rw [hrows, List.pairwise_append]
    refine ⟨h, List.pairwise_singleton _ _, ?_⟩
    intro c hc d hd hscope
    rw [List.mem_singleton.mp hd] at hscope ⊢
    rw [hseq]
    exact lt_getNextCheckpointSeq hc (hscope ▸ hctx)

/-! What one call adds -/

theorem insertCheckpoint_adds {new : NewCheckpoint} :
    Ensures (insertCheckpoint lease new) env db fun o db' => ∀ seq ∈ o, ∃ r,
      db.currentRun lease env.now = some r ∧
      seq = new.checkpointSeq.getD (db.getNextCheckpointSeq lease.context) ∧
      db'.checkpoints.rows = db.checkpoints.rows ++
        [new.row r.scope (db.getNextCheckpointSeq lease.context) env.now] := by
  intro o db' h
  cases hcur : db.currentRun lease env.now with
  | none =>
    rw [insertCheckpoint_of_stale hcur] at h
    cases h
    simp
  | some r =>
    rw [insertCheckpoint_of_current hcur] at h
    split at h
    · cases h
    · split_ifs at h
      split at h <;> cases h
      rename_i checkpoints hinsert
      rintro seq ⟨⟩
      exact ⟨r, rfl, rfl, Table.insert?_rows hinsert⟩

/-- What the coordinator adds for a payload, and what it accepted for that. -/
theorem checkpointPayload_adds :
    Ensures (checkpointPayload lease payload options) env db fun seq db' =>
      ∃ approvalId executionId encoded r,
        WorkflowCoordinator.validateCheckpointScope lease payload options =
          .ok (approvalId, executionId) ∧
        encodeCheckpointPayload env.host payload env.settings.maxCheckpointPayloadBytes =
          .ok encoded ∧
        db.currentRun lease env.now = some r ∧
        seq = options.checkpointSeq.getD (db.getNextCheckpointSeq lease.context) ∧
        db'.checkpoints.rows = db.checkpoints.rows ++
          [(newCheckpoint payload encoded.payloadJson options approvalId executionId).row r.scope
            (db.getNextCheckpointSeq lease.context) env.now] := by
  refine ensures_ask (ensures_ofExcept fun ids hids => ensures_ofExcept fun encoded hencode => ?_)
  obtain ⟨-, hhash, hversion⟩ := encodeCheckpointPayload_eq_ok hencode
  refine ensures_bind insertCheckpoint_adds fun o db₁ hadds => ?_
  cases o with
  | none => exact ensures_of_error rfl
  | some seq =>
    obtain ⟨r, hcur, hseq, hrows⟩ := hadds seq rfl
    refine ensures_of_ok rfl ⟨ids.1, ids.2, encoded, r, hids, hencode, hcur, hseq, ?_⟩
    rw [hrows, hhash, hversion]
    rfl

theorem checkpointPayload_next
    (hnumber : ∀ k ∈ options.checkpointSeq, k = db.getNextCheckpointSeq lease.context) :
    Ensures (checkpointPayload lease payload options) env db
      fun _ db' => NextCheckpoint db db' := by
  intro seq db' h
  obtain ⟨approvalId, executionId, encoded, r, -, -, hcur, -, hrows⟩ :=
    checkpointPayload_adds seq db' h
  obtain ⟨-, hlease⟩ := currentRun_eq_some hcur
  refine .inr ⟨lease.context, _, (currentLeasePredicate_iff.mp hlease).1, ?_, hrows⟩
  cases hopt : options.checkpointSeq with
  | none => simp [NewCheckpoint.row, newCheckpoint, hopt]
  | some k => simp [NewCheckpoint.row, newCheckpoint, hopt, hnumber k hopt]

theorem checkpoint_next
    (hnumber : ∀ k ∈ options.checkpointSeq, k = db.getNextCheckpointSeq lease.context) :
    Ensures (checkpoint lease phase data options) env db fun _ db' => NextCheckpoint db db' :=
  ensures_ofExcept fun _ _ => checkpointPayload_next hnumber

theorem terminalCheckpoint_next {target : RunStatus} {missing : String} :
    Ensures (terminalCheckpoint lease target missing checkpointId) env db
      fun _ db' => NextCheckpoint db db' := by
  refine ensures_get ?_
  split
  · exact ensures_of_error rfl
  · exact ensures_bind (checkpoint_next (by simp)) fun _ _ h => ensures_of_ok rfl h

/-- The checkpoints are the same before and after. -/
def SameCheckpoints : Env → Db → Db → Prop := fun _ db db' => db'.checkpoints = db.checkpoints

theorem sameCheckpoints_of_steps (h : ReflTransGen (SameCheckpoints env) db db') :
    db'.checkpoints = db.checkpoints := by
  induction h with
  | refl => rfl
  | tail _ hstep ih => exact hstep.trans ih

theorem sameCheckpoints_free : FreesRuns SameCheckpoints :=
  ⟨fun _ _ _ => rfl, fun _ _ _ => rfl⟩

/-- What follows a write to the other tables adds what it would have added before. -/
theorem next_of_leads {α β : Type} {x : Tx α} {f : α → Tx β} (hx : Leads SameCheckpoints x)
    (hf : ∀ a db₁, x.run env db = .ok (a, db₁) →
      Ensures (f a) env db₁ fun _ db' => NextCheckpoint db₁ db') :
    Ensures (x >>= f) env db fun _ db' => NextCheckpoint db db' := by
  intro b db' h
  obtain ⟨a, db₁, hxa, hfa⟩ := run_bind_eq_ok.mp h
  exact (hf a db₁ hxa b db' hfa).of_same (sameCheckpoints_of_steps (hx hxa))

theorem requireLease_context {t v : Nat} :
    Ensures (requireLease context owner t v) env db
      fun lease db' => lease.context = context ∧ db' = db := by
  refine ensures_get ?_
  split
  · exact ensures_of_error rfl
  · split
    · exact ensures_of_error rfl
    · exact ensures_of_ok rfl ⟨rfl, rfl⟩

theorem fenceWaitingPlanRun_context {planId planDigest : String} {planVersion expected : Nat} :
    Ensures (WorkflowRepository.fenceWaitingPlanRun context owner planId planVersion planDigest
      expected) env db fun o _ => ∀ lease ∈ o, lease.context = context := by
  refine ensures_ask (ensures_get ?_)
  split
  · exact ensures_of_ok rfl (by simp)
  · split_ifs
    · exact ensures_of_ok rfl (by simp)
    · refine ensures_bind ensures_trivial fun _ _ _ => ?_
      split_ifs
      · exact ensures_of_ok rfl (by simp)
      · refine ensures_map fun lease db' h => ?_
        simpa using (requireLease_context lease db' h).1

/-- A run that has just been inserted has no checkpoint yet. -/
theorem createRun_first (howned : db.Owned) {status : RunStatus} {plan : Option PlanBinding} :
    Ensures (createRun context owner status plan) env db fun lease db' =>
      lease.context = context ∧ db'.getNextCheckpointSeq context = 1 := by
  refine ensures_ask (ensures_get ?_)
  split
  · exact ensures_of_error rfl
  · rename_i scope hscope
    split_ifs
    · split
      · exact ensures_of_error rfl
      · rename_i runs hinsert
        intro lease db' h
        obtain ⟨_, _, hset, hlease⟩ := run_bind_eq_ok.mp h
        cases hset
        obtain ⟨hcontext, rfl⟩ := requireLease_context lease db' hlease
        refine ⟨hcontext, ?_⟩
        have hnone : (db.checkpoints.filter fun c => contextPredicate context c.scope) = [] := by
          refine List.filter_eq_nil_iff.mpr fun c hc hctx => ?_
          obtain ⟨r, hr, hrc⟩ := howned c hc
          have hcs : some c.scope = some scope :=
            (contextPredicate_iff.mp hctx).symm.trans hscope
          refine Table.insert?_fresh hinsert hr (k := r.scope.runId) ?_ ?_
          · simp [RunRow.keys]
          · simp [RunRow.keys, hrc, Option.some.inj hcs]
        simp only [Db.getNextCheckpointSeq, Db.getLatestCheckpoint, hnone]
        rfl
    · exact ensures_of_error rfl

/-- The start of a run adds its first checkpoint. -/
theorem started_next (howned : db.Owned) {β : Type} {status : RunStatus}
    {plan : Option PlanBinding} {tenantId : String} {f : RunLease → Tx β}
    (hf : ∀ lease db₁, lease.context = context → db₁.getNextCheckpointSeq context = 1 →
      Ensures (f lease) env db₁ fun _ db' => NextCheckpoint db₁ db') :
    Ensures (enforceRunQuota tenantId >>= fun _ => createRun context owner status plan >>= f)
      env db fun _ db' => NextCheckpoint db db' := by
  refine ensures_bind (Q := fun _ db₁ => db₁ = db) ?_ ?_
  · refine ensures_ask (ensures_get ?_)
    split_ifs
    · exact ensures_of_error rfl
    · exact ensures_of_ok rfl rfl
  · rintro _ _ rfl
    refine next_of_leads (createRun_leads sameCheckpoints_free) fun lease db₁ hrun => ?_
    obtain ⟨hcontext, hfirst⟩ := createRun_first howned lease db₁ hrun
    exact hf lease db₁ hcontext hfirst

theorem fenceWaitingPlanRun_next {planId planDigest : String} {planVersion expected : Nat} :
    Ensures (fenceWaitingPlanRun context owner planId planVersion expected planDigest checkpointId)
      env db fun _ db' => NextCheckpoint db db' := by
  refine next_of_leads (updateWaitingPlanRun_leads sameCheckpoints_free)
    fun o db₁ hrun => next_of_leads orStale_leads fun lease db₂ hlease =>
      next_of_leads leads_ofExcept fun _ db₃ _ => ensures_get ?_
  have hcontext : lease.context = context := by
    cases o with
    | none => cases hlease
    | some l =>
      cases hlease
      exact fenceWaitingPlanRun_context _ _ hrun _ rfl
  exact ensures_bind (checkpointPayload_next (by simp [hcontext]))
    fun _ _ h => ensures_of_ok rfl h

theorem requestCancellation_next :
    Ensures (requestCancellation context checkpointId) env db
      fun _ db' => NextCheckpoint db db' := by
  refine next_of_leads (requestCancellation_leads sameCheckpoints_free) fun o db₁ _ => ?_
  have hclose : ∀ record finishedAt, Ensures (requestCancellation.close context checkpointId db₁
      record finishedAt) env db₁ fun _ db' => NextCheckpoint db₁ db' := fun _ _ =>
    ensures_bind (checkpoint_next (by simp [RunRow.lease])) fun _ _ h => ensures_of_ok rfl h
  have hsame : NextCheckpoint db₁ db₁ := .inl rfl
  split
  · exact ensures_of_error rfl
  · split
    · exact ensures_of_ok rfl hsame
    · split_ifs
      · exact ensures_of_ok rfl hsame
      · refine ensures_get ?_
        split
        · split
          · exact ensures_of_error rfl
          · exact ensures_of_ok rfl hsame
          · exact hclose _ _
        · exact hclose _ _

/-- Who calls `checkpoint` leaves the number to the repository, or has just asked for it. -/
def WorkflowOp.TakesNext (db : Db) : WorkflowOp → Prop
  | checkpoint lease _ _ options =>
    ∀ k ∈ options.checkpointSeq, k = db.getNextCheckpointSeq lease.context
  | _ => True

/-- A call adds at most one checkpoint, and numbers it next. -/
theorem WorkflowOp.tx_next {op : WorkflowOp} (howned : db.Owned) (hop : op.TakesNext db) :
    Ensures op.tx env db fun _ db' => NextCheckpoint db db' := by
  by_cases hwrites : op.writesCheckpoint = true
  · cases op with
    | startRunWithCheckpoint =>
      refine ensures_map (started_next howned fun lease db₁ hcontext hfirst => ensures_get ?_)
      split
      · exact ensures_of_error rfl
      · exact ensures_bind (checkpoint_next (by simp [hcontext, hfirst]))
          fun _ _ h => ensures_of_ok rfl h
    | startPlanRunWithCheckpoint =>
      refine ensures_map (ensures_get ?_)
      split_ifs
      · exact started_next howned fun lease db₁ hcontext hfirst => ensures_ofExcept fun _ _ =>
          ensures_bind (checkpointPayload_next (by simp [hcontext, hfirst]))
            fun _ _ h => ensures_of_ok rfl h
      · exact ensures_of_error rfl
    | startApprovedPlanRunWithCheckpoint =>
      refine ensures_map (ensures_get ?_)
      split_ifs
      · refine started_next howned fun lease db₁ hcontext hfirst => ensures_get ?_
        split
        · exact ensures_of_error rfl
        · exact ensures_bind (checkpoint_next (by simp [hcontext, hfirst]))
            fun _ _ h => ensures_of_ok rfl h
      · exact ensures_of_error rfl
    | fenceWaitingPlanRun => exact ensures_map fenceWaitingPlanRun_next
    | cancelWaitingPlanRun =>
      exact ensures_map (next_of_leads (updateWaitingPlanRun_leads sameCheckpoints_free)
        fun o db₁ _ => next_of_leads orStale_leads fun lease db₂ _ =>
          ensures_bind terminalCheckpoint_next fun _ _ h => ensures_of_ok rfl h)
    | requestCancellation => exact ensures_map requestCancellation_next
    | finishRunWithCheckpoint =>
      exact ensures_map (next_of_leads (finishRun_leads sameCheckpoints_free)
        fun lease db₁ _ => ensures_bind terminalCheckpoint_next fun _ _ h => ensures_of_ok rfl h)
    | checkpoint => exact ensures_map (checkpoint_next hop)
    | _ => cases hwrites
  · intro o db' h
    exact .inl (sameCheckpoints_of_steps (op.tx_leads sameCheckpoints_free
      (fun hyes => absurd hyes hwrites) (fun _ _ _ _ => rfl) h))

/-! Whole runs of the system -/

theorem Step.owned {may : Effect → Prop} (hstep : Step may env db db') (h : db.Owned) :
    db'.Owned := by
  have hkept : ∀ c ∈ db.checkpoints.rows, ∃ r ∈ db'.runs.rows, r.scope = c.scope := by
    intro c hc
    obtain ⟨r, hr, hscope⟩ := h c hc
    obtain ⟨r', hr', hfollows⟩ := hstep.follows hr
    exact ⟨r', hr', hfollows.scope.trans hscope⟩
  cases hstep with
  | insertCheckpoint lease run row checkpoints hlease hscope hinsert =>
    intro c hc
    rcases (Table.mem_insert? hinsert).mp hc with hc | rfl
    · exact hkept c hc
    · exact ⟨run, (currentRun_eq_some hlease).1, hscope.symm⟩
  | _ => exact hkept

/-- One commit: a call of the coordinator, or any other write. The others leave the checkpoints
alone, except that a run may be deleted with all that it has. -/
inductive CheckpointTurn (db : Db) : Db → Prop where
  | call (env : Env) (op : WorkflowOp) (lease : Option RunLease) (db' : Db)
      (hop : op.TakesNext db) (h : op.tx.run env db = .ok (lease, db')) : CheckpointTurn db db'
  | other (gone : RunScope → Bool) (db' : Db)
      (hcheckpoints : db'.checkpoints.rows = db.checkpoints.rows.filter (!gone ·.scope))
      (hruns : ∀ r ∈ db.runs.rows, gone r.scope = false →
        ∃ r' ∈ db'.runs.rows, r'.scope = r.scope) : CheckpointTurn db db'

theorem CheckpointTurn.keeps (hturn : CheckpointTurn db db') (h : db.Owned ∧ db.Increasing) :
    db'.Owned ∧ db'.Increasing := by
  obtain ⟨howned, hincreasing⟩ := h
  cases hturn with
  | call env op lease db' hop htx =>
    refine ⟨?_, hincreasing.next (op.tx_next howned hop lease db' htx)⟩
    have hsteps := op.tx_writes env db lease db' htx
    clear htx
    induction hsteps with
    | refl => exact howned
    | tail _ hstep ih => exact hstep.owned ih
  | other gone db' hcheckpoints hruns =>
    refine ⟨?_, ?_⟩
    · intro c hc
      rw [hcheckpoints, List.mem_filter] at hc
      obtain ⟨r, hr, hscope⟩ := howned c hc.1
      obtain ⟨r', hr', hscope'⟩ := hruns r hr (by simpa [hscope] using hc.2)
      exact ⟨r', hr', hscope'.trans hscope⟩
    · unfold Db.Increasing
      rw [hcheckpoints]
      exact hincreasing.sublist List.filter_sublist

theorem increasing_of_turns (hturns : ReflTransGen CheckpointTurn Db.empty db) :
    db.Increasing := by
  have hboth : db.Owned ∧ db.Increasing := by
    induction hturns with
    | refl => exact ⟨fun _ hc => absurd hc List.not_mem_nil, List.Pairwise.nil⟩
    | tail _ hturn ih => exact hturn.keeps ih
  exact hboth.2

theorem Db.Increasing.filter (h : db.Increasing) (context : TenantContext) :
    (db.checkpoints.filter fun c => contextPredicate context c.scope).Pairwise
      fun c d => c.checkpointSeq < d.checkpointSeq := by
  have hsame : ∀ {c d : CheckpointRow}, contextPredicate context c.scope = true →
      contextPredicate context d.scope = true → c.scope = d.scope :=
    fun hc hd => scope_eq_of_contextPredicate hc hd
  refine (h.sublist List.filter_sublist).imp_of_mem ?_
  intro c d hc hd hlt
  exact hlt (hsame (List.mem_filter.mp hc).2 (List.mem_filter.mp hd).2)

theorem checkpoint_read_back {seq : Nat}
    (h : (checkpoint lease phase data options).run env db = .ok (seq, db')) :
    ∃ row payload, db'.checkpoints.rows = db.checkpoints.rows ++ [row] ∧
      contextPredicate lease.context row.scope = true ∧ row.checkpointSeq = seq ∧
      validatePhasePayload phase data = .ok payload ∧ payload.phase = phase ∧
      ∀ host, decodeCheckpoint host row = .ok payload := by
  obtain ⟨payload, db₁, hpayload, hrun⟩ := run_bind_eq_ok.mp h
  obtain ⟨hvalid, rfl⟩ := run_ofExcept_eq_ok.mp hpayload
  obtain ⟨approvalId, executionId, encoded, r, hscope, hencode, hcur, rfl, hrows⟩ :=
    checkpointPayload_adds seq db' hrun
  obtain ⟨-, hlease⟩ := currentRun_eq_some hcur
  have hctx := (currentLeasePredicate_iff.mp hlease).1
  obtain ⟨-, hhash, hversion⟩ := encodeCheckpointPayload_eq_ok hencode
  refine ⟨_, payload, hrows, hctx, rfl, hvalid, validatePhasePayload_eq_ok hvalid, fun host => ?_⟩
  rw [encodeCheckpointPayload_host env.host host] at hencode
  rw [decodeCheckpoint_encoded hencode rfl hhash.symm hversion.symm rfl,
    validateCheckpointScope_stored hctx hscope rfl rfl]
  rfl

/-- In any interleaving of calls, by any holders of leases, the checkpoints of a run are stored
with increasing numbers, the latest one is the last that was committed, and each one that
`checkpoint` accepts decodes to what was accepted. -/
theorem checkpoints_round_trip_in_order (hturns : ReflTransGen CheckpointTurn Db.empty db) :
    (∀ context, (db.checkpoints.filter fun c => contextPredicate context c.scope).Pairwise
        (fun c d => c.checkpointSeq < d.checkpointSeq) ∧
      db.getLatestCheckpoint context =
        (db.checkpoints.filter fun c => contextPredicate context c.scope).getLast?) ∧
    ∀ env lease phase data options seq db',
      (checkpoint lease phase data options).run env db = .ok (seq, db') →
      ∃ row payload, db'.checkpoints.rows = db.checkpoints.rows ++ [row] ∧
        contextPredicate lease.context row.scope = true ∧ row.checkpointSeq = seq ∧
        validatePhasePayload phase data = .ok payload ∧ payload.phase = phase ∧
        ∀ host, decodeCheckpoint host row = .ok payload := by
  refine ⟨fun context => ?_, fun _ _ _ _ _ _ _ h => checkpoint_read_back h⟩
  have hpairwise := (increasing_of_turns hturns).filter context
  exact ⟨hpairwise, newest_eq_getLast? hpairwise⟩

theorem checkpoints_round_trip_in_order_first :
    let env : Env := { settings := {}, host := .ascii, now := 1 }
    let context : TenantContext :=
      { tenantId := "t", workspaceId := "w", sessionId := some "s"
        runId := some "00000000-0000-4000-8000-000000000001" }
    let lease : RunLease := ⟨context, "o", 1, 1, 20001⟩
    let data : FieldValues :=
      [("run_id", jsonText "00000000-0000-4000-8000-000000000001"), ("message_id", jsonText "m"),
        ("output_digest", jsonText (String.ofList (List.replicate 64 '0'))),
        ("model_cursor", jsonText "c"), ("cursor", jsonText "c")]
    ∃ db db' row payload, (startRun context "o").run env Db.empty = .ok (lease, db) ∧
      (checkpoint lease .modelOutputCommitted data { checkpointId := "c" }).run env db =
        .ok (1, db') ∧
      db'.checkpoints.rows = [row] ∧ db'.getLatestCheckpoint context = some row ∧
      payload.phase = .modelOutputCommitted ∧ decodeCheckpoint .ascii row = .ok payload := by
  intro env context lease data
  have hstart : ((startRun context "o").run env Db.empty).toOption.any (fun p => p.1 == lease &&
      p.2.checkpoints.rows.isEmpty &&
        ((checkpoint lease .modelOutputCommitted data { checkpointId := "c" }).run env
          p.2).toOption.any (·.1 == 1)) = true := by
    decide +kernel
  obtain ⟨⟨lease', db⟩, hrun, hrest⟩ := (Option.any_eq_true _ _).mp hstart
  simp only [Bool.and_eq_true, beq_iff_eq, List.isEmpty_iff, Option.any_eq_true] at hrest
  obtain ⟨⟨rfl, hempty⟩, ⟨_, db'⟩, hwrite, rfl⟩ := hrest
  replace hrun := eq_ok_of_toOption hrun
  replace hwrite := eq_ok_of_toOption hwrite
  have hturn : CheckpointTurn Db.empty db :=
    .call env (.startRun context "o") (some lease) db trivial
      (by simp [WorkflowOp.tx, run_map, hrun])
  have hturn' : CheckpointTurn db db' :=
    .call env (.checkpoint lease .modelOutputCommitted data { checkpointId := "c" }) none db'
      (by simp [WorkflowOp.TakesNext]) (by simp [WorkflowOp.tx, run_map, hwrite])
  obtain ⟨row, payload, hrows, hctx, -, -, hphase, hdecode⟩ :=
    (checkpoints_round_trip_in_order (.single hturn)).2 _ _ _ _ _ _ _ hwrite
  have hlast := ((checkpoints_round_trip_in_order
    (ReflTransGen.tail (.single hturn) hturn')).1 context).2
  rw [hempty, List.nil_append] at hrows
  refine ⟨db, db', row, payload, hrun, hwrite, hrows, ?_, hphase, hdecode _⟩
  rw [hlast, Table.filter, hrows]
  simp [show contextPredicate context row.scope = true from hctx]

end MultiClaw
