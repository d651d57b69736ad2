import MultiClaw.Workflow.Fencing

/-! The number of runs of a tenant that have not ended, under both isolation models. -/
namespace MultiClaw

open Base Transaction Relation WorkflowCoordinator

variable {settings : Settings} {host : Host} {env : Env} {db db' : Db} {may : Effect → Prop}

/-- One call that starts a run. -/
inductive StartCall where
  | run (context : TenantContext) (owner : String)
  | withCheckpoint (context : TenantContext) (owner checkpointId : String)
  | planWithCheckpoint (context : TenantContext) (owner planId : String) (planVersion : Nat)
      (planDigest checkpointId : String)
  | approvedPlanWithCheckpoint (context : TenantContext) (owner planId : String)
      (planVersion : Nat) (planDigest checkpointId : String)

namespace StartCall

def context : StartCall → TenantContext
  | run context _ | withCheckpoint context _ _ | planWithCheckpoint context _ _ _ _ _
  | approvedPlanWithCheckpoint context _ _ _ _ _ => context

def tenantId (call : StartCall) : String := call.context.tenantId

/-- The statements of a call up to the count of the active runs. -/
def check : StartCall → Tx Unit
  | run context _ | withCheckpoint context _ _ => enforceRunQuota context.tenantId
  | planWithCheckpoint context _ planId planVersion planDigest _
  | approvedPlanWithCheckpoint context _ planId planVersion planDigest _ => do
    if (← get).planVersionExists context planId planVersion (some planDigest) then
      enforceRunQuota context.tenantId
    else throw (.staleFence "Plan version or digest is stale")

/-- The checkpoint of a run that starts at its model. -/
def started (context : TenantContext) (lease : RunLease) (checkpointId missing : String) :
    Tx RunLease := do
  match (← get).getRun context with
  | none => throw (.runtime missing)
  | some record =>
    let _ ← checkpoint lease .runStarted (runStartedData context record.createdAt)
      { checkpointId, checkpointSeq := some 1 }
    return lease

/-- The statements of a call after the count. -/
def insert : StartCall → Tx RunLease
  | run context owner => WorkflowRepository.createRun context owner
  | withCheckpoint context owner checkpointId => do
    let lease ← WorkflowRepository.createRun context owner
    started context lease checkpointId "run record missing after creation"
  | planWithCheckpoint context owner planId planVersion planDigest checkpointId => do
    let lease ← WorkflowRepository.createRun context owner .awaitingUser
      (some ⟨planId, planVersion, planVersion⟩)
    let payload ← ofExcept (buildPayload .planAwaitingApproval
      (planDecisionData (context.runId.getD "") planId planVersion planDigest))
    let _ ← checkpointPayload lease payload { checkpointId, checkpointSeq := some 1 }
    return lease
  | approvedPlanWithCheckpoint context owner planId planVersion _ checkpointId => do
    let lease ← WorkflowRepository.createRun context owner .running
      (some ⟨planId, planVersion, planVersion⟩)
    started context lease checkpointId "Plan rerun record missing after creation"

/-- A call that passes the count finds room for one more run. -/
theorem check_room (call : StartCall) : Ensures call.check env db fun _ db' =>
    db' = db ∧ db.countActiveRuns call.tenantId < env.settings.maxConcurrentRunsPerTenant := by
  have hquota : ∀ tenantId, Ensures (enforceRunQuota tenantId) env db fun _ db' =>
      db' = db ∧ db.countActiveRuns tenantId < env.settings.maxConcurrentRunsPerTenant := by
    intro tenantId
    refine ensures_ask (ensures_get ?_)
    split_ifs with hfull
    · exact ensures_of_error rfl
    · exact ensures_of_ok rfl ⟨rfl, by omega⟩
  cases call with
  | run | withCheckpoint => exact hquota _
  | planWithCheckpoint | approvedPlanWithCheckpoint =>
    refine ensures_get ?_
    split_ifs
    · exact hquota _
    · exact ensures_of_error rfl

theorem requireLease_db {context : TenantContext} {owner : String} {token version : Nat} :
    Ensures (WorkflowRepository.requireLease context owner token version) env db
      fun _ db' => db' = db := by
  refine ensures_get ?_
  split
  · exact ensures_of_error rfl
  · split <;> first | exact ensures_of_error rfl | exact ensures_of_ok rfl rfl

theorem tenantId_of_scope? {context : TenantContext} {scope : RunScope}
    (h : context.scope? = some scope) : scope.tenantId = context.tenantId := by
  unfold TenantContext.scope? at h
  split at h <;> cases h
  rfl

theorem createRun_inserts {context : TenantContext} {owner : String} {status : RunStatus}
    {plan : Option PlanBinding} :
    Ensures (WorkflowRepository.createRun context owner status plan) env db fun _ db' =>
      ∃ row : RunRow, row.scope.tenantId = context.tenantId ∧
        db.runs.insert? row = some db'.runs := by
  refine ensures_ask (ensures_get ?_)
  split
  · exact ensures_of_error rfl
  · rename_i scope hscope
    split_ifs
    · split
      · exact ensures_of_error rfl
      · rename_i runs hinsert
        intro lease db' h
        obtain ⟨_, _, hset, hreq⟩ := run_bind_eq_ok.mp h
        cases hset
        rw [requireLease_db _ _ hreq]
        exact ⟨_, tenantId_of_scope? hscope, hinsert⟩
    · exact ensures_of_error rfl

theorem started_runs {context : TenantContext} {lease : RunLease} {checkpointId missing : String} :
    Ensures (started context lease checkpointId missing) env db
      fun _ db' => db'.runs = db.runs := by
  refine ensures_get ?_
  split
  · exact ensures_of_error rfl
  · exact ensures_bind checkpoint_runs fun _ _ h => ensures_of_ok rfl h

/-- After the count a call adds one row to the runs of its own tenant. -/
theorem insert_inserts (call : StartCall) : Ensures call.insert env db fun _ db' =>
    ∃ row : RunRow, row.scope.tenantId = call.tenantId ∧
      db.runs.insert? row = some db'.runs := by
  cases call with
  | run => exact createRun_inserts
  | withCheckpoint | approvedPlanWithCheckpoint =>
    refine ensures_bind createRun_inserts fun _ _ hrow lease db' h => ?_
    rw [started_runs lease db' h]
    exact hrow
  | planWithCheckpoint =>
    refine ensures_bind createRun_inserts fun _ _ hrow => ensures_ofExcept fun _ _ => ?_
    exact ensures_bind checkpointPayload_runs fun _ _ h => ensures_of_ok rfl (by rwa [h])

end StartCall

/-! What the other operations do to the count -/

theorem RunChange.live {r r' : RunRow} (h : RunChange env r r')
    (hlive : r'.status.isTerminal = false) : r.status.isTerminal = false := by
  cases h with
  | takeOver _ h => exact h
  | resume _ h | resumePlan _ _ h | fence _ h | cancelWaiting _ h => rw [h]; rfl
  | cancelRequest h => exact h
  | refresh => exact hlive
  | transition target hlegal =>
    rw [← Bool.not_eq_true]
    intro hterminal
    rw [RunStatus.legalTargets_of_isTerminal hterminal] at hlegal
    exact absurd hlegal List.not_mem_nil

/-- A write that inserts no run of the tenant does not raise its count. -/
theorem Step.countActiveRuns_le {tenantId : String} (h : Step may env db db')
    (hmay : ∀ scope plan, ¬ may (.newRun scope plan)) :
    db'.countActiveRuns tenantId ≤ db.countActiveRuns tenantId := by
  cases h with
  | insertRun row runs _ _ _ _ hnew => exact absurd hnew (hmay _ _)
  | changeRun r r' hr hchange =>
    refine Table.count_replace_le hchange.keys_eq hr (by simp [RunRow.keys]) fun hp => ?_
    rw [hchange.scope_eq] at hp
    simp only [Bool.and_eq_true, Bool.not_eq_true'] at hp ⊢
    exact ⟨hp.1, hchange.live hp.2⟩
  | _ => exact le_rfl

theorem steps_countActiveRuns_le {tenantId : String} (h : ReflTransGen (Step may env) db db')
    (hmay : ∀ scope plan, ¬ may (.newRun scope plan)) :
    db'.countActiveRuns tenantId ≤ db.countActiveRuns tenantId := by
  induction h with
  | refl => exact le_rfl
  | tail _ hstep ih => exact (hstep.countActiveRuns_le hmay).trans ih

/-- The calls that start a run. -/
def WorkflowOp.starts : WorkflowOp → Bool
  | startRun .. | startRunWithCheckpoint .. | startPlanRunWithCheckpoint ..
  | startApprovedPlanRunWithCheckpoint .. => true
  | _ => false

theorem WorkflowOp.no_newRun {op : WorkflowOp} (h : op.starts = false) (scope : RunScope)
    (plan : Option PlanBinding) : ¬ op.effects db (.newRun scope plan) := by
  cases op <;> first | exact id | cases h

/-! Open transactions -/

/-- How the database isolates the writers: SQLite runs one write transaction at a time; MySQL
holds the row lock of the tenant until commit, and every statement reads what is committed. -/
inductive Isolation where
  | serialized
  | readCommitted
  deriving DecidableEq, Repr

/-- A transaction that holds the lock of its tenant, and whether it has counted. -/
structure OpenStart where
  call : StartCall
  counted : Bool

/-- The committed tables and the open transactions that start a run. -/
structure QuotaState where
  db : Db := Db.empty
  starts : List OpenStart := []

/-- What one of the callers does next. -/
inductive QuotaEvent where
  | lock (call : StartCall)
  | count (i : Nat) (host : Host) (now : Fin (2 ^ 63))
  | finish (i : Nat) (host : Host) (now : Fin (2 ^ 63))
  | rollback (i : Nat)
  | commit (op : WorkflowOp) (host : Host) (now : Fin (2 ^ 63))

namespace QuotaState

def envAt (settings : Settings) (host : Host) (now : Fin (2 ^ 63)) : Env :=
  ⟨settings, host, now, now.2⟩

/-- A start waits for the lock of its tenant, and under SQLite for every writer. -/
def blocked (isolation : Isolation) (s : QuotaState) (tenantId : String) : Bool :=
  match isolation with
  | .serialized => !s.starts.isEmpty
  | .readCommitted => s.starts.any (·.call.tenantId == tenantId)

/-- One event; an event that the database does not let through changes nothing. -/
def step (isolation : Isolation) (settings : Settings) (s : QuotaState) : QuotaEvent → QuotaState
  | .lock call =>
    if s.blocked isolation call.tenantId then s else { s with starts := ⟨call, false⟩ :: s.starts }
  | .count i host now =>
    match s.starts[i]? with
    | some ⟨call, false⟩ =>
      match call.check.run (envAt settings host now) s.db with
      | .ok _ => { s with starts := s.starts.set i ⟨call, true⟩ }
      | .error _ => { s with starts := s.starts.eraseIdx i }
    | _ => s
  | .finish i host now =>
    match s.starts[i]? with
    | some ⟨call, true⟩ =>
      { db := (call.insert.commit (envAt settings host now) s.db).2
        starts := s.starts.eraseIdx i }
    | _ => s
  | .rollback i => { s with starts := s.starts.eraseIdx i }
  | .commit op host now =>
    if op.starts || (isolation == .serialized && !s.starts.isEmpty) then s
    else { s with db := (op.tx.commit (envAt settings host now) s.db).2 }

def run (isolation : Isolation) (settings : Settings) (s : QuotaState) (events : List QuotaEvent) :
    QuotaState := events.foldl (step isolation settings) s

/-- The open starts of a tenant that have counted. -/
def countedOf (s : QuotaState) (tenantId : String) : Nat :=
  s.starts.countP fun o => o.call.tenantId == tenantId && o.counted

/-- The open starts of a tenant. -/
def startsOf (s : QuotaState) (tenantId : String) : Nat :=
  s.starts.countP fun o => o.call.tenantId == tenantId

/-- Every tenant has at most one open start, and a start that has counted still finds its room. -/
structure Within (settings : Settings) (s : QuotaState) : Prop where
  single : ∀ tenantId, s.startsOf tenantId ≤ 1
  room : ∀ tenantId, s.db.countActiveRuns tenantId + s.countedOf tenantId ≤
    settings.maxConcurrentRunsPerTenant

variable {isolation : Isolation} {s : QuotaState}

/-- Fewer open starts and no more runs keep the bound. -/
theorem Within.of_sublist {s' : QuotaState} (h : s.Within settings)
    (hstarts : s'.starts.Sublist s.starts)
    (hruns : ∀ tenantId, s'.db.countActiveRuns tenantId ≤ s.db.countActiveRuns tenantId) :
    s'.Within settings where
  single tenantId := hstarts.countP_le.trans (h.single tenantId)
  room tenantId :=
    (Nat.add_le_add (hruns tenantId) hstarts.countP_le).trans (h.room tenantId)

theorem startsOf_eq_zero {tenantId : String} (h : s.blocked isolation tenantId = false) :
    s.startsOf tenantId = 0 := by
  cases isolation with
  | serialized =>
    have hnil : s.starts = [] := by simpa [blocked] using h
    rw [startsOf, hnil, List.countP_nil]
  | readCommitted =>
    refine List.countP_eq_zero.mpr fun o ho => ?_
    simpa using List.any_eq_false.mp h o ho

theorem Within.lock (h : s.Within settings) {call : StartCall}
    (hfree : s.blocked isolation call.tenantId = false) :
    Within settings { s with starts := ⟨call, false⟩ :: s.starts } where
  single tenantId := by
    have hsingle := h.single tenantId
    have hzero := startsOf_eq_zero hfree
    rw [startsOf] at hsingle hzero
    rw [startsOf, List.countP_cons]
    by_cases ht : call.tenantId = tenantId
    · subst ht
      simp [hzero]
    · simpa [ht] using hsingle
  room tenantId := by
    have hroom := h.room tenantId
    simpa [countedOf] using hroom

/-- The only open start of its tenant may count itself in when it found room. -/
theorem Within.count (h : s.Within settings) {i : Nat} {call : StartCall}
    (hi : s.starts[i]? = some ⟨call, false⟩)
    (hroom : s.db.countActiveRuns call.tenantId < settings.maxConcurrentRunsPerTenant) :
    Within settings { s with starts := s.starts.set i ⟨call, true⟩ } := by
  obtain ⟨hlt, hget⟩ := List.getElem?_eq_some_iff.mp hi
  -- both lists hold the same other starts
  have hold := (List.getElem_cons_eraseIdx_perm hlt).countP_eq
  have hnew := (List.set_perm_cons_eraseIdx hlt ⟨call, true⟩).countP_eq
  simp only [hget, List.countP_cons] at hold hnew
  constructor <;> intro tenantId
  · have hsingle := h.single tenantId
    rw [startsOf, ← hold] at hsingle
    rw [startsOf, hnew]
    exact hsingle
  · have hsingle := h.single tenantId
    have hroom' := h.room tenantId
    rw [startsOf, ← hold] at hsingle
    rw [countedOf, ← hold] at hroom'
    rw [countedOf, hnew]
    by_cases ht : call.tenantId = tenantId
    · subst ht
      have hle : (s.starts.eraseIdx i).countP
            (fun o => o.call.tenantId == call.tenantId && o.counted) ≤
          (s.starts.eraseIdx i).countP fun o => o.call.tenantId == call.tenantId :=
        List.countP_mono_left fun o _ ho => (Bool.and_eq_true _ _ ▸ ho).1
      simp only [beq_self_eq_true, if_true] at hsingle
      simp only [beq_self_eq_true, Bool.and_true, if_true]
      omega
    · simpa [ht] using hroom'

/-- The run of a start that has counted takes the room that was kept for it. -/
theorem Within.finish (h : s.Within settings) {i : Nat} {call : StartCall}
    (hi : s.starts[i]? = some ⟨call, true⟩) {row : RunRow} {db' : Db}
    (hrow : row.scope.tenantId = call.tenantId) (hinsert : s.db.runs.insert? row = some db'.runs) :
    Within settings { db := db', starts := s.starts.eraseIdx i } where
  single tenantId := (List.eraseIdx_sublist _ _).countP_le.trans (h.single tenantId)
  room tenantId := by
    have hroom := h.room tenantId
    obtain ⟨hlt, hget⟩ := List.getElem?_eq_some_iff.mp hi
    have hperm := (List.getElem_cons_eraseIdx_perm hlt).countP_eq
      fun o => o.call.tenantId == tenantId && o.counted
    rw [hget, List.countP_cons] at hperm
    rw [countedOf] at hroom ⊢
    have hcount : db'.countActiveRuns tenantId ≤ s.db.countActiveRuns tenantId +
        if call.tenantId == tenantId then 1 else 0 := by
      rw [Db.countActiveRuns, Table.count, Table.insert?_rows hinsert, List.countP_append]
      refine Nat.add_le_add_left ?_ _
      rw [List.countP_singleton, hrow]
      by_cases ht : call.tenantId = tenantId <;> simp [ht]
      split <;> simp
    simp only [Bool.and_true] at hperm
    dsimp only
    omega

theorem Within.step (h : s.Within settings) (event : QuotaEvent) :
    (s.step isolation settings event).Within settings := by
  cases event with
  | lock call =>
    simp only [QuotaState.step]
    split_ifs with hblocked
    · exact h
    · exact h.lock (Bool.not_eq_true _ ▸ hblocked)
  | count i host now =>
    simp only [QuotaState.step]
    split
    · rename_i call hi
      split
      · rename_i p hcheck
        obtain ⟨_, db'⟩ := p
        exact h.count hi (call.check_room _ _ hcheck).2
      · exact h.of_sublist (List.eraseIdx_sublist _ _) fun _ => le_rfl
    · exact h
  | finish i host now =>
    simp only [QuotaState.step]
    split
    · rename_i call hi
      rw [Transaction.commit]
      split
      · rename_i lease db' hrun
        obtain ⟨row, hrow, hinsert⟩ := call.insert_inserts _ _ hrun
        exact h.finish hi hrow hinsert
      · exact h.of_sublist (List.eraseIdx_sublist _ _) fun _ => le_rfl
    · exact h
  | rollback i => exact h.of_sublist (List.eraseIdx_sublist _ _) fun _ => le_rfl
  | commit op host now =>
    simp only [QuotaState.step]
    split_ifs with hblocked
    · exact h
    · have hop : op.starts = false := by simp_all
      refine h.of_sublist (List.Sublist.refl _) fun tenantId => ?_
      exact steps_countActiveRuns_le (Call.step_writes s.db ⟨envAt settings host now, op⟩)
        (WorkflowOp.no_newRun hop)

theorem Within.run (h : s.Within settings) (events : List QuotaEvent) :
    (s.run isolation settings events).Within settings := by
  induction events generalizing s with
  | nil => exact h
  | cons event events ih => exact ih (h.step event)

end QuotaState

/-- Under either isolation no interleaving of starts with other operations takes a tenant above
its number of concurrent runs. -/
theorem activeRuns_le_quota (isolation : Isolation) (settings : Settings)
    (events : List QuotaEvent) (tenantId : String) :
    (QuotaState.run isolation settings {} events).db.countActiveRuns tenantId ≤
      settings.maxConcurrentRunsPerTenant := by
  have hinit : QuotaState.Within settings {} :=
    ⟨fun _ => Nat.zero_le 1, fun _ => Nat.zero_le _⟩
  exact Nat.le_of_add_right_le ((hinit.run events).room tenantId)

end MultiClaw
