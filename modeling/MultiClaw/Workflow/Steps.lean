import MultiClaw.Workflow.Coordinator

/-! What one write can do to the run-scoped tables. -/
namespace MultiClaw

open Base Transaction WorkflowRepository

/-- The ways in which a run row changes. -/
inductive RunChange (env : Env) (r : RunRow) : RunRow → Prop where
  | takeOver (owner : String) (hlive : r.status.isTerminal = false)
      (hexpired : r.leaseExpiresAt.any (· ≤ env.now) = true) : RunChange env r (r.grant env owner)
  | resume (owner : String) (hwait : r.status = .awaitingUser) :
      RunChange env r (r.resume env owner)
  | resumePlan (owner : String) (planVersion : Nat) (hwait : r.status = .awaitingUser) :
      RunChange env r (r.resumePlan env owner planVersion)
  | fence (owner : String) (hwait : r.status = .awaitingUser) : RunChange env r (r.grant env owner)
  | cancelWaiting (owner : String) (hwait : r.status = .awaitingUser) :
      RunChange env r (r.cancelWaiting env owner)
  | cancelRequest (hlive : r.status.isTerminal = false) (hfirst : r.cancelRequestedAt = none) :
      RunChange env r (r.cancelRequest env)
  | refresh (hlease : r.leaseExpiresAt.any (env.now < ·) = true) : RunChange env r (r.refresh env)
  | transition (target : RunStatus) (hlegal : target ∈ r.status.legalTargets)
      (hlease : r.leaseExpiresAt.any (env.now < ·) = true) : RunChange env r (r.moveTo env target)

/-- The ways in which an execution row changes. -/
inductive ExecutionChange (env : Env) (e : ExecutionRow) : ExecutionRow → Prop where
  | transition (target : ExecutionStatus) (hlegal : target ∈ e.status.legalTargets) :
      ExecutionChange env e (e.moveTo env target)
  | metadata (m : ExecutionMetadata)
      (hlegal : ∀ target ∈ m.targetStatus, target ∈ e.status.legalTargets)
      (hexternal : writable e.externalRequestId m.externalRequestId = true)
      (href : writable e.resultRef m.resultRef = true)
      (hdigest : writable e.resultDigest m.resultDigest = true) :
      ExecutionChange env e (e.fill env m)

/-- An approval leaves the waiting status once. -/
inductive ApprovalChange (env : Env) (a : ApprovalRow) : ApprovalRow → Prop where
  | resolve (approved : Bool) (hwait : a.status = .awaitingUser) (hopen : env.now < a.expiresAt) :
      ApprovalChange env a (a.close env (if approved then .approved else .rejected))
  | expire (hwait : a.status = .awaitingUser) (hlate : a.expiresAt ≤ env.now) :
      ApprovalChange env a (a.close env .expired)

theorem RunChange.scope_eq {env : Env} {r r' : RunRow} (h : RunChange env r r') :
    r'.scope = r.scope := by
  cases h with
  | cancelRequest => exact r.cancelRequest_scope env
  | _ => rfl

theorem RunChange.keys_eq {env : Env} {r r' : RunRow} (h : RunChange env r r') :
    r'.keys = r.keys := by
  rw [RunRow.keys, RunRow.keys, h.scope_eq]

theorem ExecutionChange.keys_eq {env : Env} {e e' : ExecutionRow} (h : ExecutionChange env e e') :
    e'.keys = e.keys := by
  cases h <;> rfl

theorem ApprovalChange.keys_eq {env : Env} {a a' : ApprovalRow} (h : ApprovalChange env a a') :
    a'.keys = a.keys := by
  cases h <;> rfl

/-- The tables that leases protect are the same. -/
def SameWorkflow (db db' : Db) : Prop :=
  db'.runs = db.runs ∧ db'.executions = db.executions ∧ db'.approvals = db.approvals ∧
    db'.checkpoints = db.checkpoints

/-- The writes that decide which runs a plan has, and whether a run that has ended still has work
to do. -/
inductive Effect where
  | newRun (scope : RunScope) (plan : Option PlanBinding)
  | endRun (scope : RunScope)
  | newExecution (scope : RunScope) (status : ExecutionStatus)

/-- One write, with the effects that it may have. Rows that belong to a run are written under the
lease that is current for it. -/
inductive Step (may : Effect → Prop) (env : Env) : Db → Db → Prop where
  | insertRun {db : Db} (row : RunRow) (runs) (hversion : row.version = 1)
      (htoken : row.fencingToken = 1) (hlive : row.status.isTerminal = false)
      (hfinished : row.finishedAt = none) (hmay : may (.newRun row.scope row.plan))
      (hinsert : db.runs.insert? row = some runs) : Step may env db { db with runs }
  | changeRun {db : Db} (r r' : RunRow) (hr : r ∈ db.runs.rows) (h : RunChange env r r')
      (hend : r'.status.isTerminal = true → r.status.isTerminal = false → may (.endRun r.scope)) :
      Step may env db { db with runs := db.runs.replace r r' h.keys_eq }
  | insertApproval {db : Db} (lease : RunLease) (run : RunRow) (row : ApprovalRow) (approvals)
      (hlease : db.currentRun lease env.now = some run) (hscope : row.scope = run.scope)
      (hwait : row.status = .awaitingUser)
      (hinsert : db.approvals.insert? row = some approvals) : Step may env db { db with approvals }
  | changeApproval {db : Db} (a a' : ApprovalRow) (ha : a ∈ db.approvals.rows)
      (h : ApprovalChange env a a') :
      Step may env db { db with approvals := db.approvals.replace a a' h.keys_eq }
  | insertExecution {db : Db} (lease : RunLease) (run : RunRow) (row : ExecutionRow) (executions)
      (hlease : db.currentRun lease env.now = some run) (hscope : row.scope = run.scope)
      (hidle : ∀ e ∈ db.executions.rows, e.scope = run.scope → e.status.isTerminal = true)
      (hversion : row.version = 1) (hmay : may (.newExecution row.scope row.status))
      (hbudget : run.plan.isSome = true →
        (roundsCharged db run.scope : Int) < WorkflowCoordinator.planRoundBudget env.settings)
      (hinsert : db.executions.insert? row = some executions) :
      Step may env db { db with executions }
  | changeExecution {db : Db} (lease : RunLease) (run : RunRow) (e e' : ExecutionRow)
      (hlease : db.currentRun lease env.now = some run) (he : e ∈ db.executions.rows)
      (hscope : e.scope = run.scope) (h : ExecutionChange env e e') :
      Step may env db { db with executions := db.executions.replace e e' h.keys_eq }
  | insertCheckpoint {db : Db} (lease : RunLease) (run : RunRow) (row : CheckpointRow) (checkpoints)
      (hlease : db.currentRun lease env.now = some run) (hscope : row.scope = run.scope)
      (hinsert : db.checkpoints.insert? row = some checkpoints) :
      Step may env db { db with checkpoints }
  | saveMemory {db : Db} (memory) : Step may env db { db with memory }

/-- Every committed run of the transaction is a sequence of writes with these effects. -/
abbrev Writes {α : Type} (may : Effect → Prop) (x : Tx α) : Prop := Leads (Step may) x

/-! Lookups by scope -/

variable {env : Env} {db : Db} {context : TenantContext} {lease : RunLease} {r : RunRow}
  {scope : RunScope}

theorem contextPredicate_iff : contextPredicate context scope = true ↔
    context.scope? = some scope := by
  simp [contextPredicate]

theorem scope_eq_of_contextPredicate {s s' : RunScope} (h : contextPredicate context s = true)
    (h' : contextPredicate context s' = true) : s = s' := by
  rw [contextPredicate_iff] at h h'
  exact Option.some.inj (h.symm.trans h')

theorem pins_runs {p : RunRow → Bool}
    (h : ∀ r, p r = true → contextPredicate context r.scope = true) : db.runs.Pins p := by
  intro a _ b _ ha hb
  have hs := scope_eq_of_contextPredicate (h a ha) (h b hb)
  exact ⟨a.scope.runId, by simp [RunRow.keys], by simp [RunRow.keys, hs]⟩

theorem pins_executions {p : ExecutionRow → Bool} {executionId : String}
    (h : ∀ e, p e = true → e.executionId = executionId) : db.executions.Pins p := by
  intro a _ b _ ha hb
  exact ⟨.id executionId, by simp [ExecutionRow.keys, h a ha],
    by simp [ExecutionRow.keys, h b hb]⟩

theorem pins_approvals {p : ApprovalRow → Bool} {approvalId : String}
    (h : ∀ a, p a = true → a.approvalId = approvalId) : db.approvals.Pins p := by
  intro a _ b _ ha hb
  exact ⟨.id approvalId, by simp [ApprovalRow.keys, h a ha], by simp [ApprovalRow.keys, h b hb]⟩

theorem currentLeasePredicate_iff {now : Nat} : currentLeasePredicate lease now r = true ↔
    contextPredicate lease.context r.scope = true ∧ r.leaseOwner = some lease.leaseOwner ∧
      r.fencingToken = lease.fencingToken ∧ r.version = lease.version ∧
      r.leaseExpiresAt.any (now < ·) = true := by
  simp [currentLeasePredicate, and_assoc]

theorem currentRun_eq_some (h : db.currentRun lease env.now = some r) :
    r ∈ db.runs.rows ∧ currentLeasePredicate lease env.now r = true :=
  Table.mem_of_find? h

end MultiClaw
