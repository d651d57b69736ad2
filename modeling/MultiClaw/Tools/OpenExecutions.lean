import MultiClaw.Tools.System
import MultiClaw.Workflow.Fencing
import MultiClaw.Workflow.Frames

/-! The open execution of a run, and the lease under which it was written. -/
namespace MultiClaw

open Base Transaction Relation CoreToolScheduler

variable {env : Env} {db db' : Db} {context : TenantContext} {lease : RunLease}
  {ids : NewIds} {owner checkpointId : String} {α : Type}

/-! Transactions that leave the executions alone -/

/-- The executions are the same before and after. -/
def SameExecutions : Env → Db → Db → Prop := fun _ db db' => db'.executions = db.executions

theorem sameExecutions_of_steps (h : ReflTransGen (SameExecutions env) db db') :
    db'.executions = db.executions := by
  induction h with
  | refl => rfl
  | tail _ hstep ih => exact hstep.trans ih

theorem WorkflowOp.tx_same {op : WorkflowOp} (h : op.writesExecution = false) :
    Leads SameExecutions op.tx :=
  op.tx_leads ⟨fun _ _ _ => rfl, fun _ _ _ => rfl⟩ (fun _ _ _ _ => rfl) fun hwrites => by
    rw [h] at hwrites
    cases hwrites

/-! Transactions that write an execution -/

/-- The run that the lease names has its owner and token, and has not expired. -/
def Db.HeldUnder (db : Db) (now : Nat) (lease : RunLease) : Prop :=
  ∃ r ∈ db.runs.rows, contextPredicate lease.context r.scope = true ∧
    r.leaseOwner = some lease.leaseOwner ∧ r.fencingToken = lease.fencingToken ∧
    r.leaseExpiresAt.any (now < ·) = true

/-- Executions are only written while the lease holds, and only those of its run. -/
structure WritesUnder (lease : RunLease) (env : Env) (db db' : Db) : Prop where
  wrote : ∀ e ∈ db'.executions.rows, e ∉ db.executions.rows →
    db.HeldUnder env.now lease ∧ contextPredicate lease.context e.scope = true
  held : db'.HeldUnder env.now lease → db.HeldUnder env.now lease

theorem WritesUnder.refl : WritesUnder lease env db db :=
  ⟨fun _ he hne => absurd he hne, id⟩

theorem WritesUnder.trans {db'' : Db} (h : WritesUnder lease env db db')
    (h' : WritesUnder lease env db' db'') : WritesUnder lease env db db'' where
  wrote e he hne := by
    by_cases hmid : e ∈ db'.executions.rows
    · exact h.wrote e hmid hne
    · obtain ⟨hheld, hscope⟩ := h'.wrote e he hmid
      exact ⟨h.held hheld, hscope⟩
  held hheld := h.held (h'.held hheld)

theorem writesUnder_of_steps (h : ReflTransGen (WritesUnder lease env) db db') :
    WritesUnder lease env db db' := by
  induction h with
  | refl => exact .refl
  | tail _ hstep ih => exact ih.trans hstep

/-- A write to the other tables of a run is under any lease. -/
theorem WritesUnder.of_eq (hexecutions : db'.executions = db.executions)
    (hruns : db'.runs = db.runs) : WritesUnder lease env db db' where
  wrote e he hne := absurd (hexecutions ▸ he) hne
  held h := by
    unfold Db.HeldUnder at h ⊢
    rwa [hruns] at h

theorem heldUnder_of_current {r : RunRow} (hcur : db.currentRun lease env.now = some r) :
    db.HeldUnder env.now lease := by
  obtain ⟨hr, hlease⟩ := currentRun_eq_some hcur
  obtain ⟨hctx, howner, htoken, -, hlive⟩ := currentLeasePredicate_iff.mp hlease
  exact ⟨r, hr, hctx, howner, htoken, hlive⟩

/-- A write under a current lease may touch the executions of its run. -/
theorem WritesUnder.of_current {r : RunRow} (hcur : db.currentRun lease env.now = some r)
    (hscope : ∀ e ∈ db'.executions.rows, e ∉ db.executions.rows →
      contextPredicate lease.context e.scope = true) : WritesUnder lease env db db' where
  wrote e he hne := ⟨heldUnder_of_current hcur, hscope e he hne⟩
  held _ := heldUnder_of_current hcur

/-- Replacing an execution of the run writes no execution of another run. -/
theorem scope_of_mem_replace {e e' : ExecutionRow} (h : e'.keys = e.keys) {id : String}
    (hget : db.getExecution context id = some e) (hscope : e'.scope = e.scope) :
    ∀ a ∈ (db.executions.replace e e' h).rows, a ∉ db.executions.rows →
      contextPredicate context a.scope = true := by
  intro a ha hne
  obtain ⟨he, hctx, -⟩ := getExecution_mem hget
  have hkeys : e.keys ≠ [] := by simp [ExecutionRow.keys]
  rcases (Table.mem_replace_iff h he hkeys).mp ha with rfl | ⟨ha, -⟩
  · rw [hscope]
    exact hctx
  · exact absurd ha hne

theorem createExecution_under {new : WorkflowRepository.NewExecution} :
    Leads (WritesUnder lease) (WorkflowCoordinator.createExecution lease new) := by
  intro env db o db' h
  cases hcur : db.currentRun lease env.now with
  | none =>
    rw [createExecution_refused hcur o db' h]
  | some r =>
    cases o with
    | none =>
      have h : (WorkflowRepository.insertExecution _ lease new).run env db = .ok (none, db') := h
      rw [insertExecution_of_current hcur] at h
      split_ifs at h
      · cases h
        exact .refl
      · split at h <;> cases h
    | some row =>
      obtain ⟨r', executions, hcur', rfl, hinsert, rfl⟩ :=
        WorkflowCoordinator.createExecution_ensures _ _ h row rfl
      refine .single (.of_current hcur' fun e he hne => ?_)
      rcases (Table.mem_insert? hinsert).mp he with he | rfl
      · exact absurd he hne
      · exact (currentLeasePredicate_iff.mp (currentRun_eq_some hcur').2).1

theorem transitionExecution_under {executionId : String} {expected target : ExecutionStatus}
    {version : Nat} : Leads (WritesUnder lease)
      (WorkflowCoordinator.transitionExecution lease executionId expected version target) := by
  intro env db a db' h
  cases hcur : db.currentRun lease env.now with
  | none => exact (transitionExecution_refused (Q := fun _ _ => False) hcur a db' h).elim
  | some r =>
    obtain ⟨e, he, -, -, rfl⟩ := WorkflowCoordinator.transitionExecution_ensures a db' h
    exact .single (.of_current hcur (scope_of_mem_replace (e.moveTo_keys env target) he rfl))

theorem updateExecutionMetadata_under {executionId : String} {expected : ExecutionStatus}
    {version : Nat} {metadata : ExecutionMetadata} : Leads (WritesUnder lease)
      (WorkflowCoordinator.updateExecutionMetadata lease executionId expected version
        metadata) := by
  intro env db a db' h
  cases hcur : db.currentRun lease env.now with
  | none => exact (updateExecutionMetadata_refused (Q := fun _ _ => False) hcur a db' h).elim
  | some r =>
    obtain ⟨e, he, -, -, -, rfl⟩ := WorkflowCoordinator.updateExecutionMetadata_ensures a db' h
    exact .single (.of_current hcur (scope_of_mem_replace (e.fill_keys env metadata) he rfl))

theorem checkpoint_under {lease' : RunLease} {phase : CheckpointPhase} {data : FieldValues}
    {options : CheckpointOptions} : Leads (WritesUnder lease)
      (WorkflowCoordinator.checkpoint lease' phase data options) := by
  intro env db a db' h
  obtain ⟨-, checkpoints, rfl⟩ := WorkflowCoordinator.checkpoint_ensures a db' h
  exact .single (.of_eq rfl rfl)

theorem createApproval_under {lease' : RunLease} {approvalId toolCallId : String}
    {expiresAt : Nat} : Leads (WritesUnder lease)
      (WorkflowCoordinator.createApproval lease' approvalId toolCallId expiresAt) := by
  refine leads_bind ?_ fun o => ?_
  · intro env db a db' h
    cases hcur : db.currentRun lease' env.now with
    | none =>
      rw [insertApproval_of_stale hcur] at h
      cases h
      exact .refl
    | some r =>
      rw [insertApproval_of_current hcur] at h
      split at h <;> cases h
      exact .single (.of_eq rfl rfl)
  · cases o with
    | none => exact leads_throw
    | some a => exact leads_pure

/-- The two leases differ in their version and expiry at most. -/
structure RunLease.SameFence (lease' lease : RunLease) : Prop where
  context : lease'.context = lease.context
  owner : lease'.leaseOwner = lease.leaseOwner
  token : lease'.fencingToken = lease.fencingToken

theorem WritesUnder.of_sameFence {lease' : RunLease} (hsame : lease'.SameFence lease)
    (h : WritesUnder lease' env db db') : WritesUnder lease env db db' := by
  have hheld : ∀ db : Db, db.HeldUnder env.now lease' ↔ db.HeldUnder env.now lease := by
    intro db
    rw [Db.HeldUnder, Db.HeldUnder, hsame.context, hsame.owner, hsame.token]
  constructor
  · intro e he hne
    obtain ⟨h₁, h₂⟩ := h.wrote e he hne
    exact ⟨(hheld db).mp h₁, hsame.context ▸ h₂⟩
  · intro h'
    exact (hheld db).mp (h.held ((hheld db').mpr h'))

/-- Every committed run of the transaction writes under the lease. -/
theorem leads_of_sameFence {lease' : RunLease} {x : Tx α} (hsame : lease'.SameFence lease)
    (hx : Leads (WritesUnder lease') x) : Leads (WritesUnder lease) x := fun _ _ _ _ h =>
  .single ((writesUnder_of_steps (hx h)).of_sameFence hsame)

theorem transitionRun_under {target : RunStatus} :
    Ensures (WorkflowCoordinator.transitionRun lease target) env db fun lease' db' =>
      lease'.SameFence lease ∧ WritesUnder lease env db db' := by
  cases hcur : db.currentRun lease env.now with
  | none => exact transitionRun_refused hcur
  | some r =>
    intro lease' db' h
    obtain ⟨o, db₁, hmove, hlease⟩ := run_bind_eq_ok.mp h
    rw [transitionRun_of_current hcur] at hmove
    split_ifs at hmove
    cases hmove
    cases hlease
    obtain ⟨-, howner, htoken, -, -⟩ := currentLeasePredicate_iff.mp (currentRun_eq_some hcur).2
    exact ⟨⟨rfl, by simp [RunRow.lease, RunRow.moveTo, howner], htoken⟩,
      .of_current hcur fun e he hne => absurd he hne⟩

theorem persistApprovalRequest_under {call : ToolCall} {approvalId : String} :
    Leads (WritesUnder lease) (persistApprovalRequest context lease call approvalId ids) := by
  intro env db a db' h
  obtain ⟨_, _, hask, h⟩ := run_bind_eq_ok.mp h
  cases hask
  obtain ⟨lease', db₁, hmove, h⟩ := run_bind_eq_ok.mp h
  obtain ⟨hsame, hfirst⟩ := transitionRun_under lease' db₁ hmove
  -- what follows runs under the lease that the transition returned
  suffices hrest : Leads (WritesUnder lease) _ from .head hfirst (hrest h)
  refine leads_bind createApproval_under fun _ =>
    leads_bind (leads_of_sameFence hsame createExecution_under) fun o => ?_
  cases o with
  | none => exact leads_throw
  | some _ => exact leads_bind checkpoint_under fun _ => leads_pure

theorem prepareExecution_under {call : ToolCall} :
    Leads (WritesUnder lease) (prepareExecution context lease call ids) := by
  refine leads_bind createExecution_under fun o => ?_
  cases o with
  | none => exact leads_throw
  | some created =>
    exact leads_bind transitionExecution_under fun _ =>
      leads_bind checkpoint_under fun _ => leads_pure

theorem recordExternalRequestId_under {prepared : PreparedExecution}
    {externalRequestId : String} :
    Leads (WritesUnder lease) (recordExternalRequestId lease prepared externalRequestId) := by
  refine leads_bind leads_ask fun env => ?_
  dsimp only
  split_ifs
  · exact leads_throw
  · split
    · split_ifs
      · exact leads_throw
      · exact leads_pure
    · exact leads_bind updateExecutionMetadata_under fun _ => leads_pure

theorem requireExecution_under {executionId : String} :
    Leads (WritesUnder lease) (requireExecution context executionId) := by
  refine leads_bind leads_get fun db => ?_
  split
  · exact leads_throw
  · exact leads_pure

theorem prepareRecoveryExecution_under {execution : ExecutionRow}
    {canonical : CanonicalToolInput} : Leads (WritesUnder lease)
      (prepareRecoveryExecution context lease execution canonical checkpointId) := by
  unfold prepareRecoveryExecution
  have hfinal : Leads (WritesUnder lease) (do
      return (← requireExecution context execution.executionId).prepared lease) :=
    leads_bind requireExecution_under fun _ => leads_pure
  split_ifs
  · exact leads_bind requireExecution_under fun _ =>
      leads_bind transitionExecution_under fun _ => leads_bind requireExecution_under fun _ =>
        leads_bind checkpoint_under fun _ => leads_bind transitionExecution_under fun _ => hfinal
  · exact leads_bind requireExecution_under fun _ =>
      leads_bind transitionExecution_under fun _ => leads_bind checkpoint_under fun _ => hfinal
  · exact leads_pure

theorem closeExecution_under {closing : Closing} :
    Leads (WritesUnder lease) (closeExecution context lease closing ids) := by
  refine leads_bind ?_ fun out => leads_bind updateExecutionMetadata_under fun _ =>
    leads_bind checkpoint_under fun _ => leads_pure
  intro env db out db' h
  obtain ⟨memory, rfl⟩ := persistToolResult_ensures _ _ h
  exact .single (.of_eq rfl rfl)

theorem leaseForObservedResult_sameFence :
    Ensures (leaseForObservedResult lease context) env db fun lease' db' =>
      lease'.SameFence lease ∧ db' = db := by
  have hself : lease.SameFence lease := ⟨rfl, rfl, rfl⟩
  unfold leaseForObservedResult
  split_ifs with hcontext
  · exact ensures_of_error rfl
  · refine ensures_get ?_
    split
    · exact ensures_of_ok rfl ⟨hself, rfl⟩
    · split_ifs
      · exact ensures_of_ok rfl ⟨hself, rfl⟩
      · split
        · exact ensures_of_ok rfl ⟨⟨(not_not.mp hcontext).symm, rfl, rfl⟩, rfl⟩
        · exact ensures_of_ok rfl ⟨hself, rfl⟩
      · exact ensures_of_ok rfl ⟨hself, rfl⟩

theorem persistExecutionResult_under {prepared : PreparedExecution} {toolName : String}
    {callId : Option String} {result : ToolExecutionResult}
    {terminalStatus : Option ExecutionStatus} : Leads (WritesUnder prepared.lease)
      (persistExecutionResult prepared toolName context callId result terminalStatus ids) := by
  intro env db a db' h
  rw [persistExecutionResult] at h
  split at h
  · cases h
  · obtain ⟨lease', db₁, hread, hclose⟩ := run_bind_eq_ok.mp h
    obtain ⟨hsame, rfl⟩ := leaseForObservedResult_sameFence lease' db₁ hread
    suffices hrest : Leads (WritesUnder prepared.lease) _ from hrest hclose
    exact leads_bind (leads_of_sameFence hsame closeExecution_under) fun _ => leads_pure

theorem SchedulerClosing.tx_under {c : SchedulerClosing} :
    Leads (WritesUnder (c.presented lease)) (c.tx context lease ids) := by
  cases c with
  | dispatched | recovered | uncertain => exact leads_map persistExecutionResult_under
  | blocked => exact leads_map closeExecution_under
  | failed execution toolName =>
    rw [tx, failRecovery, presented]
    split_ifs
    · exact leads_bind closeExecution_under fun _ => leads_pure
    · exact leads_bind persistExecutionResult_under fun _ => leads_pure
    · exact leads_bind persistExecutionResult_under fun _ => leads_pure

/-- Whatever a transaction writes to an execution is written under the lease that it presents. -/
theorem ToolOp.tx_under (op : ToolOp) : Ensures op.tx env db fun _ db' =>
    ∀ e ∈ db'.executions.rows, e ∉ db.executions.rows → ∃ lease, op.lease? = some lease ∧
      db.HeldUnder env.now lease ∧ contextPredicate lease.context e.scope = true := by
  have hunder : ∀ {lease : RunLease} {β : Type} {x : Tx β}, op.lease? = some lease →
      Leads (WritesUnder lease) x → Ensures x env db fun _ db' =>
        ∀ e ∈ db'.executions.rows, e ∉ db.executions.rows → ∃ lease, op.lease? = some lease ∧
          db.HeldUnder env.now lease ∧ contextPredicate lease.context e.scope = true := by
    intro lease β x hlease hx a db' h e he hne
    exact ⟨lease, hlease, (writesUnder_of_steps (hx h)).wrote e he hne⟩
  cases op with
  | workflow op =>
    cases hop : op.writesExecution with
    | false =>
      intro a db' h e he hne
      have hsame := sameExecutions_of_steps (leads_map (WorkflowOp.tx_same hop) h)
      exact absurd (hsame ▸ he) hne
    | true =>
      cases op with
      | createExecution => exact hunder rfl (leads_map (leads_map createExecution_under))
      | transitionExecution => exact hunder rfl (leads_map (leads_map transitionExecution_under))
      | updateExecutionMetadata =>
        exact hunder rfl (leads_map (leads_map updateExecutionMetadata_under))
      | _ => cases hop
  | prepareExecution => exact hunder rfl (leads_map prepareExecution_under)
  | persistApprovalRequest => exact hunder rfl (leads_map persistApprovalRequest_under)
  | recordExternalRequestId => exact hunder rfl (leads_map recordExternalRequestId_under)
  | prepareRecoveryExecution => exact hunder rfl (leads_map prepareRecoveryExecution_under)
  | close => exact hunder rfl SchedulerClosing.tx_under

/-! Whole runs -/

theorem WritesTo.follows {r : RunRow} (h : WritesTo db db') (hr : r ∈ db.runs.rows) :
    ∃ r' ∈ db'.runs.rows, r'.Follows r := by
  induction h with
  | refl => exact ⟨r, hr, .refl r⟩
  | tail _ hstep ih =>
    obtain ⟨env, hstep⟩ := hstep
    obtain ⟨r₁, hr₁, h₁⟩ := ih
    obtain ⟨r₂, hr₂, h₂⟩ := hstep.follows hr₁
    exact ⟨r₂, hr₂, h₁.trans h₂⟩

/-- The turn after these earlier ones wrote the execution as it is, under a lease that the run
had at that moment. -/
structure WrittenBy (before : List ToolTurn) (turn : ToolTurn) (e : ExecutionRow)
    (lease : RunLease) (r : RunRow) : Prop where
  presented : turn.op.lease? = some lease
  row : r ∈ (ToolTurn.runAll .empty before).runs.rows
  scope : r.scope = e.scope
  context : contextPredicate lease.context r.scope = true
  owner : r.leaseOwner = some lease.leaseOwner
  token : r.fencingToken = lease.fencingToken
  unexpired : r.leaseExpiresAt.any (turn.env.now < ·) = true
  fresh : e ∉ (ToolTurn.runAll .empty before).executions.rows
  stored : e ∈ (turn.step (ToolTurn.runAll .empty before)).executions.rows

theorem writtenBy_of_new {before : List ToolTurn} {turn : ToolTurn} {e : ExecutionRow}
    (he : e ∈ (turn.step (ToolTurn.runAll .empty before)).executions.rows)
    (hne : e ∉ (ToolTurn.runAll .empty before).executions.rows) :
    ∃ lease r, WrittenBy before turn e lease r := by
  have hcommit : ∃ lease, turn.op.lease? = some lease ∧
      (ToolTurn.runAll .empty before).HeldUnder turn.env.now lease ∧
      contextPredicate lease.context e.scope = true := by
    unfold ToolTurn.step Transaction.commit at he
    split at he
    · exact turn.op.tx_under _ _ ‹_› e he hne
    · exact absurd he hne
  obtain ⟨lease, hlease, ⟨r, hr, hctx, howner, htoken, hlive⟩, hscope⟩ := hcommit
  exact ⟨lease, r, hlease, hr, scope_eq_of_contextPredicate hctx hscope, hctx, howner, htoken,
    hlive, hne, he⟩

/-- Every stored execution was last written by some turn, and has been there ever since. -/
theorem exists_writtenBy (turns : List ToolTurn) {e : ExecutionRow}
    (he : e ∈ (ToolTurn.runAll .empty turns).executions.rows) :
    ∃ before turn after lease r, turns = before ++ turn :: after ∧
      WrittenBy before turn e lease r ∧ ∀ later, later <+: after →
        e ∈ (ToolTurn.runAll .empty (before ++ turn :: later)).executions.rows := by
  induction turns using List.reverseRecOn with
  | nil => exact absurd he List.not_mem_nil
  | append_singleton turns turn ih =>
    rw [ToolTurn.runAll_append] at he
    by_cases hold : e ∈ (ToolTurn.runAll .empty turns).executions.rows
    · obtain ⟨before, first, after, lease, r, rfl, hwritten, hkept⟩ := ih hold
      refine ⟨before, first, after ++ [turn], lease, r, by simp, hwritten, fun later hlater => ?_⟩
      rcases List.prefix_concat_iff.mp hlater with rfl | hlater
      · have hsplit : before ++ first :: (after ++ [turn]) =
            (before ++ first :: after) ++ [turn] := by simp
        rw [hsplit, ToolTurn.runAll_append]
        exact he
      · exact hkept later hlater
    · obtain ⟨lease, r, hwritten⟩ := writtenBy_of_new he hold
      refine ⟨turns, turn, [], lease, r, rfl, hwritten, fun later hlater => ?_⟩
      rw [List.prefix_nil.mp hlater, ToolTurn.runAll_append]
      exact he

theorem Db.oneActive_empty : Db.empty.OneActive := fun _ ha => absurd ha List.not_mem_nil

/-- In every run of the system a run of the agent has one open execution at most. It was last
written while its run had the owner and token of the lease that was presented, and the row of the
run has not gone back since. -/
theorem one_open_execution_under_lease (turns : List ToolTurn) :
    (ToolTurn.runAll .empty turns).OneActive ∧
      ∀ e ∈ (ToolTurn.runAll .empty turns).executions.rows, e.status.isTerminal = false →
        ∃ before turn after lease r, turns = before ++ turn :: after ∧
          WrittenBy before turn e lease r ∧
          (∀ later, later <+: after →
            e ∈ (ToolTurn.runAll .empty (before ++ turn :: later)).executions.rows) ∧
          ∃ current ∈ (ToolTurn.runAll .empty turns).runs.rows, current.Follows r := by
  refine ⟨(ToolTurn.runAll_writesTo .empty turns).oneActive Db.oneActive_empty, ?_⟩
  intro e he _
  obtain ⟨before, turn, after, lease, r, rfl, hwritten, hkept⟩ := exists_writtenBy turns he
  refine ⟨before, turn, after, lease, r, rfl, hwritten, hkept, ?_⟩
  rw [ToolTurn.runAll_append]
  exact (ToolTurn.runAll_writesTo _ (turn :: after)).follows hwritten.row

end MultiClaw
