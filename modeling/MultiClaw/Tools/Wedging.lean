import MultiClaw.Tools.Closings
import MultiClaw.Tools.Observation
import MultiClaw.Workflow.System

/-! Whether an execution that the scheduler closed can stand in the way of its run. -/
namespace MultiClaw

open Base Transaction Relation CoreToolScheduler

variable {env : Env} {db db' : Db} {context : TenantContext} {lease : RunLease} {ids : NewIds}
  {e e' : ExecutionRow} {id : String} {may : Effect → Prop} {c : SchedulerClosing}

/-- Any number of writes, at any times, by any callers. -/
def WritesTo : Db → Db → Prop := ReflTransGen fun db db' => ∃ env, Step (fun _ => True) env db db'

/-- A run has at most one execution that is not terminal. -/
def Db.OneActive (db : Db) : Prop :=
  ∀ e ∈ db.executions.rows, ∀ e' ∈ db.executions.rows, e.scope = e'.scope →
    e.status.isTerminal = false → e'.status.isTerminal = false → e = e'

theorem ExecutionChange.status_of_closed (h : ExecutionChange env e e')
    (hclosed : e.status.isOpen = false) : e'.status = e.status := by
  cases h with
  | transition target hlegal =>
    have := ExecutionStatus.isOpen_of_legal hlegal
    simp_all
  | metadata m hlegal =>
    cases htarget : m.targetStatus with
    | none => simp [ExecutionRow.fill, htarget]
    | some target =>
      have := ExecutionStatus.isOpen_of_legal (hlegal target htarget)
      simp_all

theorem ExecutionStatus.not_isOpen_of_isTerminal {s : ExecutionStatus} (h : s.isTerminal = true) :
    s.isOpen = false := by
  cases s <;> simp_all [isOpen, isTerminal]

theorem ExecutionChange.active (h : ExecutionChange env e e')
    (hactive : e'.status.isTerminal = false) : e.status.isTerminal = false := by
  by_contra hterm
  have hterm : e.status.isTerminal = true := by simpa using hterm
  rw [h.status_of_closed (ExecutionStatus.not_isOpen_of_isTerminal hterm), hterm] at hactive
  cases hactive

theorem ExecutionChange.scope_eq (h : ExecutionChange env e e') : e'.scope = e.scope := by
  cases h <;> rfl

theorem ExecutionChange.id_eq (h : ExecutionChange env e e') :
    e'.executionId = e.executionId := by
  cases h <;> rfl

theorem Step.oneActive (h : Step may env db db') (hone : db.OneActive) : db'.OneActive := by
  cases h with
  | insertExecution lease run row executions _ hscope hidle _ _ _ hinsert =>
    intro a ha b hb hab hactive hactive'
    rcases (Table.mem_insert? hinsert).mp ha with ha | rfl <;>
      rcases (Table.mem_insert? hinsert).mp hb with hb | rfl
    · exact hone a ha b hb hab hactive hactive'
    · simp [hidle a ha (hab.trans hscope)] at hactive
    · simp [hidle b hb (hab.symm.trans hscope)] at hactive'
    · rfl
  | changeExecution lease run e e' _ he _ hchange =>
    have hne : e.keys ≠ [] := by simp [ExecutionRow.keys]
    have hmem := fun a => Table.mem_replace_iff (a := a) hchange.keys_eq he hne
    intro a ha b hb hab hactive hactive'
    rcases (hmem a).mp ha with rfl | ⟨ha', hae⟩ <;> rcases (hmem b).mp hb with rfl | ⟨hb', hbe⟩
    · rfl
    · exact absurd (hone e he b hb' (hchange.scope_eq.symm.trans hab) (hchange.active hactive)
        hactive').symm hbe
    · exact absurd (hone a ha' e he (hab.trans hchange.scope_eq) hactive
        (hchange.active hactive')) hae
    · exact hone a ha' b hb' hab hactive hactive'
  | _ => exact hone

/-- An execution that was closed keeps its status. -/
theorem Step.keeps_closed (h : Step may env db db') (he : e ∈ db.executions.rows)
    (hclosed : e.status.isOpen = false) :
    ∃ e' ∈ db'.executions.rows, e'.executionId = e.executionId ∧ e'.status = e.status := by
  cases h with
  | insertExecution lease run row executions _ _ _ _ _ _ hinsert =>
    exact ⟨e, (Table.mem_insert? hinsert).mpr (.inl he), rfl, rfl⟩
  | changeExecution lease run a a' _ ha _ hchange =>
    have hne : a.keys ≠ [] := by simp [ExecutionRow.keys]
    have hmem := fun b => Table.mem_replace_iff (a := b) hchange.keys_eq ha hne
    by_cases hea : e = a
    · subst hea
      exact ⟨a', (hmem a').mpr (.inl rfl), hchange.id_eq, hchange.status_of_closed hclosed⟩
    · exact ⟨e, (hmem e).mpr (.inr ⟨he, hea⟩), rfl, rfl⟩
  | _ => exact ⟨e, he, rfl, rfl⟩

theorem WritesTo.oneActive (h : WritesTo db db') (hone : db.OneActive) : db'.OneActive := by
  induction h with
  | refl => exact hone
  | tail _ hstep ih =>
    obtain ⟨env, hstep⟩ := hstep
    exact hstep.oneActive ih

theorem WritesTo.keeps_closed (h : WritesTo db db') (he : e ∈ db.executions.rows)
    (hclosed : e.status.isOpen = false) :
    ∃ e' ∈ db'.executions.rows, e'.executionId = e.executionId ∧ e'.status = e.status := by
  induction h with
  | refl => exact ⟨e, he, rfl, rfl⟩
  | tail _ hstep ih =>
    obtain ⟨env, hstep⟩ := hstep
    obtain ⟨a, ha, hid, hstatus⟩ := ih
    obtain ⟨b, hb, hid', hstatus'⟩ := hstep.keeps_closed ha (hstatus ▸ hclosed)
    exact ⟨b, hb, hid'.trans hid, hstatus'.trans hstatus⟩

/-! The closings are writes -/

theorem persistToolResult_writes {memoryId content toolCallId toolName executionId : String}
    {status : ExecutionStatus} :
    Writes may (persistToolResult context memoryId content toolCallId toolName executionId
      status) := by
  intro env db out db' h
  obtain ⟨memory, rfl⟩ := persistToolResult_ensures _ _ h
  exact .single (.saveMemory memory)

theorem closeExecution_writes {closing : Closing} :
    Writes may (closeExecution context lease closing ids) :=
  leads_bind persistToolResult_writes fun _ =>
    leads_bind WorkflowCoordinator.updateExecutionMetadata_writes fun _ =>
      leads_bind WorkflowCoordinator.checkpoint_writes fun _ => leads_pure

theorem persistExecutionResult_writes {prepared : PreparedExecution} {toolName : String}
    {callId : Option String} {result : ToolExecutionResult}
    {terminalStatus : Option ExecutionStatus} :
    Writes may (persistExecutionResult prepared toolName context callId result terminalStatus
      ids) := by
  rw [persistExecutionResult]
  split
  · exact leads_throw
  · refine leads_bind ?_ fun lease => leads_bind closeExecution_writes fun _ => leads_pure
    intro env db lease db' h
    rw [leaseForObservedResult_ensures _ _ h]

theorem prepareExecution_writes {call : ToolCall} :
    Writes (fun _ => True) (prepareExecution context lease call ids) := by
  refine leads_bind (WorkflowCoordinator.createExecution_writes fun _ _ => trivial) fun o => ?_
  cases o with
  | none => exact leads_throw
  | some created =>
    exact leads_bind WorkflowCoordinator.transitionExecution_writes fun _ =>
      leads_bind WorkflowCoordinator.checkpoint_writes fun _ => leads_pure

theorem SchedulerClosing.tx_writes : Writes may (c.tx context lease ids) := by
  cases c with
  | dispatched | recovered | uncertain => exact leads_map persistExecutionResult_writes
  | blocked => exact leads_map closeExecution_writes
  | failed execution toolName =>
    rw [tx, failRecovery]
    split
    · exact leads_bind closeExecution_writes fun _ => leads_pure
    · exact leads_bind persistExecutionResult_writes fun _ => leads_pure

theorem WritesTo.of_writes {α : Type} {x : Tx α} {a : α} (hx : Writes (fun _ => True) x)
    (h : x.run env db = .ok (a, db')) : WritesTo db db' :=
  ReflTransGen.mono (fun _ _ hstep => ⟨env, hstep⟩) _ _ (hx h)

namespace SchedulerClosing

/-- The call failed, or was cancelled, before the tool was started. -/
def beforeDispatch : SchedulerClosing → Bool
  | dispatched _ _ _ .cancelledBeforeDispatch | dispatched _ _ _ (.raised false) => true
  | _ => false

theorem status_of_beforeDispatch (h : c.beforeDispatch = true) : c.status = .failedRetryable := by
  unfold beforeDispatch at h
  split at h
  · rfl
  · rfl
  · cases h

theorem isTerminal_terminalExecutionStatus (result : ToolExecutionResult) :
    (terminalExecutionStatus result).isTerminal = true := by
  unfold terminalExecutionStatus
  split_ifs <;> rfl

theorem isTerminal_status (h : c.beforeDispatch = false) : c.status.isTerminal = true := by
  cases c with
  | dispatched prepared toolName callId outcome =>
    rcases outcome with result | _ | _ | _
    · exact isTerminal_terminalExecutionStatus result
    · cases h
    · cases h
    · simp only [status, DispatchOutcome.status, DispatchOutcome.terminalStatus]
      split_ifs <;> rfl
  | recovered prepared toolName toolCallId result =>
    exact isTerminal_terminalExecutionStatus result
  | uncertain => rfl
  | blocked execution status detail => cases status <;> rfl
  | failed execution toolName =>
    simp only [status]
    split_ifs <;> rfl

theorem status_not_isOpen (c : SchedulerClosing) : c.status.isOpen = false := by
  cases h : c.beforeDispatch with
  | true =>
    rw [status_of_beforeDispatch h]
    rfl
  | false => exact ExecutionStatus.not_isOpen_of_isTerminal (isTerminal_status h)

end SchedulerClosing

/-- The execution that was closed is found in every later state, with the status it was left in. -/
theorem WritesTo.closed {db₁ db₂ : Db}
    (hclose : (c.tx context lease ids).run env db = .ok ((), db₁))
    (hlater : WritesTo db₁ db₂) (he : db₂.executionById c.executionId = some e) :
    e.status = c.status := by
  obtain ⟨a, metadata, memory, checkpoints, ha, hid, hstatus, rfl⟩ :=
    SchedulerClosing.tx_ensures _ _ hclose
  have hne : a.keys ≠ [] := by simp [ExecutionRow.keys]
  have hfilled : (a.fill env metadata).status = c.status := by simp [ExecutionRow.fill, hstatus]
  obtain ⟨b, hb, hidb, hstatusb⟩ := hlater.keeps_closed (e := a.fill env metadata)
    ((Table.mem_replace_iff (a.fill_keys env metadata) ha hne).mpr (.inl rfl))
    (hfilled ▸ c.status_not_isOpen)
  have hb' := executionById_of_mem hb
  rw [hidb] at hb'
  rw [← hid] at he
  rw [← Option.some.inj (hb'.symm.trans he), hstatusb, hfilled]

/-- Some execution of the run other than this one is not terminal. -/
def Db.BusyBeside (db : Db) (scope : RunScope) (id : String) : Prop :=
  ∃ e ∈ db.executions.rows, e.scope = scope ∧ e.executionId ≠ id ∧ e.status.isTerminal = false

/-- Neither a new tool call nor the completion of the run is refused on account of the execution:
each refusal has another one to blame. -/
def Db.Unwedged (db : Db) (env : Env) (lease : RunLease) (scope : RunScope) (id : String) : Prop :=
  (∀ new db', (WorkflowCoordinator.createExecution lease new).run env db = .ok (none, db') →
    db.BusyBeside scope id) ∧
  ((WorkflowCoordinator.finishRun lease .completed).run env db = .error (.invalidTransition
    "run cannot complete while executions are nonterminal") → db.BusyBeside scope id)

variable {r : RunRow}

theorem busyBeside_of_terminal (he : db.executionById id = some e)
    (hterm : e.status.isTerminal = true)
    (hbusy : ∃ a ∈ db.executions.rows, a.scope = r.scope ∧ a.status.isTerminal = false) :
    db.BusyBeside r.scope id := by
  obtain ⟨a, ha, hscope, hactive⟩ := hbusy
  refine ⟨a, ha, hscope, ?_, hactive⟩
  rintro rfl
  have hae : a = e := Option.some.inj ((executionById_of_mem ha).symm.trans he)
  simp [hae, hterm] at hactive

theorem illegalRunTransition_completed_ne (s : RunStatus) :
    WorkflowRepository.illegalRunTransition s .completed ≠
      .invalidTransition "run cannot complete while executions are nonterminal" := by
  cases s <;> decide

/-- A run is kept from completing by the executions that are not terminal. -/
theorem finishRun_completed_refused_iff (hcur : db.currentRun lease env.now = some r) :
    (WorkflowCoordinator.finishRun lease .completed).run env db = .error (.invalidTransition
        "run cannot complete while executions are nonterminal") ↔
      ∃ a ∈ db.executions.rows, a.scope = r.scope ∧ a.status.isTerminal = false := by
  have hctx := (currentLeasePredicate_iff.mp (currentRun_eq_some hcur).2).1
  have hbusy : db.hasNonterminalExecution lease.context = true ↔
      ∃ a ∈ db.executions.rows, a.scope = r.scope ∧ a.status.isTerminal = false := by
    simp only [Db.hasNonterminalExecution, Table.any, List.any_eq_true, Bool.and_eq_true,
      Bool.not_eq_true']
    refine exists_congr fun a => and_congr_right fun _ => and_congr_left fun _ => ?_
    exact ⟨fun h => scope_eq_of_contextPredicate h hctx, fun h => h ▸ hctx⟩
  have hrun : (WorkflowCoordinator.finishRun lease .completed).run env db =
      (if db.hasNonterminalExecution lease.context = true then
        Transaction.throw (.invalidTransition
          "run cannot complete while executions are nonterminal")
      else WorkflowCoordinator.transitionRun lease .completed).run env db := by
    simp [WorkflowCoordinator.finishRun, RunStatus.isTerminal, run_bind]
  rw [← hbusy, hrun]
  split_ifs with h
  · simp [h]
  · simp only [h, WorkflowCoordinator.transitionRun, run_bind, transitionRun_of_current hcur]
    split_ifs
    · simp [WorkflowCoordinator.orStale]
    · simp [illegalRunTransition_completed_ne]

theorem unwedged_of_terminal (hcur : db.currentRun lease env.now = some r)
    (he : db.executionById id = some e) (hterm : e.status.isTerminal = true) :
    db.Unwedged env lease r.scope id := by
  constructor
  · intro new db' h
    refine busyBeside_of_terminal he hterm ?_
    have h : (WorkflowRepository.insertExecution (some (WorkflowCoordinator.planRoundBudget
      env.settings)) lease new).run env db = .ok (none, db') := h
    rw [insertExecution_of_current hcur] at h
    split_ifs at h with _ hbusy
    · simpa [Table.any] using hbusy
    · split at h <;> cases h
  · intro h
    exact busyBeside_of_terminal he hterm ((finishRun_completed_refused_iff hcur).mp h)

/-- A closing leaves its run free to call tools and to complete, unless the call failed before it
was dispatched. -/
theorem closing_unwedged_iff {env₂ : Env} {lease₂ : RunLease} {db₁ db₂ : Db}
    (hstart : WritesTo .empty db)
    (hclose : (c.tx context lease ids).run env db = .ok ((), db₁)) (hlater : WritesTo db₁ db₂)
    (hcur : db₂.currentRun lease₂ env₂.now = some r)
    (he : db₂.executionById c.executionId = some e) (hscope : e.scope = r.scope) :
    db₂.Unwedged env₂ lease₂ r.scope c.executionId ↔ c.beforeDispatch = false := by
  have hstatus := WritesTo.closed hclose hlater he
  constructor
  · intro hfree
    by_contra hbefore
    have hactive : e.status.isTerminal = false := by
      rw [hstatus, SchedulerClosing.status_of_beforeDispatch (by simpa using hbefore)]
      rfl
    obtain ⟨hmem, hid⟩ := mem_of_executionById he
    obtain ⟨a, ha, hscopea, hother, hactivea⟩ := hfree.2
      ((finishRun_completed_refused_iff hcur).mpr ⟨e, hmem, hscope, hactive⟩)
    have hone : db₂.OneActive := by
      refine hlater.oneActive (WritesTo.oneActive (WritesTo.of_writes
        SchedulerClosing.tx_writes hclose) (hstart.oneActive ?_))
      intro a ha
      cases ha
    exact hother (hone a ha e hmem (hscopea.trans hscope.symm) hactivea hactive ▸ hid)
  · intro hafter
    exact unwedged_of_terminal hcur he (hstatus ▸ SchedulerClosing.isTerminal_status hafter)

/-! A run that was started, one call that was prepared, and its closing -/

def sampleLease : RunLease := ⟨sampleContext, "a", 1, 1, 20000⟩

def sampleClosing (prepared : PreparedExecution) (outcome : DispatchOutcome) : SchedulerClosing :=
  .dispatched prepared sampleCall.toolName sampleCall.callId outcome

/-- The prepared execution, with the tables before and after the closing. -/
def sampleClosed (outcome : DispatchOutcome) : Option (PreparedExecution × Db × Db) :=
  match ((WorkflowCoordinator.startRun sampleContext "a") >>= fun lease =>
      prepareExecution sampleContext lease sampleCall
        { executionId := "00000000-0000-0000-0000-000000000002"
          checkpointId := "dispatching" }).run sampleEnv .empty with
  | .error _ => none
  | .ok (prepared, db) =>
    match ((sampleClosing prepared outcome).tx sampleContext sampleLease sampleIds).run sampleEnv
      db with
    | .error _ => none
    | .ok (_, db₁) => some (prepared, db, db₁)

theorem sampleClosed_writes {outcome : DispatchOutcome} {prepared : PreparedExecution}
    {db₁ : Db} (h : sampleClosed outcome = some (prepared, db, db₁)) :
    WritesTo .empty db ∧ ((sampleClosing prepared outcome).tx sampleContext sampleLease
      sampleIds).run sampleEnv db = .ok ((), db₁) := by
  unfold sampleClosed at h
  split at h
  · cases h
  · rename_i hprepare
    split at h
    · cases h
    · rename_i hclose
      cases h
      exact ⟨WritesTo.of_writes (leads_bind
        (WorkflowCoordinator.startRun_writes fun _ _ => trivial) fun _ => prepareExecution_writes)
        hprepare, hclose⟩

/-- What a later caller finds of the closed execution and its run. -/
def sampleSeen (outcome : DispatchOutcome) : Option (ExecutionStatus × Bool × Bool) := do
  let (prepared, _, db₁) ← sampleClosed outcome
  let run ← db₁.currentRun sampleLease sampleEnv.now
  let e ← db₁.executionById prepared.executionId
  guard (e.scope = run.scope ∧ run.status = .running)
  return (e.status, db₁.hasNonterminalExecution sampleContext,
    db₁.executions.rows.all (·.executionId == prepared.executionId))

/-- The result of a call that returned does not keep its run from anything. -/
theorem returned_closing_unwedged : ∃ prepared db db₁ r e,
    sampleClosed (.returned ⟨.success, "done", none⟩) = some (prepared, db, db₁) ∧
      db₁.currentRun sampleLease sampleEnv.now = some r ∧
      db₁.executionById prepared.executionId = some e ∧ e.scope = r.scope ∧
      db₁.Unwedged sampleEnv sampleLease r.scope prepared.executionId := by
  have hseen : sampleSeen (.returned ⟨.success, "done", none⟩) =
      some (.succeeded, false, true) := by
    decide +kernel
  simp only [sampleSeen, Option.bind_eq_bind, Option.bind_eq_some_iff, guard] at hseen
  obtain ⟨⟨prepared, db, db₁⟩, hclosed, r, hcur, e, he, _, hguard, -⟩ := hseen
  split_ifs at hguard with hscope
  obtain ⟨hstart, hclose⟩ := sampleClosed_writes hclosed
  exact ⟨prepared, db, db₁, r, e, hclosed, hcur, he, hscope.1,
    (closing_unwedged_iff (c := sampleClosing prepared _) hstart hclose .refl hcur he hscope.1).mpr
      rfl⟩

/-- A call that is cancelled before its dispatch leaves an execution that is never terminal, and
the run that owns it cannot complete. -/
theorem cancelled_call_wedges :
    ¬∀ (c : SchedulerClosing) (context : TenantContext) (lease lease₂ : RunLease) (ids : NewIds)
      (env env₂ : Env) (db db₁ db₂ : Db) (r : RunRow) (e : ExecutionRow), WritesTo .empty db →
      (c.tx context lease ids).run env db = .ok ((), db₁) → WritesTo db₁ db₂ →
      db₂.currentRun lease₂ env₂.now = some r → r.status.isTerminal = false →
      db₂.executionById c.executionId = some e → e.scope = r.scope →
      db₂.Unwedged env₂ lease₂ r.scope c.executionId := by
  intro hall
  have hseen : sampleSeen .cancelledBeforeDispatch = some (.failedRetryable, true, true) := by
    decide +kernel
  simp only [sampleSeen, Option.bind_eq_bind, Option.bind_eq_some_iff, guard] at hseen
  obtain ⟨⟨prepared, db, db₁⟩, hclosed, r, hcur, e, he, _, hguard, hfound⟩ := hseen
  split_ifs at hguard with hscope
  simp only [Option.pure_def, Option.some.injEq, Prod.mk.injEq, List.all_eq_true,
    beq_iff_eq] at hfound
  obtain ⟨hstatus, -, honly⟩ := hfound
  obtain ⟨hstart, hclose⟩ := sampleClosed_writes hclosed
  have hfree := hall (sampleClosing prepared _) sampleContext sampleLease sampleLease sampleIds
    sampleEnv sampleEnv db db₁ db₁ r e hstart hclose .refl hcur (by simp [hscope.2,
      RunStatus.isTerminal]) he hscope.1
  obtain ⟨a, ha, -, hother, -⟩ := hfree.2 ((finishRun_completed_refused_iff hcur).mpr
    ⟨e, (mem_of_executionById he).1, hscope.1, by simp [hstatus, ExecutionStatus.isTerminal]⟩)
  exact hother (honly a ha)

end MultiClaw
