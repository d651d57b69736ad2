import MultiClaw.Deletion.Moves
import MultiClaw.Storage.Defaults

/-! The runs of an account that is to be purged. -/
namespace MultiClaw

open Base Transaction Relation DeletionRepository

variable {env : Env} {db db' : Db} {r r' : RunRow} {tenantId : String} {may : Effect → Prop}
  {s s' : ServerState} {e : ServerEvent}

/-- Every run of the tenant has ended. -/
def Db.Ended (db : Db) (tenantId : String) : Prop :=
  ∀ r ∈ db.runs.rows, r.scope.tenantId = tenantId → r.status.isTerminal = true

theorem RunChange.ended (h : RunChange env r r') (hended : r.status.isTerminal = true) :
    r'.status.isTerminal = true := by
  cases h with
  | takeOver _ hlive => simp [hended] at hlive
  | cancelRequest hlive => simp [hended] at hlive
  | refresh => exact hended
  | transition target hlegal =>
    rw [RunStatus.legalTargets_of_isTerminal hended] at hlegal
    cases hlegal
  | resume _ hwait => simp [hwait, RunStatus.isTerminal] at hended
  | resumePlan _ _ hwait => simp [hwait, RunStatus.isTerminal] at hended
  | fence _ hwait => simp [hwait, RunStatus.isTerminal] at hended
  | cancelWaiting => rfl

/-- Without a new run of the tenant, its runs stay ended. -/
theorem Step.keeps_ended (h : Step may env db db')
    (hmay : ∀ scope plan, may (.newRun scope plan) → scope.tenantId ≠ tenantId)
    (hended : db.Ended tenantId) : db'.Ended tenantId := by
  cases h with
  | insertRun row runs _ _ _ _ hnew hinsert =>
    intro r hr htenant
    rcases (Table.mem_insert? hinsert).mp hr with hr | rfl
    · exact hended r hr htenant
    · exact absurd htenant (hmay _ _ hnew)
  | changeRun a a' ha hchange =>
    intro r hr htenant
    have hne : a.keys ≠ [] := by simp [RunRow.keys]
    rcases (Table.mem_replace_iff hchange.keys_eq ha hne).mp hr with rfl | ⟨hr, -⟩
    · exact hchange.ended (hended a ha (hchange.scope_eq ▸ htenant))
    · exact hended r hr htenant
  | _ => exact hended

/-- The tenant for which a call starts a run. -/
def WorkflowOp.startedTenant? : WorkflowOp → Option String
  | startRun context _ | startRunWithCheckpoint context _ _
  | startPlanRunWithCheckpoint context _ _ _ _ _
  | startApprovedPlanRunWithCheckpoint context _ _ _ _ _ => some context.tenantId
  | _ => none

theorem tenant_of_contextPredicate {context : TenantContext} {scope : RunScope}
    (h : contextPredicate context scope = true) : context.tenantId = scope.tenantId := by
  rw [contextPredicate_iff, TenantContext.scope?] at h
  split at h
  · cases h
    rfl
  · cases h

theorem WorkflowOp.tenant_of_newRun {op : WorkflowOp} {scope : RunScope}
    {plan : Option PlanBinding} (h : op.effects db (.newRun scope plan)) :
    op.startedTenant? = some scope.tenantId := by
  cases op <;> simp only [effects] at h <;>
    exact congrArg some (tenant_of_contextPredicate h.1)

theorem Call.keeps_ended {call : Call} (hstart : call.op.startedTenant? ≠ some tenantId)
    (hended : db.Ended tenantId) : (call.step db).Ended tenantId := by
  have hsteps := call.step_writes db
  generalize call.step db = db' at hsteps
  induction hsteps with
  | refl => exact hended
  | tail _ hstep ih =>
    refine hstep.keeps_ended (fun scope plan hnew htenant => ?_) ih
    exact hstart (htenant ▸ WorkflowOp.tenant_of_newRun hnew)

/-! Requests -/

theorem mem_expireWork (hr : r' ∈ (expireWork tenantId env db).runs.rows) :
    ∃ r ∈ db.runs.rows, r'.scope = r.scope ∧
      (r'.status.isTerminal = true ∨ r' = r ∧ ¬(r.scope.tenantId = tenantId ∧
        r.status = .awaitingUser ∧ r.leaseExpiresAt.all (· ≤ env.now) = true)) := by
  have hr : r' ∈ (db.runs.update _ _ (RunRow.expireWaiting_keys env.now)).rows := hr
  obtain ⟨r, hmem, heq⟩ := Table.mem_update.mp hr
  refine ⟨r, hmem, ?_⟩
  split at heq
  · subst heq
    exact ⟨rfl, .inl rfl⟩
  · rename_i hsel
    subst heq
    exact ⟨rfl, .inr ⟨rfl, by simpa [and_assoc] using hsel⟩⟩

theorem expireWork_keeps_ended (other : String) (hended : db.Ended tenantId) :
    (expireWork other env db).Ended tenantId := by
  intro r' hr' htenant
  obtain ⟨r, hr, hscope, hterm | ⟨rfl, -⟩⟩ := mem_expireWork hr'
  · exact hterm
  · exact hended r' hr htenant

/-- A request finds no work under way and ends the runs that wait. -/
theorem Scheduled.ended {accounts accounts' : Accounts} {user : UserRow} {jobId : String}
    {purgeAfter : Nat} (h : Scheduled env accounts user jobId purgeAfter accounts') :
    accounts'.db.Ended user.id := by
  intro r' hr' htenant
  rw [h.db_eq] at hr'
  obtain ⟨r, hr, hscope, hterm | ⟨rfl, hkept⟩⟩ := mem_expireWork hr'
  · exact hterm
  · have hidle := h.idle
    simp only [Accounts.countBlockingActivity, Nat.add_eq_zero_iff, Table.count,
      List.countP_eq_zero] at hidle
    obtain ⟨⟨hworking, hleased⟩, -⟩ := hidle
    have hstatus := hworking r' hr
    have hlease := hleased r' hr
    cases hs : r'.status with
    | running => simp [htenant, hs] at hstatus
    | resuming => simp [htenant, hs] at hstatus
    | awaitingUser =>
      -- It waits under a lease that has not expired.
      cases hl : r'.leaseExpiresAt <;> simp_all [RunStatus.isTerminal]
    | _ => rfl

/-! Events -/

namespace ServerState

/-- The accounts that are to be purged have no live run. -/
def DeletedIdle (s : ServerState) : Prop :=
  ∀ u ∈ s.accounts.users.rows, u.status = .pendingPurge → s.accounts.db.Ended u.id

/-- The event starts a run for an account that is to be purged. -/
def disturbs (s : ServerState) : ServerEvent → Bool
  | .workflow call => call.op.startedTenant?.any fun tenantId =>
      s.accounts.users.any fun u => u.id == tenantId && u.status == .pendingPurge
  | _ => false

/-- No event of the sequence starts a run for an account that is then to be purged. -/
def undisturbed : ServerState → List ServerEvent → Bool
  | _, [] => true
  | s, e :: events => !s.disturbs e && (s.step e).undisturbed events

end ServerState

theorem Moves.deletedIdle (h : Moves s e s') (hidle : s.DeletedIdle)
    (hquiet : s.disturbs e = false) : s'.DeletedIdle := by
  cases h with
  | still hjobs husers hdb =>
    intro u hu hpending
    rw [husers] at hu
    rcases hdb with hsame | ⟨call, rfl, hcall⟩
    · rw [hsame]
      exact hidle u hu hpending
    · rw [hcall]
      refine Call.keeps_ended (fun hstart => ?_) (hidle u hu hpending)
      simp only [ServerState.disturbs, hstart, Option.any_some, Table.any, List.any_eq_false,
        Bool.and_eq_true, beq_iff_eq] at hquiet
      exact hquiet u hu ⟨rfl, hpending⟩
  | register user hactive husers hjobs hdb =>
    intro u hu hpending
    rw [hdb]
    rcases (Table.mem_insert? husers).mp hu with hu | rfl
    · exact hidle u hu hpending
    · simp [hactive] at hpending
  | request env user jobId purgeAfter hdrawn hscheduled =>
    intro u hu hpending
    rw [hscheduled.users_eq] at hu
    rcases (mem_replace_user _ hscheduled.mem).mp hu with rfl | ⟨hu, -⟩
    · exact hscheduled.ended
    · rw [hscheduled.db_eq]
      exact expireWork_keeps_ended _ (hidle u hu hpending)
  | recover env user job hrestored =>
    intro u hu hpending
    rw [hrestored.users_eq] at hu
    rw [hrestored.db_eq]
    rcases (mem_replace_user _ hrestored.user_mem).mp hu with rfl | ⟨hu, -⟩
    · cases hpending
    · exact hidle u hu hpending
  | claim env workerId j hnow hj hdue haccounts =>
    unfold ServerState.DeletedIdle
    rw [haccounts]
    exact hidle
  | rewrite workerId job j j' hheld hj hheldBy hk htenant hstatus hworkerId htoken hpurgeAfter
      haccounts =>
    unfold ServerState.DeletedIdle
    rw [haccounts]
    exact hidle
  | remove workerId job hheld haccounts =>
    unfold ServerState.DeletedIdle
    rw [haccounts]
    exact hidle
  | purge workerId user job j hevent hphase huser hid hpending hj hheldBy haccounts =>
    intro u hu hpending r hr
    rw [haccounts] at hu hr
    exact hidle u (Table.mem_delete.mp hu).1 hpending r (Table.mem_delete.mp hr).1

theorem deletedIdle_run (hc : s.accounts.Consistent) (hidle : s.DeletedIdle)
    {events : List ServerEvent} (hquiet : s.undisturbed events = true) :
    (s.run events).DeletedIdle := by
  induction events generalizing s with
  | nil => exact hidle
  | cons e events ih =>
    simp only [ServerState.undisturbed, Bool.and_eq_true, Bool.not_eq_eq_eq_not,
      Bool.not_true] at hquiet
    have hmoves := Moves.of_step hc e
    exact ih (hmoves.consistent hc) (hmoves.deletedIdle hidle hquiet.1) hquiet.2

/-- A purge deletes the runs of an account that is to be purged. -/
theorem pending_of_purged {env : Env} {workerId : String} {violated : Bool}
    (hr : r ∈ s.accounts.db.runs.rows)
    (hgone : r ∉ (s.step (.purge env workerId violated)).accounts.db.runs.rows) :
    ∃ u ∈ s.accounts.users.rows, u.status = .pendingPurge ∧ r.scope.tenantId = u.id := by
  change r ∉ (s.purge env workerId violated).accounts.db.runs.rows at hgone
  rcases Moves.purge_cases s env workerId violated with
    hsame | hidle | ⟨user, job, j, -, huser, hid, hpending, -, -, hpurged⟩
  · rw [hsame] at hgone
    exact absurd hr hgone
  · rw [hidle] at hgone
    exact absurd hr hgone
  · refine ⟨user, huser, hpending, ?_⟩
    by_contra hne
    rw [hpurged] at hgone
    exact hgone (Table.mem_delete.mpr ⟨hr, by simpa [hid] using hne⟩)

/-- In a run in which no call starts a run for an account that is to be purged, such accounts have
ended runs only, in every state, and a purge deletes no live run. -/
theorem deleted_accounts_idle (s : ServerState) (events : List ServerEvent)
    (hc : s.accounts.Consistent) (hidle : s.DeletedIdle) (hquiet : s.undisturbed events = true) :
    (s.run events).DeletedIdle ∧
      ∀ env workerId violated, ∀ r ∈ (s.run events).accounts.db.runs.rows,
        r ∉ ((s.run events).step (.purge env workerId violated)).accounts.db.runs.rows →
          r.status.isTerminal = true := by
  have hfinal := deletedIdle_run hc hidle hquiet
  refine ⟨hfinal, fun env workerId violated r hr hgone => ?_⟩
  obtain ⟨u, hu, hpending, htenant⟩ := pending_of_purged hr hgone
  exact hfinal u hu hpending r hr htenant

/-- The tenant, its workspace and its session all have this id. -/
def sampleId : String := "00000000-0000-0000-0000-000000000001"

/-- A server whose tenant has an approved plan. -/
def sampleServer : ServerState :=
  let initial := ServerState.initial 1
  let plan : PlanRow :=
    { scope := ⟨sampleId, sampleId, sampleId, "plan"⟩, sourceMessageId := "message"
      triggerMode := .explicit, status := .approved, currentVersion := 1
      approvedVersion := some 1, version := 2, createdAt := 0, updatedAt := 0 }
  let version : PlanVersionRow :=
    { tenantId := sampleId, workspaceId := sampleId, sessionId := sampleId, planId := "plan"
      planVersion := 1, contentDigest := "digest", objective := "objective"
      constraintsJson := "[]", generationReason := "initial", parentVersion := none
      revisionFeedback := none, schemaVersion := 1, createdAt := 0 }
  { initial with
    accounts := { initial.accounts with
      db := { Db.empty with
        plans := ⟨[plan], List.pairwise_singleton _ _⟩
        planVersions := ⟨[version], List.pairwise_singleton _ _⟩ } } }

theorem sampleServer_idle : sampleServer.accounts.Consistent ∧ sampleServer.DeletedIdle :=
  ⟨.of_no_job rfl, fun _ h => absurd h List.not_mem_nil⟩

def sampleDeletionRequest : List ServerEvent :=
  let env : Env :=
    { settings := .standard, host := .ascii, now := 1000, now_lt := Env.thousand_lt }
  [.register sampleId "ada@example.org" 1000, .request env sampleId "job" 1, .revoke sampleId]

theorem deleted_accounts_idle_requested :
    sampleServer.undisturbed sampleDeletionRequest = true ∧
      (sampleServer.run sampleDeletionRequest).DeletedIdle := by
  have hquiet : sampleServer.undisturbed sampleDeletionRequest = true := by decide +kernel
  exact ⟨hquiet, (deleted_accounts_idle _ _ sampleServer_idle.1 sampleServer_idle.2 hquiet).1⟩

/-- A plan is run again, for a request that was admitted before the deletion was. -/
theorem rerun_disturbs_deletion : ¬ ∀ (s : ServerState) (events : List ServerEvent),
    s.accounts.Consistent → s.DeletedIdle → (s.run events).DeletedIdle := by
  intro h
  let env : Env := { settings := {}, host := .ascii, now := 1000 }
  let context : TenantContext :=
    { tenantId := sampleId, workspaceId := sampleId, sessionId := some sampleId
      runId := some sampleId }
  have hidle := h sampleServer (sampleDeletionRequest ++
    [.workflow ⟨env, .startApprovedPlanRunWithCheckpoint context "runtime" "plan" 1 "digest"
      "checkpoint"⟩]) sampleServer_idle.1 sampleServer_idle.2
  revert hidle
  unfold ServerState.DeletedIdle Db.Ended
  decide +kernel

end MultiClaw
