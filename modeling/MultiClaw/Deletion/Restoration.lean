import MultiClaw.Deletion.System
import MultiClaw.Storage.Defaults

/-! Whether the run manager serves a tenant whose account was recovered. -/
namespace MultiClaw

variable {log : List DeletionEntry} {entry : DeletionEntry} {tenantId : String} {s : ServerState}

/-- The runtime of the tenant was revoked, and the server has not been started again since. -/
def RevokedSinceStart (tenantId : String) (log : List DeletionEntry) : Prop :=
  ∃ before after, log = before ++ .revoked tenantId :: after ∧ .started ∉ after

theorem revokedSinceStart_append : RevokedSinceStart tenantId (log ++ [entry]) ↔
    entry = .revoked tenantId ∨ (entry ≠ .started ∧ RevokedSinceStart tenantId log) := by
  constructor
  · rintro ⟨before, after, hlog, hstarted⟩
    induction after using List.reverseRecOn with
    | nil => exact .inl (List.append_inj' hlog rfl |>.2 |> List.singleton_inj.mp)
    | append_singleton after last _ =>
      rw [← List.cons_append, ← List.append_assoc] at hlog
      obtain ⟨hlog, hlast⟩ := List.append_inj' hlog rfl
      rw [List.mem_append, not_or] at hstarted
      refine .inr ⟨?_, before, after, hlog, hstarted.1⟩
      rw [List.singleton_inj.mp hlast]
      exact fun h => hstarted.2 (by simp [h])
  · rintro (rfl | ⟨hne, before, after, rfl, hstarted⟩)
    · exact ⟨log, [], rfl, List.not_mem_nil⟩
    · exact ⟨before, after ++ [entry], by simp, by simp [hstarted, Ne.symm hne]⟩

/-- The manager knows the tenants whose runtime was revoked. -/
def KnowsRevoked (s : ServerState) : Prop :=
  ∀ tenantId, tenantId ∈ s.manager.revoked ↔ RevokedSinceStart tenantId s.log

/-- An entry that says nothing about the manager leaves it as it is. -/
theorem KnowsRevoked.note (h : KnowsRevoked s) (hrevoked : ∀ t, entry ≠ .revoked t)
    (hstarted : entry ≠ .started) : KnowsRevoked (s.note entry) := by
  intro t
  rw [ServerState.note, revokedSinceStart_append]
  simp only [hrevoked t, hstarted, ne_eq, not_false_eq_true, true_and, false_or]
  exact h t

theorem KnowsRevoked.setWorker (h : KnowsRevoked s) (workerId : String) (phase : WorkerPhase) :
    KnowsRevoked (s.setWorker workerId phase) := h

theorem KnowsRevoked.revoke (h : KnowsRevoked s) (tenantId : String) :
    KnowsRevoked ({ s with manager := s.manager.revoke tenantId }.note (.revoked tenantId)) := by
  intro t
  rw [ServerState.note, revokedSinceStart_append]
  simp only [RunManager.mem_revoke, h t, DeletionEntry.revoked.injEq, ne_eq, reduceCtorEq,
    not_false_eq_true, true_and]
  exact or_congr_left eq_comm

theorem KnowsRevoked.renew {env : Env} {workerId : String} {job : DeletionJobRow}
    {next : DeletionJobRow → WorkerPhase} (h : KnowsRevoked s) :
    KnowsRevoked (s.renew env workerId job next) := by
  unfold ServerState.renew
  split <;> exact h

theorem KnowsRevoked.removal {workerId : String} {job : DeletionJobRow} {next : WorkerPhase}
    (h : KnowsRevoked s) (outcome : Removal) :
    KnowsRevoked (s.removal workerId job next outcome) := by
  cases outcome with
  | removed => exact (h.setWorker workerId next).note (by simp) (by simp)
  | absent => exact h
  | raised => exact h

theorem KnowsRevoked.step (h : KnowsRevoked s) (e : ServerEvent) : KnowsRevoked (s.step e) := by
  cases e with
  | register id email now =>
    change KnowsRevoked (s.register id email now)
    unfold ServerState.register
    split <;> exact h
  | request env tenantId jobId retentionDays =>
    change KnowsRevoked (s.request env tenantId jobId retentionDays)
    unfold ServerState.request
    split
    · exact KnowsRevoked.note h (by simp) (by simp)
    · exact h
  | recover env tenantId jobId =>
    change KnowsRevoked (s.recover env tenantId jobId)
    unfold ServerState.recover
    split
    · exact KnowsRevoked.note h (by simp) (by simp)
    · exact h
  | revoke tenantId =>
    change KnowsRevoked (s.revoke tenantId)
    unfold ServerState.revoke
    split
    · exact KnowsRevoked.revoke h tenantId
    · exact h
  | workflow call => exact h
  | manage op =>
    intro t
    change t ∈ (op.apply s.manager).revoked ↔ _
    rw [op.apply_revoked]
    exact h t
  | restart maxQueue =>
    intro t
    change t ∈ [] ↔ RevokedSinceStart t (s.log ++ [.started])
    simp [revokedSinceStart_append]
  | claim env workerId tenantId =>
    change KnowsRevoked (s.claim env workerId tenantId)
    unfold ServerState.claim
    split
    · split
      · rename_i job accounts hrun
        exact (KnowsRevoked.setWorker h workerId (.claimed job)).note (by simp) (by simp)
      · exact h
      · exact h
    · exact h
  | workerRevoke workerId =>
    change KnowsRevoked (s.workerRevoke workerId)
    unfold ServerState.workerRevoke
    split
    · exact h.revoke _
    · exact h
  | survey env workerId workspaceIds =>
    change KnowsRevoked (s.survey env workerId workspaceIds)
    unfold ServerState.survey
    split
    · split <;> exact h
    · exact h
  | beat env workerId =>
    change KnowsRevoked (s.beat env workerId)
    unfold ServerState.beat
    split
    · exact h.renew
    · exact h.renew
    · exact h
  | remove workerId outcome =>
    change KnowsRevoked (s.remove workerId outcome)
    unfold ServerState.remove
    split
    · exact h.removal outcome
    · exact h.removal outcome
    · exact h
  | recordError env workerId =>
    change KnowsRevoked (s.recordError env workerId)
    unfold ServerState.recordError
    split
    · split <;> exact h
    · exact h
  | purge env workerId violated =>
    change KnowsRevoked (s.purge env workerId violated)
    unfold ServerState.purge
    split
    · split
      · dsimp only
        split
        · exact KnowsRevoked.note (KnowsRevoked.setWorker h workerId .idle) (by simp) (by simp)
        · exact h
      · exact h
      · exact h
    · exact h
  | crash workerId => exact h

theorem knowsRevoked_run (maxQueue : Nat) (events : List ServerEvent) :
    KnowsRevoked ((ServerState.initial maxQueue).run events) := by
  induction events using List.reverseRecOn with
  | nil =>
    intro t
    simp [ServerState.initial, ServerState.run, RunManager.new, RevokedSinceStart]
  | append_singleton events e ih =>
    rw [ServerState.run, List.foldl_append]
    exact ih.step e

/-- In every state that the server reaches, a manager that is not closed answers a tenant that the
runtime is unavailable if and only if the runtime of the tenant was revoked since the server was
started. It does not matter whether the account was recovered. -/
theorem refused_iff_revoked_since_start (maxQueue : Nat) (events : List ServerEvent)
    (context : TenantContext) (queueId : String) (releaseAdmission : Bool) :
    let s := (ServerState.initial maxQueue).run events
    s.manager.closed = false → (s.manager.Refuses context queueId releaseAdmission ↔
      RevokedSinceStart context.tenantId s.log) := by
  intro s hopen
  rw [RunManager.refuses_iff, ← knowsRevoked_run maxQueue events context.tenantId]
  simp [RunManager.refuses, s, hopen]

/-- A deletion that is requested and taken back, with the revocations that follow both. -/
def sampleRecovery : List ServerEvent :=
  let env : Env := { settings := .standard, host := .ascii, now := 0, now_lt := Env.zero_lt }
  [.register "ada" "ada@example.org" 0, .request env "ada" "job" 1, .revoke "ada",
    .recover env "ada" "job", .revoke "ada"]

/-- Once the server was started again, the tenant is served. -/
theorem served_after_restart :
    ((ServerState.initial 1).run (sampleRecovery ++ [.restart 1])).manager.closed = false ∧
      ¬ ((ServerState.initial 1).run (sampleRecovery ++ [.restart 1])).manager.Refuses
        { tenantId := "ada", workspaceId := "home", sessionId := some "session" } "message"
        false := by
  have hopen : ((ServerState.initial 1).run (sampleRecovery ++ [.restart 1])).manager.closed =
    false := by decide +kernel
  refine ⟨hopen, fun hrefused => ?_⟩
  have hrevoked := (refused_iff_revoked_since_start 1 _ _ _ _ hopen).mp hrefused
  have hlog : ((ServerState.initial 1).run (sampleRecovery ++ [.restart 1])).log =
      ((ServerState.initial 1).run sampleRecovery).log ++ [.started] := by
    rw [ServerState.run, List.foldl_append]
    rfl
  rw [hlog, revokedSinceStart_append] at hrevoked
  simp at hrevoked

/-- A tenant whose account is active again and has no job is still refused. -/
theorem refused_after_recovery : ¬ ∀ (events : List ServerEvent) (context : TenantContext)
    (queueId : String) (releaseAdmission : Bool),
    let s := (ServerState.initial 1).run events
    (s.accounts.getUser context.tenantId).map (·.status) = some .active →
    s.accounts.getJob context.tenantId = none → s.manager.closed = false →
      ¬ s.manager.Refuses context queueId releaseAdmission := by
  intro h
  let context : TenantContext :=
    { tenantId := "ada", workspaceId := "home", sessionId := some "session" }
  refine h sampleRecovery context "message" false (by decide +kernel) (by decide +kernel)
    (by decide +kernel) ?_
  exact RunManager.refuses_iff.mpr (by decide +kernel)

end MultiClaw
