import MultiClaw.Deletion.Spec

/-! What an event does to the deletion jobs, to the workers and to the log. -/
namespace MultiClaw

open Base Transaction DeletionRepository

variable {env : Env} {accounts accounts' : Accounts} {user : UserRow} {job : DeletionJobRow}
  {jobId : String} {purgeAfter : Nat}

/-! Consistency -/

theorem mem_replace_user {u : UserRow} {user' : UserRow} (hk : user'.keys = user.keys)
    (hu : user ∈ accounts.users.rows) :
    u ∈ (accounts.users.replace user user' hk).rows ↔
      u = user' ∨ (u ∈ accounts.users.rows ∧ u ≠ user) :=
  Table.mem_replace_iff hk hu (by simp [UserRow.keys])

theorem mem_replace_job {j j' : DeletionJobRow} (hk : j'.keys = job.keys)
    (hj : job ∈ accounts.deletionJobs.rows) :
    j ∈ (accounts.deletionJobs.replace job j' hk).rows ↔
      j = j' ∨ (j ∈ accounts.deletionJobs.rows ∧ j ≠ job) :=
  Table.mem_replace_iff hk hj (by simp [DeletionJobRow.keys])

namespace Accounts.Consistent

theorem of_no_job (h : accounts.deletionJobs.rows = []) : accounts.Consistent := by
  constructor <;> simp [h]

theorem register {users} (hc : accounts.Consistent)
    (hinsert : accounts.users.insert? user = some users) : Consistent { accounts with users } := by
  refine ⟨hc.oneJob, fun j hj => ?_⟩
  obtain ⟨u, hu, hrest⟩ := hc.pending j hj
  exact ⟨u, (Table.mem_insert? hinsert).mpr (.inl hu), hrest⟩

/-- The account whose deletion is scheduled had no job. -/
theorem tenant_ne_of_active (hc : accounts.Consistent) (hu : user ∈ accounts.users.rows)
    (hactive : user.status = .active) {j : DeletionJobRow} (hj : j ∈ accounts.deletionJobs.rows) :
    j.tenantId ≠ user.id := by
  intro he
  have hnone := hc.getJob_eq_none hu (by simp [hactive])
  rw [← he, hc.getJob_of_mem hj] at hnone
  cases hnone

theorem schedule (hc : accounts.Consistent)
    (h : Scheduled env accounts user jobId purgeAfter accounts') : accounts'.Consistent := by
  have hne : ∀ j ∈ accounts.deletionJobs.rows, j.tenantId ≠ user.id := fun j hj =>
    hc.tenant_ne_of_active h.mem h.active hj
  constructor
  · intro j hj j' hj' htenant
    rcases (Table.mem_insert? h.jobs_eq).mp hj with hj | rfl <;>
      rcases (Table.mem_insert? h.jobs_eq).mp hj' with hj' | rfl
    · exact hc.oneJob j hj j' hj' htenant
    · exact absurd htenant (hne j hj)
    · exact absurd htenant.symm (hne j' hj')
    · rfl
  · intro j hj
    rw [h.users_eq]
    rcases (Table.mem_insert? h.jobs_eq).mp hj with hj | rfl
    · obtain ⟨u, hu, hid, hpending⟩ := hc.pending j hj
      refine ⟨u, (mem_replace_user _ h.mem).mpr (.inr ⟨hu, ?_⟩), hid, hpending⟩
      rintro rfl
      exact hne j hj hid.symm
    · exact ⟨_, (mem_replace_user _ h.mem).mpr (.inl rfl), rfl, rfl⟩

theorem restore (hc : accounts.Consistent) (h : Restored env accounts user job accounts') :
    accounts'.Consistent := by
  constructor
  · intro j hj j' hj'
    exact hc.oneJob j ((h.mem_jobs j).mp hj).1 j' ((h.mem_jobs j').mp hj').1
  · intro j hj
    obtain ⟨hj, hne⟩ := (h.mem_jobs j).mp hj
    obtain ⟨u, hu, hid, hpending⟩ := hc.pending j hj
    rw [h.users_eq]
    refine ⟨u, (mem_replace_user _ h.user_mem).mpr (.inr ⟨hu, ?_⟩), hid, hpending⟩
    rintro rfl
    exact hne (hc.oneJob j hj job h.job_mem (hid.symm.trans h.tenant_eq.symm))

theorem replaceJob {j' : DeletionJobRow} (hk : j'.keys = job.keys) (hc : accounts.Consistent)
    (hj : job ∈ accounts.deletionJobs.rows) (htenant : j'.tenantId = job.tenantId) :
    Consistent { accounts with deletionJobs := accounts.deletionJobs.replace job j' hk } := by
  constructor
  · intro a ha b hb hab
    rcases (mem_replace_job hk hj).mp ha with rfl | ⟨haold, hane⟩ <;>
      rcases (mem_replace_job hk hj).mp hb with rfl | ⟨hbold, hbne⟩
    · rfl
    · exact absurd (hc.oneJob b hbold job hj (hab.symm.trans htenant)) hbne
    · exact absurd (hc.oneJob a haold job hj (hab.trans htenant)) hane
    · exact hc.oneJob a haold b hbold hab
  · intro a ha
    rcases (mem_replace_job hk hj).mp ha with rfl | ⟨ha, -⟩
    · rw [htenant]
      exact hc.pending job hj
    · exact hc.pending a ha

theorem purge (hc : accounts.Consistent) (tenantId : String) :
    (accounts.purged tenantId).Consistent := by
  constructor
  · intro j hj j' hj'
    exact hc.oneJob j (Table.mem_delete.mp hj).1 j' (Table.mem_delete.mp hj').1
  · intro j hj
    obtain ⟨hj, hkept⟩ := Table.mem_delete.mp hj
    obtain ⟨u, hu, hid, hpending⟩ := hc.pending j hj
    exact ⟨u, Table.mem_delete.mpr ⟨hu, by simpa [hid] using hkept⟩, hid, hpending⟩

end Accounts.Consistent

/-! Events -/

/-- Entries that are not about a job. -/
def DeletionEntry.isNeutral : DeletionEntry → Bool
  | revoked _ | started => true
  | _ => false

/-- What an event does. Workers other than the acting one stay as they are. -/
inductive Moves (s : ServerState) (e : ServerEvent) : ServerState → Prop where
  | still {s'} (hjobs : s'.accounts.deletionJobs = s.accounts.deletionJobs)
      (husers : s'.accounts.users = s.accounts.users)
      (hdb : s'.accounts.db = s.accounts.db ∨
        ∃ call, e = .workflow call ∧ s'.accounts.db = call.step s.accounts.db)
      (hworkers : ∀ w, (s'.workers w).job? = none ∨ (s'.workers w).job? = (s.workers w).job?)
      (entry : Option DeletionEntry) (hlog : s'.log = s.log ++ entry.toList)
      (hneutral : ∀ x ∈ entry, x.isNeutral = true) : Moves s e s'
  | register {s'} (user : UserRow) (hactive : user.status = .active)
      (husers : s.accounts.users.insert? user = some s'.accounts.users)
      (hjobs : s'.accounts.deletionJobs = s.accounts.deletionJobs)
      (hdb : s'.accounts.db = s.accounts.db) (hworkers : s'.workers = s.workers)
      (hlog : s'.log = s.log) : Moves s e s'
  | request {s'} (env : Env) (user : UserRow) (jobId : String) (purgeAfter : Nat)
      (hdrawn : e.drawnJobId? = some jobId)
      (hscheduled : Scheduled env s.accounts user jobId purgeAfter s'.accounts)
      (hworkers : s'.workers = s.workers) (hlog : s'.log = s.log ++ [.requested jobId]) :
      Moves s e s'
  | recover {s'} (env : Env) (user : UserRow) (job : DeletionJobRow)
      (hrestored : Restored env s.accounts user job s'.accounts) (hworkers : s'.workers = s.workers)
      (hlog : s'.log = s.log ++ [.recovered job.jobId]) : Moves s e s'
  | claim {s'} (env : Env) (workerId : String) (j : DeletionJobRow) (hnow : e.now? = some env.now)
      (hj : j ∈ s.accounts.deletionJobs.rows) (hdue : isDue env.now j = true)
      (haccounts : s'.accounts = { s.accounts with
        deletionJobs := s.accounts.deletionJobs.replace j
          (j.claim workerId env.now env.settings.leaseTtlMs j) (j.claim_keys _ _ _ _) })
      (hworker : (s'.workers workerId).job? =
        some (j.claim workerId env.now env.settings.leaseTtlMs j))
      (hworkers : ∀ w ≠ workerId, s'.workers w = s.workers w)
      (hlog : s'.log = s.log ++
        [.claimed workerId j.jobId (j.fencingToken + 1) j.purgeAfter env.now]) : Moves s e s'
  | rewrite {s'} (workerId : String) (job j j' : DeletionJobRow)
      (hheld : (s.workers workerId).job? = some job) (hj : j ∈ s.accounts.deletionJobs.rows)
      (hheldBy : heldBy workerId job j = true) (hk : j'.keys = j.keys)
      (htenant : j'.tenantId = j.tenantId) (hstatus : j'.status = j.status)
      (hworkerId : j'.workerId = j.workerId) (htoken : j'.fencingToken = j.fencingToken)
      (hpurgeAfter : j'.purgeAfter = j.purgeAfter)
      (haccounts : s'.accounts = { s.accounts with
        deletionJobs := s.accounts.deletionJobs.replace j j' hk })
      (hworker : (s'.workers workerId).job? = none ∨ (s'.workers workerId).job? = some j')
      (hworkers : ∀ w ≠ workerId, s'.workers w = s.workers w) (hlog : s'.log = s.log) : Moves s e s'
  | remove {s'} (workerId : String) (job : DeletionJobRow)
      (hheld : (s.workers workerId).job? = some job) (haccounts : s'.accounts = s.accounts)
      (hworker : (s'.workers workerId).job? = some job)
      (hworkers : ∀ w ≠ workerId, s'.workers w = s.workers w)
      (hlog : s'.log = s.log ++ [.removed workerId job.jobId]) : Moves s e s'
  | purge {s'} (workerId : String) (user : UserRow) (job j : DeletionJobRow)
      (hevent : ∃ env violated, e = .purge env workerId violated)
      (hphase : s.workers workerId = .purging job)
      (huser : user ∈ s.accounts.users.rows) (hid : user.id = j.tenantId)
      (hpending : user.status = .pendingPurge)
      (hj : j ∈ s.accounts.deletionJobs.rows) (hheldBy : heldBy workerId job j = true)
      (haccounts : s'.accounts = s.accounts.purged j.tenantId)
      (hworker : (s'.workers workerId).job? = none)
      (hworkers : ∀ w ≠ workerId, s'.workers w = s.workers w)
      (hlog : s'.log = s.log ++ [.purged workerId j.jobId]) : Moves s e s'

namespace Moves

variable {s : ServerState} {e : ServerEvent} {workerId : String}

theorem refl : Moves s e s :=
  still rfl rfl (.inl rfl) (fun _ => .inr rfl) none (List.append_nil _).symm (by simp)

/-- A worker goes on with the job that it holds, or lets go of it. -/
theorem setWorker {phase : WorkerPhase}
    (h : phase.job? = none ∨ phase.job? = (s.workers workerId).job?) :
    Moves s e (s.setWorker workerId phase) := by
  refine still rfl rfl (.inl rfl) (fun w => ?_) none (List.append_nil _).symm (by simp)
  simp only [ServerState.setWorker]
  split
  · rename_i hw
    exact hw ▸ h
  · exact .inr rfl

theorem renew {job : DeletionJobRow} {next : DeletionJobRow → WorkerPhase}
    (hc : s.accounts.Consistent) (hheld : (s.workers workerId).job? = some job)
    (hnext : ∀ j, (next j).job? = some j) : Moves s e (s.renew env workerId job next) := by
  unfold ServerState.renew
  split
  · rename_i refreshed accounts hrun
    rcases run_heartbeat hc hrun with ⟨hnone, -⟩ | ⟨j, hj, hheldBy, hsome, haccounts⟩
    · cases hnone
    · cases hsome
      exact rewrite workerId job j (j.beat env.now env.settings.leaseTtlMs) hheld hj hheldBy
        (j.beat_keys _ _) rfl rfl rfl rfl rfl haccounts
        (.inr (by simp [ServerState.setWorker, hnext]))
        (fun w hw => by simp [ServerState.setWorker, hw]) rfl
  · rename_i accounts hrun
    rcases run_heartbeat hc hrun with ⟨-, rfl⟩ | ⟨j, hj, hheldBy, hsome, haccounts⟩
    · exact setWorker (.inl rfl)
    · cases hsome
  · exact refl

theorem removal {job : DeletionJobRow} {next : WorkerPhase} (outcome : Removal)
    (hheld : (s.workers workerId).job? = some job) (hnext : next.job? = some job) :
    Moves s e (s.removal workerId job next outcome) := by
  cases outcome with
  | removed =>
    exact remove workerId job hheld rfl (by simpa [ServerState.removal, ServerState.setWorker,
      ServerState.note] using hnext)
      (fun w hw => by simp [ServerState.removal, ServerState.setWorker, ServerState.note, hw]) rfl
  | absent => exact setWorker (.inr (hnext.trans hheld.symm))
  | raised => exact setWorker (.inr hheld.symm)

theorem claim_moves {tenantId : String} (hnow : e.now? = some env.now)
    (hc : s.accounts.Consistent) : Moves s e (s.claim env workerId tenantId) := by
  unfold ServerState.claim
  split
  · split
    · rename_i job accounts hrun
      rcases run_claimDue hc hrun with ⟨hnone, -⟩ | ⟨j, hj, -, hdue, hsome, haccounts⟩
      · cases hnone
      · cases hsome
        exact claim env workerId j hnow hj hdue haccounts
          (by simp [ServerState.setWorker, ServerState.note, WorkerPhase.job?])
          (fun w hw => by simp [ServerState.setWorker, ServerState.note, hw]) rfl
    · rename_i accounts hrun
      rcases run_claimDue hc hrun with ⟨-, rfl⟩ | ⟨j, hj, -, hdue, hsome, -⟩
      · exact refl
      · cases hsome
    · exact refl
  · exact refl

theorem recordError_moves (hc : s.accounts.Consistent) :
    Moves s e (s.recordError env workerId) := by
  unfold ServerState.recordError
  split
  · rename_i job error hphase
    split
    · rename_i accounts hrun
      rcases run_markRetryableError hc hrun with rfl | ⟨j, hj, hheldBy, haccounts⟩
      · exact setWorker (.inl rfl)
      · exact rewrite workerId job j (j.fail env.now error) (by rw [hphase]; rfl) hj hheldBy
          (j.fail_keys _ _) rfl rfl rfl rfl rfl haccounts
          (.inl (by simp [ServerState.setWorker, WorkerPhase.job?]))
          (fun w hw => by simp [ServerState.setWorker, hw]) rfl
    · exact setWorker (.inl rfl)
  · exact refl

/-- A purge does nothing, gives the job up, or deletes the account whose job the worker holds. -/
theorem purge_cases (s : ServerState) (env : Env) (workerId : String) (violated : Bool) :
    s.purge env workerId violated = s ∨
    s.purge env workerId violated = s.setWorker workerId .idle ∨
    ∃ user job j, s.workers workerId = .purging job ∧ user ∈ s.accounts.users.rows ∧
      user.id = j.tenantId ∧ user.status = .pendingPurge ∧
      j ∈ s.accounts.deletionJobs.rows ∧ heldBy workerId job j = true ∧
      s.purge env workerId violated =
        ({ s with accounts := s.accounts.purged j.tenantId }.setWorker workerId .idle).note
          (.purged workerId j.jobId) := by
  unfold ServerState.purge
  split
  · rename_i job hphase
    split
    · rename_i accounts hrun
      rcases run_purgeAccount hrun with
        ⟨rfl, hnone⟩ | ⟨user, j, huser, hj, hpending, hrunning, hworker, htoken, hversion, -, rfl⟩
      · rw [hnone rfl]
        exact .inr (.inl rfl)
      · obtain ⟨humem, huid⟩ := getUser_eq_some huser
        obtain ⟨hjmem, hjtenant⟩ := getJob_eq_some hj
        have hheldBy : heldBy workerId job j = true := by
          simp [heldBy, hjtenant, hrunning, hworker, htoken, hversion]
        rw [hj, ← hjtenant]
        exact .inr (.inr ⟨user, job, j, hphase, humem, huid.trans hjtenant.symm, hpending, hjmem,
          hheldBy, rfl⟩)
    · rename_i accounts hrun
      rcases run_purgeAccount hrun with ⟨rfl, -⟩ | ⟨_, _, _, _, _, _, _, _, _, hpurged, -⟩
      · exact .inr (.inl rfl)
      · cases hpurged
    · exact .inr (.inl rfl)
  · exact .inl rfl

theorem purge_moves {violated : Bool} :
    Moves s (.purge env workerId violated) (s.purge env workerId violated) := by
  rcases purge_cases s env workerId violated with
    hsame | hidle | ⟨user, job, j, hphase, huser, hid, hpending, hj, hheldBy, hpurged⟩
  · rw [hsame]
    exact refl
  · rw [hidle]
    exact setWorker (.inl rfl)
  · rw [hpurged]
    exact purge workerId user job j ⟨env, violated, rfl⟩ hphase huser hid hpending hj hheldBy rfl
      (by simp [ServerState.setWorker, ServerState.note, WorkerPhase.job?])
      (fun w hw => by simp [ServerState.setWorker, ServerState.note, hw]) rfl

theorem of_step (hc : s.accounts.Consistent) (e : ServerEvent) : Moves s e (s.step e) := by
  cases e with
  | register id email now =>
    change Moves s _ (s.register id email now)
    unfold ServerState.register
    split
    · exact refl
    · rename_i users hinsert
      exact .register ⟨id, email, .active, 0, none, none, now⟩ rfl hinsert rfl rfl rfl rfl
  | request env tenantId jobId retentionDays =>
    change Moves s _ (s.request env tenantId jobId retentionDays)
    unfold ServerState.request
    split
    · rename_i status accounts hrun
      obtain ⟨hid, user, purgeAfter, -, hscheduled⟩ := run_request hc hrun
      exact .request env user jobId purgeAfter rfl hscheduled rfl (by rw [hid]; rfl)
    · exact refl
  | recover env tenantId jobId =>
    change Moves s _ (s.recover env tenantId jobId)
    unfold ServerState.recover
    split
    · rename_i accounts hrun
      obtain ⟨user, job, -, rfl, hrestored⟩ := run_recover hrun
      exact .recover env user job hrestored rfl rfl
    · exact refl
  | revoke tenantId =>
    change Moves s _ (s.revoke tenantId)
    unfold ServerState.revoke
    split
    · exact still rfl rfl (.inl rfl) (fun _ => .inr rfl) (some (.revoked tenantId)) rfl
        (by simp [DeletionEntry.isNeutral])
    · exact refl
  | workflow call =>
    exact still rfl rfl (.inr ⟨call, rfl, rfl⟩) (fun _ => .inr rfl) none (List.append_nil _).symm
      (by simp)
  | manage op =>
    exact still rfl rfl (.inl rfl) (fun _ => .inr rfl) none (List.append_nil _).symm (by simp)
  | restart maxQueue =>
    exact still rfl rfl (.inl rfl) (fun _ => .inr rfl) (some .started) rfl
      (by simp [DeletionEntry.isNeutral])
  | claim env workerId tenantId => exact claim_moves rfl hc
  | workerRevoke workerId =>
    change Moves s _ (s.workerRevoke workerId)
    unfold ServerState.workerRevoke
    split
    · rename_i job hphase
      refine still rfl rfl (.inl rfl) (fun w => .inr ?_) (some (.revoked job.tenantId)) rfl
        (by simp [DeletionEntry.isNeutral])
      simp only [ServerState.note, ServerState.setWorker]
      split
      · rename_i hw
        rw [hw, hphase]
        rfl
      · rfl
    · exact refl
  | survey env workerId workspaceIds =>
    change Moves s _ (s.survey env workerId workspaceIds)
    unfold ServerState.survey
    split
    · rename_i job hphase
      split <;>
      · refine setWorker (.inr ?_)
        rw [hphase]
        rfl
    · exact refl
  | beat env workerId =>
    change Moves s _ (s.beat env workerId)
    unfold ServerState.beat
    split
    · rename_i job _ workspaceIds hphase
      exact renew hc (by rw [hphase]; rfl) fun _ => rfl
    · rename_i job hphase
      exact renew hc (by rw [hphase]; rfl) fun _ => rfl
    · exact refl
  | remove workerId outcome =>
    change Moves s _ (s.remove workerId outcome)
    unfold ServerState.remove
    split
    · rename_i job workspaceIds hphase
      exact removal outcome (by rw [hphase]; rfl) rfl
    · rename_i job hphase
      exact removal outcome (by rw [hphase]; rfl) rfl
    · exact refl
  | recordError env workerId => exact recordError_moves hc
  | purge env workerId violated => exact purge_moves
  | crash workerId => exact setWorker (.inl rfl)

theorem consistent {s' : ServerState} (h : Moves s e s')
    (hc : s.accounts.Consistent) : s'.accounts.Consistent := by
  cases h with
  | still hjobs husers =>
    exact ⟨by rw [hjobs]; exact hc.oneJob, by rw [hjobs, husers]; exact hc.pending⟩
  | register user hactive husers hjobs =>
    have h := hc.register husers
    exact ⟨by rw [hjobs]; exact h.oneJob, by rw [hjobs]; exact h.pending⟩
  | request env user jobId purgeAfter hdrawn hscheduled => exact hc.schedule hscheduled
  | recover env user job hrestored => exact hc.restore hrestored
  | claim env workerId j hnow hj hdue haccounts =>
    rw [haccounts]
    exact hc.replaceJob _ hj rfl
  | rewrite workerId job j j' hheld hj hheldBy hk htenant hstatus hworkerId htoken hpurge
      haccounts =>
    rw [haccounts]
    exact hc.replaceJob hk hj htenant
  | remove workerId job hheld haccounts => exact haccounts ▸ hc
  | purge workerId user job j hevent hphase huser hid hpending hj hheldBy haccounts =>
    rw [haccounts]
    exact hc.purge _

end Moves

theorem consistent_initial (maxQueue : Nat) : (ServerState.initial maxQueue).accounts.Consistent :=
  .of_no_job rfl

theorem consistent_run {s : ServerState} (hc : s.accounts.Consistent) (events : List ServerEvent) :
    (s.run events).accounts.Consistent := by
  induction events generalizing s with
  | nil => exact hc
  | cons e events ih => exact ih ((Moves.of_step hc e).consistent hc)

end MultiClaw
