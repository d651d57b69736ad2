import MultiClaw.Deletion.System

/-! What the deletion transactions do to consistent accounts. -/
namespace MultiClaw

open Base Transaction DeletionRepository

/-- An account has one job at most, and has one only while it is to be purged. -/
structure Accounts.Consistent (accounts : Accounts) : Prop where
  oneJob : ∀ j ∈ accounts.deletionJobs.rows, ∀ j' ∈ accounts.deletionJobs.rows,
    j.tenantId = j'.tenantId → j = j'
  pending : ∀ j ∈ accounts.deletionJobs.rows, ∃ u ∈ accounts.users.rows,
    u.id = j.tenantId ∧ u.status = .pendingPurge

variable {env : Env} {accounts accounts' : Accounts} {tenantId jobId workerId : String}
  {user : UserRow} {job current : DeletionJobRow} {p : DeletionJobRow → Bool}

theorem getUser_eq_some (h : accounts.getUser tenantId = some user) :
    user ∈ accounts.users.rows ∧ user.id = tenantId := by
  obtain ⟨hmem, hid⟩ := Table.mem_of_find? h
  exact ⟨hmem, by simpa using hid⟩

theorem getJob_eq_some (h : accounts.getJob tenantId = some job) :
    job ∈ accounts.deletionJobs.rows ∧ job.tenantId = tenantId := by
  obtain ⟨hmem, hid⟩ := Table.mem_of_find? h
  exact ⟨hmem, by simpa using hid⟩

theorem user_eq_of_id {u u' : UserRow} (hu : u ∈ accounts.users.rows)
    (hu' : u' ∈ accounts.users.rows) (hid : u.id = u'.id) : u = u' :=
  Table.eq_of_shared_key hu hu' (k := .id u.id) (by simp [UserRow.keys])
    (by simp [UserRow.keys, hid])

theorem job_eq_of_id {j j' : DeletionJobRow} (hj : j ∈ accounts.deletionJobs.rows)
    (hj' : j' ∈ accounts.deletionJobs.rows) (hid : j.jobId = j'.jobId) : j = j' :=
  Table.eq_of_shared_key hj hj' (k := j.jobId) (by simp [DeletionJobRow.keys])
    (by simp [DeletionJobRow.keys, hid])

namespace Accounts.Consistent

theorem getJob_of_mem (hc : accounts.Consistent) (hj : job ∈ accounts.deletionJobs.rows) :
    accounts.getJob job.tenantId = some job := by
  refine Table.find?_eq_some_of_mem hj (by simp) fun j hmem hsel => ?_
  rw [hc.oneJob j hmem job hj (by simpa using hsel)]
  exact ⟨job.jobId, by simp [DeletionJobRow.keys], by simp [DeletionJobRow.keys]⟩

/-- A where-clause that names the tenant selects one job at most. -/
theorem pins (hc : accounts.Consistent) (hp : ∀ j, p j = true → j.tenantId = tenantId) :
    accounts.deletionJobs.Pins p := by
  intro a ha b hb hpa hpb
  rw [hc.oneJob a ha b hb ((hp a hpa).trans (hp b hpb).symm)]
  exact ⟨b.jobId, by simp [DeletionJobRow.keys], by simp [DeletionJobRow.keys]⟩

/-- An account that is not to be purged has no job. -/
theorem getJob_eq_none (hc : accounts.Consistent) (hu : user ∈ accounts.users.rows)
    (hstatus : user.status ≠ .pendingPurge) : accounts.getJob user.id = none := by
  refine Table.find?_eq_none.mpr fun j hj hsel => ?_
  obtain ⟨u, hu', hid, hpending⟩ := hc.pending j hj
  have hsel : j.tenantId = user.id := by simpa using hsel
  rw [user_eq_of_id hu' hu (hid.trans hsel)] at hpending
  exact hstatus hpending

end Accounts.Consistent

/-! Requests and recoveries -/

theorem run_createScheduled {requestedAt purgeAfter : Nat} (hnone : accounts.getJob tenantId = none)
    (h : (createScheduled tenantId jobId requestedAt purgeAfter).run env accounts =
      .ok (job, accounts')) :
    job = newJob tenantId jobId requestedAt purgeAfter ∧ ∃ deletionJobs,
      accounts.deletionJobs.insert? (newJob tenantId jobId requestedAt purgeAfter) =
        some deletionJobs ∧ accounts' = { accounts with deletionJobs } := by
  rw [createScheduled, run_bind_of_ok run_get] at h
  split at h
  · cases h
  · rename_i deletionJobs hinsert
    have hfind : Accounts.getJob { accounts with deletionJobs } tenantId =
        some (newJob tenantId jobId requestedAt purgeAfter) := by
      have := Table.find?_insert? (p := fun j => j.tenantId == tenantId) hinsert
      unfold Accounts.getJob at hnone ⊢
      simp only [hnone, Option.none_or] at this
      rw [this]
      simp [newJob]
    rw [run_bind_of_ok run_set] at h
    simp only [hfind] at h
    cases h
    exact ⟨rfl, deletionJobs, hinsert, rfl⟩

theorem run_updateUser {status : UserStatus} {f : UserRow → UserRow}
    (hf : ∀ r, (f r).keys = r.keys) (hu : user ∈ accounts.users.rows)
    (hstatus : user.status = status) :
    (updateUser user.id status user.authEpoch f hf).run env accounts =
      .ok (true, { accounts with users := accounts.users.replace user (f user) (hf user) }) := by
  subst hstatus
  have hpins : accounts.users.Pins fun r : UserRow =>
      r.id == user.id && r.status == user.status && r.authEpoch == user.authEpoch := by
    intro a _ b _ ha hb
    simp only [Bool.and_eq_true, beq_iff_eq] at ha hb
    exact ⟨.id user.id, by simp [UserRow.keys, ha.1.1], by simp [UserRow.keys, hb.1.1]⟩
  have hupdate : accounts.users.update _ f hf = accounts.users.replace user (f user) (hf user) :=
    Table.update_eq_replace hpins hu (by simp)
  have hcount := Table.count_of_pins hpins hu (by simp)
  rw [updateUser, run_bind_of_ok run_get]
  simp only [run_bind, run_set, run_pure]
  rw [hupdate, hcount]
  rfl

/-- A scheduled deletion: an account without work gets a new job, and is to be purged. -/
structure Scheduled (env : Env) (accounts : Accounts) (user : UserRow) (jobId : String)
    (purgeAfter : Nat) (accounts' : Accounts) : Prop where
  mem : user ∈ accounts.users.rows
  active : user.status = .active
  idle : accounts.countBlockingActivity user.id env.now = 0
  jobs_eq : accounts.deletionJobs.insert? (newJob user.id jobId env.now purgeAfter) =
    some accounts'.deletionJobs
  db_eq : accounts'.db = expireWork user.id env accounts.db
  users_eq : accounts'.users = accounts.users.replace user
    (user.markPendingPurge env.now purgeAfter) (user.markPendingPurge_keys _ _)

theorem run_request {retentionDays : Nat} {status : DeletionStatus} (hc : accounts.Consistent)
    (h : (DeletionService.request tenantId jobId retentionDays).run env accounts =
      .ok ((status, true), accounts')) :
    status.jobId = jobId ∧ ∃ user purgeAfter, user.id = tenantId ∧
      Scheduled env accounts user jobId purgeAfter accounts' := by
  rw [DeletionService.request, run_bind_of_ok run_ask, run_bind_of_ok run_get] at h
  split at h
  · cases h
  · rename_i user huser
    obtain ⟨hmem, rfl⟩ := getUser_eq_some huser
    cases hstatus : user.status with
    | disabled =>
      simp only [hstatus] at h
      cases h
    | pendingPurge =>
      cases hscheduled : (accounts.getJob user.id).filter (·.status == .scheduled) <;>
      · simp only [hstatus, hscheduled] at h
        cases h
    | active =>
      have hnone := hc.getJob_eq_none hmem (by simp [hstatus])
      simp only [hstatus] at h
      split at h
      · cases h
      · rename_i hidle
        obtain ⟨_, _, hexpire, hafter⟩ := run_bind_eq_ok.mp h
        cases hexpire
        obtain ⟨job, accounts₂, hschedule, hmark⟩ := run_bind_eq_ok.mp hafter
        rw [hnone, DeletionService.scheduleJob, run_bind_of_ok run_ask] at hschedule
        have hnone' : Accounts.getJob
          { accounts with db := expireWork user.id env accounts.db } user.id = none := hnone
        obtain ⟨rfl, deletionJobs, hinsert, haccounts⟩ := run_createScheduled hnone' hschedule
        have hmem' : user ∈ accounts₂.users.rows := haccounts ▸ hmem
        rw [markPendingPurge, run_bind_of_ok (run_updateUser _ hmem' hstatus)] at hmark
        cases hmark
        subst haccounts
        exact ⟨rfl, user, env.now + retentionDays * 86400000, rfl, hmem, hstatus, by omega,
          hinsert, rfl, rfl⟩

/-- A recovery: the scheduled job is deleted before its time, and the account is active again. -/
structure Restored (env : Env) (accounts : Accounts) (user : UserRow) (job : DeletionJobRow)
    (accounts' : Accounts) : Prop where
  user_mem : user ∈ accounts.users.rows
  pending : user.status = .pendingPurge
  job_mem : job ∈ accounts.deletionJobs.rows
  tenant_eq : job.tenantId = user.id
  scheduled : job.status = .scheduled
  early : env.now < job.purgeAfter
  mem_jobs : ∀ j, j ∈ accounts'.deletionJobs.rows ↔ j ∈ accounts.deletionJobs.rows ∧ j ≠ job
  db_eq : accounts'.db = accounts.db
  users_eq : accounts'.users = accounts.users.replace user (user.restoreActive env.now)
    (user.restoreActive_keys _)

theorem run_recover (h : (DeletionService.recover tenantId jobId).run env accounts =
    .ok ((), accounts')) :
    ∃ user job, user.id = tenantId ∧ job.jobId = jobId ∧
      Restored env accounts user job accounts' := by
  rw [DeletionService.recover, run_bind_of_ok run_ask, run_bind_of_ok run_get] at h
  split at h
  · rename_i user job huser hjob
    obtain ⟨hmem, rfl⟩ := getUser_eq_some huser
    obtain ⟨hjmem, hsel⟩ := Table.mem_of_find? hjob
    simp only [Bool.and_eq_true, beq_iff_eq] at hsel
    obtain ⟨htenant, rfl⟩ := hsel
    split at h
    · cases h
    · rename_i hpending
      split at h
      · cases h
      · rename_i hscheduled
        split at h
        · cases h
        · rename_i hearly
          simp only [ne_eq, not_not] at hpending hscheduled
          obtain ⟨deleted, accounts₂, hdelete, hrest⟩ := run_bind_eq_ok.mp h
          have haccounts : accounts₂ = { accounts with
              deletionJobs := accounts.deletionJobs.delete fun j => j.tenantId == user.id &&
                j.jobId == job.jobId && j.status == .scheduled && j.version == job.version } := by
            cases hdelete
            rfl
          have hmem' : user ∈ accounts₂.users.rows := haccounts ▸ hmem
          split at hrest
          · cases hrest
          · rw [restoreActive, run_bind_of_ok (run_updateUser _ hmem' hpending)] at hrest
            cases hrest
            subst haccounts
            refine ⟨user, job, rfl, rfl, hmem, hpending, hjmem, htenant, hscheduled, by omega, ?_,
              rfl, rfl⟩
            intro j
            rw [Table.mem_delete]
            refine and_congr_right fun hj => ?_
            constructor
            · rintro hkept rfl
              simp [htenant, hscheduled] at hkept
            · intro hne
              by_contra hsel
              simp only [Bool.not_eq_false, Bool.and_eq_true, beq_iff_eq] at hsel
              exact hne (job_eq_of_id hj hjmem hsel.1.1.2)
  · cases h

/-! Workers -/

theorem tenant_of_claimable {now : Nat} {j : DeletionJobRow} (h : claimable now current j = true) :
    j.tenantId = current.tenantId := by
  unfold claimable at h
  split at h <;>
  · simp only [Bool.and_eq_true, beq_iff_eq] at h
    simp [h]

theorem tenant_of_heldBy {j : DeletionJobRow} (h : heldBy workerId job j = true) :
    j.tenantId = job.tenantId := by
  simp only [heldBy, Bool.and_eq_true, beq_iff_eq] at h
  exact h.1.1.1.1

theorem claimable_self {now : Nat} (h : isDue now current = true) :
    claimable now current current = true := by
  unfold isDue at h
  unfold claimable
  split at h <;> simp_all

theorem getJob_replace {j' : DeletionJobRow} (hk : j'.keys = current.keys)
    (hc : accounts.Consistent) (hj : current ∈ accounts.deletionJobs.rows)
    (htenant : j'.tenantId = current.tenantId) :
    Accounts.getJob { accounts with deletionJobs := accounts.deletionJobs.replace current j' hk }
      current.tenantId = some j' := by
  have hfind : (accounts.deletionJobs.replace current j' hk).find?
      (fun j => j.tenantId == current.tenantId) = _ := Table.find?_replace fun a ha hka => by
    rw [job_eq_of_id ha hj (by simpa [DeletionJobRow.keys] using hka), htenant]
  have hold := hc.getJob_of_mem hj
  unfold Accounts.getJob at hold ⊢
  rw [hfind, hold]
  simp

/-- A due job is taken over. -/
theorem run_claimDue_of_due (hc : accounts.Consistent) (hj : job ∈ accounts.deletionJobs.rows)
    (hdue : isDue env.now job = true) :
    (claimDue job.tenantId workerId).run env accounts =
      .ok (some (job.claim workerId env.now env.settings.leaseTtlMs job), { accounts with
        deletionJobs := accounts.deletionJobs.replace job
          (job.claim workerId env.now env.settings.leaseTtlMs job) (job.claim_keys _ _ _ _) }) := by
  have hpins := hc.pins fun a (ha : claimable env.now job a = true) => tenant_of_claimable ha
  have hcount := Table.count_of_pins hpins hj (claimable_self hdue)
  have hupdate : accounts.deletionJobs.update (claimable env.now job)
      (job.claim workerId env.now env.settings.leaseTtlMs) (job.claim_keys _ _ _) = _ :=
    Table.update_eq_replace hpins hj (claimable_self hdue)
  rw [claimDue, run_bind_of_ok run_ask, run_bind_of_ok run_get]
  simp only [hc.getJob_of_mem hj, hdue, Bool.true_eq_false, if_false]
  rw [run_bind_of_ok run_set, hcount]
  simp only [ne_eq, not_true_eq_false, if_false, hupdate]
  rw [getJob_replace (job.claim_keys _ _ _ _) hc hj rfl]
  rfl

/-- What a claim does: nothing, or it takes a due job over. -/
theorem run_claimDue {claimed : Option DeletionJobRow} (hc : accounts.Consistent)
    (h : (claimDue tenantId workerId).run env accounts = .ok (claimed, accounts')) :
    (claimed = none ∧ accounts' = accounts) ∨
      ∃ j ∈ accounts.deletionJobs.rows, j.tenantId = tenantId ∧ isDue env.now j = true ∧
        claimed = some (j.claim workerId env.now env.settings.leaseTtlMs j) ∧
        accounts' = { accounts with
          deletionJobs := accounts.deletionJobs.replace j
            (j.claim workerId env.now env.settings.leaseTtlMs j) (j.claim_keys _ _ _ _) } := by
  cases hjob : accounts.getJob tenantId with
  | none =>
    rw [claimDue, run_bind_of_ok run_ask, run_bind_of_ok run_get] at h
    simp only [hjob] at h
    cases h
    exact .inl ⟨rfl, rfl⟩
  | some j =>
    obtain ⟨hj, rfl⟩ := getJob_eq_some hjob
    cases hdue : isDue env.now j with
    | false =>
      rw [claimDue, run_bind_of_ok run_ask, run_bind_of_ok run_get] at h
      simp only [hjob, hdue] at h
      cases h
      exact .inl ⟨rfl, rfl⟩
    | true =>
      rw [run_claimDue_of_due hc hj hdue] at h
      cases h
      exact .inr ⟨j, hj, rfl, hdue, rfl, rfl⟩

/-- The row that a worker holds is the only one that it can rewrite. -/
theorem update_held {f : DeletionJobRow → DeletionJobRow} (hf : ∀ r, (f r).keys = r.keys)
    (hc : accounts.Consistent) (hj : current ∈ accounts.deletionJobs.rows)
    (hheld : heldBy workerId job current = true) :
    accounts.deletionJobs.count (heldBy workerId job) = 1 ∧
      accounts.deletionJobs.update (heldBy workerId job) f hf =
        accounts.deletionJobs.replace current (f current) (hf current) := by
  have hpins := hc.pins fun a (ha : heldBy workerId job a = true) => tenant_of_heldBy ha
  exact ⟨Table.count_of_pins hpins hj hheld, Table.update_eq_replace hpins hj hheld⟩

theorem update_unheld {f : DeletionJobRow → DeletionJobRow} (hf : ∀ r, (f r).keys = r.keys)
    (hnone : ∀ j ∈ accounts.deletionJobs.rows, ¬heldBy workerId job j = true) :
    accounts.deletionJobs.count (heldBy workerId job) = 0 ∧
      accounts.deletionJobs.update (heldBy workerId job) f hf = accounts.deletionJobs :=
  ⟨List.countP_eq_zero.mpr hnone, Table.update_eq_self hnone⟩

theorem run_heartbeat_of_held (hc : accounts.Consistent)
    (hj : current ∈ accounts.deletionJobs.rows) (hheld : heldBy workerId job current = true) :
    (heartbeat workerId job).run env accounts =
      .ok (some (current.beat env.now env.settings.leaseTtlMs), { accounts with
        deletionJobs := accounts.deletionJobs.replace current
          (current.beat env.now env.settings.leaseTtlMs) (current.beat_keys _ _) }) := by
  obtain ⟨hcount, hupdate⟩ :=
    update_held (DeletionJobRow.beat_keys env.now env.settings.leaseTtlMs) hc hj hheld
  rw [heartbeat, run_bind_of_ok run_ask, run_bind_of_ok run_get, run_bind_of_ok run_set, hcount]
  simp only [ne_eq, not_true_eq_false, if_false, hupdate]
  rw [← tenant_of_heldBy hheld, getJob_replace (current.beat_keys _ _) hc hj rfl]
  rfl

/-- What a heartbeat does: nothing, or it renews the lease on the job that the worker holds. -/
theorem run_heartbeat {refreshed : Option DeletionJobRow} (hc : accounts.Consistent)
    (h : (heartbeat workerId job).run env accounts = .ok (refreshed, accounts')) :
    (refreshed = none ∧ accounts' = accounts) ∨
      ∃ j ∈ accounts.deletionJobs.rows, heldBy workerId job j = true ∧
        refreshed = some (j.beat env.now env.settings.leaseTtlMs) ∧
        accounts' = { accounts with
          deletionJobs := accounts.deletionJobs.replace j
            (j.beat env.now env.settings.leaseTtlMs) (j.beat_keys _ _) } := by
  by_cases hheld : ∃ j ∈ accounts.deletionJobs.rows, heldBy workerId job j = true
  · obtain ⟨j, hj, hheld⟩ := hheld
    rw [run_heartbeat_of_held hc hj hheld] at h
    cases h
    exact .inr ⟨j, hj, hheld, rfl, rfl⟩
  · obtain ⟨hcount, hupdate⟩ := update_unheld
      (DeletionJobRow.beat_keys env.now env.settings.leaseTtlMs) (by simpa using hheld)
    rw [heartbeat, run_bind_of_ok run_ask, run_bind_of_ok run_get, run_bind_of_ok run_set, hcount,
      hupdate] at h
    cases h
    exact .inl ⟨rfl, rfl⟩

theorem run_markRetryableError_of_held {error : String} (hc : accounts.Consistent)
    (hj : current ∈ accounts.deletionJobs.rows) (hheld : heldBy workerId job current = true) :
    (markRetryableError workerId job error).run env accounts = .ok ((), { accounts with
      deletionJobs := accounts.deletionJobs.replace current (current.fail env.now error)
        (current.fail_keys _ _) }) := by
  rw [markRetryableError, run_bind_of_ok run_ask, run_bind_of_ok run_get,
    (update_held (DeletionJobRow.fail_keys env.now error) hc hj hheld).2]
  rfl

theorem run_markRetryableError {error : String} (hc : accounts.Consistent)
    (h : (markRetryableError workerId job error).run env accounts = .ok ((), accounts')) :
    accounts' = accounts ∨ ∃ j ∈ accounts.deletionJobs.rows, heldBy workerId job j = true ∧
      accounts' = { accounts with
        deletionJobs := accounts.deletionJobs.replace j (j.fail env.now error)
          (j.fail_keys _ _) } := by
  by_cases hheld : ∃ j ∈ accounts.deletionJobs.rows, heldBy workerId job j = true
  · obtain ⟨j, hj, hheld⟩ := hheld
    rw [run_markRetryableError_of_held hc hj hheld] at h
    cases h
    exact .inr ⟨j, hj, hheld, rfl⟩
  · rw [markRetryableError, run_bind_of_ok run_ask, run_bind_of_ok run_get, (update_unheld
      (DeletionJobRow.fail_keys env.now error) (by simpa using hheld)).2] at h
    cases h
    exact .inl rfl

/-- The accounts without a tenant. -/
def Accounts.purged (accounts : Accounts) (tenantId : String) : Accounts where
  db := purgeWork tenantId accounts.db
  users := accounts.users.delete (·.id == tenantId)
  deletionJobs := accounts.deletionJobs.delete (·.tenantId == tenantId)

/-- What a purge does: nothing, or it deletes the account whose job the worker holds. -/
theorem run_purgeAccount {token version : Nat} {violated purged : Bool}
    (h : (purgeAccount tenantId workerId token version violated).run env accounts =
      .ok (purged, accounts')) :
    (accounts' = accounts ∧ (purged = true → accounts.getJob tenantId = none)) ∨
      ∃ user job, accounts.getUser tenantId = some user ∧ accounts.getJob tenantId = some job ∧
        user.status = .pendingPurge ∧ job.status = .running ∧ job.workerId = some workerId ∧
        job.fencingToken = token ∧ job.version = version ∧ purged = true ∧
        accounts' = accounts.purged tenantId := by
  rw [purgeAccount, run_bind_of_ok run_get] at h
  cases huser : accounts.getUser tenantId with
  | none =>
    cases hjob : accounts.getJob tenantId with
    | none =>
      simp only [huser, hjob] at h
      cases h
      exact .inl ⟨rfl, fun _ => rfl⟩
    | some job =>
      simp only [huser, hjob] at h
      cases h
      exact .inl ⟨rfl, by simp⟩
  | some user =>
    cases hjob : accounts.getJob tenantId with
    | none =>
      simp only [huser, hjob] at h
      cases h
      exact .inl ⟨rfl, fun _ => rfl⟩
    | some job =>
      simp only [huser, hjob] at h
      split at h
      · cases h
        exact .inl ⟨rfl, by simp⟩
      · rename_i hpending
        split at h
        · cases h
          exact .inl ⟨rfl, by simp⟩
        · rename_i hheld
          split at h
          · cases h
          · simp only [ne_eq, not_or, not_not] at hpending hheld
            cases h
            exact .inr ⟨user, job, rfl, rfl, hpending, hheld.1, hheld.2.1, hheld.2.2.1,
              hheld.2.2.2, rfl, rfl⟩

/-- The worker that holds the job purges the account. -/
theorem run_purgeAccount_of_held (hc : accounts.Consistent)
    (hj : current ∈ accounts.deletionJobs.rows) (hheld : heldBy workerId job current = true) :
    (purgeAccount current.tenantId workerId job.fencingToken job.version false).run env accounts =
      .ok (true, accounts.purged current.tenantId) := by
  obtain ⟨user, hu, hid, hpending⟩ := hc.pending current hj
  have huser : accounts.getUser current.tenantId = some user := by
    refine Table.find?_eq_some_of_mem hu (by simp [hid]) fun u hmem hsel => ?_
    exact ⟨.id user.id, by simp [UserRow.keys, hid, beq_iff_eq.mp hsel], by simp [UserRow.keys]⟩
  simp only [heldBy, Bool.and_eq_true, beq_iff_eq] at hheld
  obtain ⟨⟨⟨⟨-, hrunning⟩, hworker⟩, htoken⟩, hversion⟩ := hheld
  rw [purgeAccount, run_bind_of_ok run_get]
  simp only [huser, hc.getJob_of_mem hj, hpending, hrunning, hworker, htoken, hversion, ne_eq,
    not_true_eq_false, or_self,
    if_false, Bool.false_eq_true]
  rfl

end MultiClaw
