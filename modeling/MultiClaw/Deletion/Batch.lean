import MultiClaw.Deletion.Moves
import MultiClaw.Deletion.Worker
import MultiClaw.Storage.Defaults

/-! What an exception in the processing of one job does to the others. -/
namespace MultiClaw

open Base Transaction DeletionRepository DeletionWorker

variable {env : Env} {workerId : String} {accounts accounts' accounts'' : Accounts} {now : Nat}
  {j job : DeletionJobRow} {faults : JobFaults}

/-! Jobs in their order -/

theorem mem_dueJobs : j ∈ accounts.dueJobs now ↔
    j ∈ accounts.deletionJobs.rows ∧ isDue now j = true := by
  rw [Accounts.dueJobs, (List.perm_insertionSort _ _).mem_iff, Table.filter, List.mem_filter]

theorem nodup_dueJobs : (accounts.dueJobs now).Nodup := by
  rw [Accounts.dueJobs, (List.perm_insertionSort _ _).nodup_iff]
  refine (accounts.deletionJobs.unique.filter _).imp fun {a b} hdisjoint he => ?_
  exact hdisjoint (a := a.jobId) (by simp [DeletionJobRow.keys]) (by simp [DeletionJobRow.keys, he])

theorem sorted_dueJobs : (accounts.dueJobs now).Pairwise fun a b => a.key ≤ b.key :=
  List.pairwise_insertionSort _ _

/-- Without its first job, the list of the due jobs is the rest. -/
theorem dueJobs_eq_tail {rest : List DeletionJobRow} (hdue : accounts.dueJobs now = j :: rest)
    (hmem : ∀ a, (a ∈ accounts'.deletionJobs.rows ∧ isDue now a = true) ↔
      (a ∈ accounts.deletionJobs.rows ∧ isDue now a = true) ∧ a ≠ j) :
    accounts'.dueJobs now = rest := by
  have hnodup : (j :: rest).Nodup := hdue ▸ nodup_dueJobs
  have hsorted : (j :: rest).Pairwise fun a b => a.key ≤ b.key := hdue ▸ sorted_dueJobs
  rw [List.nodup_cons] at hnodup
  have hperm : (accounts'.dueJobs now).Perm rest := by
    rw [List.perm_ext_iff_of_nodup nodup_dueJobs hnodup.2]
    intro a
    rw [mem_dueJobs, hmem, ← mem_dueJobs, hdue, List.mem_cons]
    constructor
    · rintro ⟨rfl | ha, hne⟩
      · exact absurd rfl hne
      · exact ha
    · intro ha
      exact ⟨.inr ha, fun he => hnodup.1 (he ▸ ha)⟩
  refine hperm.eq_of_pairwise (fun a b ha hb hab hba => ?_) sorted_dueJobs hsorted.of_cons
  have hkey := le_antisymm hab hba
  have ha' := (mem_dueJobs.mp ha).1
  have hb' := (mem_dueJobs.mp (hperm.mem_iff.mpr hb)).1
  exact job_eq_of_id ha' hb' (congrArg (fun k => (ofLex (ofLex k).2).2) hkey)

/-! The processing of a job -/

/-- The activity of the other tenants is not touched by a purge. -/
theorem countBlockingActivity_purged {t tenantId : String} (hne : t ≠ tenantId) :
    (accounts.purged tenantId).countBlockingActivity t now =
      accounts.countBlockingActivity t now := by
  have hother : ∀ {s : String}, s = t → (s == tenantId) = false := by
    rintro s rfl
    simpa using hne
  simp only [Accounts.countBlockingActivity, Accounts.purged, purgeWork]
  congr 1
  · congr 1 <;> refine Table.count_delete fun r _ hr => hother ?_
    · simp_all
    · simp_all
  · refine Table.count_delete fun x _ hx => hother ?_
    simp_all

/-- The job has been dealt with for this instant, and everything else is as it was. -/
structure Processed (now : Nat) (accounts : Accounts) (j : DeletionJobRow) (accounts' : Accounts) :
    Prop where
  consistent : accounts'.Consistent
  due_iff : ∀ a, (a ∈ accounts'.deletionJobs.rows ∧ isDue now a = true) ↔
    (a ∈ accounts.deletionJobs.rows ∧ isDue now a = true) ∧ a ≠ j
  activity : ∀ t ≠ j.tenantId,
    accounts'.countBlockingActivity t now = accounts.countBlockingActivity t now

/-- The worker holds the job, with `job` in the place of the row `j`. -/
structure Working (env : Env) (workerId : String) (accounts : Accounts) (j job : DeletionJobRow)
    (accounts' : Accounts) : Prop where
  before : accounts.Consistent
  stored : j ∈ accounts.deletionJobs.rows
  consistent : accounts'.Consistent
  mem_jobs : ∀ a, a ∈ accounts'.deletionJobs.rows ↔
    a = job ∨ (a ∈ accounts.deletionJobs.rows ∧ a ≠ j)
  db_eq : accounts'.db = accounts.db
  tenant : job.tenantId = j.tenantId
  running : job.status = .running
  worker : job.workerId = some workerId
  lease : job.leaseExpiresAt = some (env.now + env.settings.leaseTtlMs)

namespace Working

theorem mem (h : Working env workerId accounts j job accounts') :
    job ∈ accounts'.deletionJobs.rows :=
  (h.mem_jobs job).mpr (.inl rfl)

theorem held (h : Working env workerId accounts j job accounts') :
    heldBy workerId job job = true := by
  simp [heldBy, h.running, h.worker]

theorem not_due (h : Working env workerId accounts j job accounts') :
    isDue env.now job = false := by
  have httl := env.settings.leaseTtlMs_ge
  simp only [isDue, h.running, h.lease, Option.any_some, decide_eq_false_iff_not]
  omega

theorem of_claim (hc : accounts.Consistent) (hj : j ∈ accounts.deletionJobs.rows) :
    Working env workerId accounts j (j.claim workerId env.now env.settings.leaseTtlMs j)
      { accounts with
        deletionJobs := accounts.deletionJobs.replace j
          (j.claim workerId env.now env.settings.leaseTtlMs j) (j.claim_keys _ _ _ _) } :=
  ⟨hc, hj, hc.replaceJob _ hj rfl, fun _ => mem_replace_job (j.claim_keys _ _ _ _) hj, rfl, rfl,
    rfl,
    rfl, rfl⟩

/-- The holder rewrites the row and keeps the lease on it. -/
theorem rewrite {job' : DeletionJobRow} (h : Working env workerId accounts j job accounts')
    (hk : job'.keys = job.keys) (htenant : job'.tenantId = job.tenantId)
    (hstatus : job'.status = job.status) (hworker : job'.workerId = job.workerId)
    (hlease : job'.leaseExpiresAt = some (env.now + env.settings.leaseTtlMs)) :
    Working env workerId accounts j job' { accounts' with
      deletionJobs := accounts'.deletionJobs.replace job job' hk } := by
  refine ⟨h.before, h.stored, h.consistent.replaceJob hk h.mem htenant, fun a => ?_, h.db_eq,
    htenant.trans h.tenant, hstatus.trans h.running, hworker.trans h.worker, hlease⟩
  rw [mem_replace_job hk h.mem, h.mem_jobs]
  refine or_congr_right ⟨fun ⟨ha, hne⟩ => ha.resolve_left hne, fun ha => ⟨.inr ha, ?_⟩⟩
  -- Another job is another row, because an account has one job.
  rintro rfl
  exact ha.2 (h.before.oneJob a ha.1 j h.stored h.tenant)

theorem beat (h : Working env workerId accounts j job accounts') :
    Working env workerId accounts j (job.beat env.now env.settings.leaseTtlMs) { accounts' with
      deletionJobs := accounts'.deletionJobs.replace job
        (job.beat env.now env.settings.leaseTtlMs) (job.beat_keys _ _) } :=
  h.rewrite _ rfl rfl rfl rfl

theorem fail (h : Working env workerId accounts j job accounts') (error : String) :
    Working env workerId accounts j (job.fail env.now error) { accounts' with
      deletionJobs := accounts'.deletionJobs.replace job (job.fail env.now error)
        (job.fail_keys _ _) } :=
  h.rewrite _ rfl rfl rfl h.lease

theorem processed (h : Working env workerId accounts j job accounts') :
    Processed env.now accounts j accounts' := by
  refine ⟨h.consistent, fun a => ?_, fun t _ => ?_⟩
  · rw [h.mem_jobs]
    constructor
    · rintro ⟨rfl | ⟨ha, hne⟩, hdue⟩
      · rw [h.not_due] at hdue
        cases hdue
      · exact ⟨⟨ha, hdue⟩, hne⟩
    · rintro ⟨⟨ha, hdue⟩, hne⟩
      exact ⟨.inr ⟨ha, hne⟩, hdue⟩
  · unfold Accounts.countBlockingActivity
    rw [h.db_eq]

theorem purged (h : Working env workerId accounts j job accounts') :
    Processed env.now accounts j (accounts'.purged job.tenantId) := by
  refine ⟨h.consistent.purge _, fun a => ?_, fun t ht => ?_⟩
  · have hmem : a ∈ (accounts'.purged job.tenantId).deletionJobs.rows ↔
        a ∈ accounts.deletionJobs.rows ∧ a ≠ j := by
      rw [Accounts.purged, Table.mem_delete, h.mem_jobs]
      constructor
      · rintro ⟨rfl | ha, hother⟩
        · simp at hother
        · exact ha
      · rintro ⟨ha, hne⟩
        refine ⟨.inr ⟨ha, hne⟩, ?_⟩
        rw [beq_eq_false_iff_ne, h.tenant]
        exact fun htenant => hne (h.before.oneJob a ha j h.stored htenant)
    rw [hmem, and_right_comm]
  · rw [h.tenant]
    exact (countBlockingActivity_purged ht).trans (by
      unfold Accounts.countBlockingActivity
      rw [h.db_eq])

end Working

theorem attempt_some {α : Type} {tx : DeletionTx α} (error : String) :
    attempt env (some error) tx accounts = (.error error, accounts) := rfl

theorem attempt_none {α : Type} {tx : DeletionTx α} {a : α}
    (h : tx.run env accounts = .ok (a, accounts')) :
    attempt env none tx accounts = (.ok a, accounts') := by
  simp [attempt, commit, h]

def WorkspaceFaults.raises (w : WorkspaceFaults) : Bool := w.heartbeat.isSome || w.removal.isSome

/-- An exception that nothing around it handles. The removals are guarded, but not the record that
is then made of their exception. -/
def JobFaults.escapes (faults : JobFaults) (blocked : Bool) : Bool :=
  faults.claim.isSome || faults.revoke.isSome || faults.survey.isSome ||
    if blocked || (faults.workspaces.any (·.raises) || faults.storage.isSome) then
      faults.record.isSome
    else faults.lastHeartbeat.isSome || faults.purge.isSome

/-- The removal of the workspaces ends with an exception if one of its operations raises one, and
the worker still holds the job. -/
theorem removeWorkspaces_spec (storage : Option String) (workspaces : List WorkspaceFaults)
    (h : Working env workerId accounts j job accounts') :
    ∃ job' accounts'', Working env workerId accounts j job' accounts'' ∧
      if workspaces.any (·.raises) || storage.isSome then
        ∃ error, removeWorkspaces env workerId storage job workspaces accounts' =
          (.raised job' error, accounts'')
      else removeWorkspaces env workerId storage job workspaces accounts' =
        (.finished job', accounts'') := by
  induction workspaces generalizing job accounts' with
  | nil =>
    refine ⟨job, accounts', h, ?_⟩
    cases storage with
    | none => rfl
    | some error => exact ⟨error, rfl⟩
  | cons w workspaces ih =>
    cases hbeat : w.heartbeat with
    | some error =>
      refine ⟨job, accounts', h, ?_⟩
      rw [removeWorkspaces, hbeat, attempt_some]
      simp [WorkspaceFaults.raises, hbeat]
    | none =>
      have hrun : attempt env none (heartbeat workerId job) accounts' = _ :=
        attempt_none (run_heartbeat_of_held h.consistent h.mem h.held)
      cases hremoval : w.removal with
      | some error =>
        refine ⟨_, _, h.beat, ?_⟩
        rw [removeWorkspaces, hbeat, hrun]
        simp [WorkspaceFaults.raises, hremoval]
      | none =>
        obtain ⟨job', accounts'', hworking, hspec⟩ := ih h.beat
        refine ⟨job', accounts'', hworking, ?_⟩
        rw [removeWorkspaces, hbeat, hrun]
        simpa [WorkspaceFaults.raises, hbeat, hremoval] using hspec

/-- How the processing of a job ends: with an exception that escapes, or with the job dealt with. -/
def Outcome (env : Env) (accounts : Accounts) (j : DeletionJobRow) (escapes : Bool)
    (result : Except String Bool × Accounts) : Prop :=
  if escapes then ∃ error, result.1 = .error error
  else (∃ purged, result.1 = .ok purged) ∧ Processed env.now accounts j result.2

theorem giveUp_outcome (h : Working env workerId accounts j job accounts') (error : String) :
    Outcome env accounts j faults.record.isSome
      (giveUp env workerId faults job error accounts') := by
  unfold giveUp recordRetryableError
  cases hrecord : faults.record with
  | some raised => exact ⟨raised, rfl⟩
  | none =>
    rw [attempt_none (run_markRetryableError_of_held h.consistent h.mem h.held)]
    exact ⟨⟨false, rfl⟩, (h.fail error).processed⟩

theorem purgeHeld_outcome (h : Working env workerId accounts j job accounts') :
    Outcome env accounts j (faults.lastHeartbeat.isSome || faults.purge.isSome)
      (purgeHeld env workerId faults job accounts') := by
  unfold purgeHeld
  cases hbeat : faults.lastHeartbeat with
  | some error => exact ⟨error, rfl⟩
  | none =>
    rw [attempt_none (run_heartbeat_of_held h.consistent h.mem h.held)]
    cases hpurge : faults.purge with
    | some error => exact ⟨error, rfl⟩
    | none =>
      dsimp only
      rw [attempt_none (run_purgeAccount_of_held h.beat.consistent h.beat.mem h.beat.held)]
      exact ⟨⟨true, rfl⟩, h.beat.purged⟩

theorem purgeJob_outcome (h : Working env workerId accounts j job accounts')
    (hclaim : faults.claim = none) :
    Outcome env accounts j
      (faults.escapes (decide (0 < accounts.countBlockingActivity j.tenantId env.now)))
      (purgeJob env workerId faults job accounts') := by
  have hactivity : accounts'.countBlockingActivity job.tenantId env.now =
      accounts.countBlockingActivity j.tenantId env.now := by
    unfold Accounts.countBlockingActivity
    rw [h.db_eq, h.tenant]
  unfold purgeJob JobFaults.escapes
  rw [hactivity, hclaim]
  cases hrevoke : faults.revoke with
  | some error =>
    rw [Option.isSome_some, Bool.or_true, Bool.true_or, Bool.true_or]
    exact ⟨error, rfl⟩
  | none =>
  cases hsurvey : faults.survey with
  | some error =>
    rw [Option.isSome_some, Bool.or_true, Bool.true_or]
    exact ⟨error, rfl⟩
  | none =>
  simp only [Option.isSome_none, Bool.false_or]
  by_cases hblocked : 0 < accounts.countBlockingActivity j.tenantId env.now
  · simp only [hblocked, if_true, decide_true, Bool.true_or]
    exact giveUp_outcome h _
  · obtain ⟨job', accounts'', hworking, hspec⟩ :=
      removeWorkspaces_spec faults.storage faults.workspaces h
    simp only [hblocked, if_false, decide_false, Bool.false_or]
    split at hspec
    · rename_i hraises
      obtain ⟨error, hraised⟩ := hspec
      rw [hraised, if_pos hraises]
      exact giveUp_outcome hworking error
    · rename_i hraises
      rw [hspec, if_neg hraises]
      exact purgeHeld_outcome hworking

/-! Batches -/

variable {faultsOf : String → JobFaults} {batchSize : Nat} {rest : List DeletionJobRow}

/-- An exception escapes from the processing of the job. -/
def Accounts.escapes (accounts : Accounts) (now : Nat) (faultsOf : String → JobFaults)
    (j : DeletionJobRow) : Bool :=
  (faultsOf j.tenantId).escapes (decide (0 < accounts.countBlockingActivity j.tenantId now))

/-- No exception escapes from the jobs that a batch of this size takes. -/
def Accounts.Quiet (accounts : Accounts) (now : Nat) (faultsOf : String → JobFaults)
    (batchSize : Nat) : Prop :=
  ∀ j ∈ (accounts.dueJobs now).take batchSize, accounts.escapes now faultsOf j = false

/-- After the first due job, the batch goes on with the others. -/
theorem Processed.quiet_iff (h : Processed now accounts j accounts')
    (hc : accounts.Consistent) (hdue : accounts.dueJobs now = j :: rest) :
    accounts.Quiet now faultsOf (batchSize + 1) ↔
      accounts.escapes now faultsOf j = false ∧ accounts'.Quiet now faultsOf batchSize := by
  have hj := (mem_dueJobs.mp (hdue ▸ List.mem_cons_self : j ∈ accounts.dueJobs now)).1
  have hnodup : (j :: rest).Nodup := hdue ▸ nodup_dueJobs
  unfold Accounts.Quiet
  rw [dueJobs_eq_tail hdue h.due_iff, hdue, List.take_succ_cons, List.forall_mem_cons]
  refine and_congr_right fun _ => forall₂_congr fun a ha => ?_
  have hrest : a ∈ rest := List.mem_of_mem_take ha
  have ha' := (mem_dueJobs.mp (hdue ▸ List.mem_cons_of_mem _ hrest : a ∈ accounts.dueJobs now)).1
  have htenant : a.tenantId ≠ j.tenantId := fun he =>
    (List.nodup_cons.mp hnodup).1 (hc.oneJob a ha' j hj he ▸ hrest)
  unfold Accounts.escapes
  rw [h.activity a.tenantId htenant]

/-- One round of a batch: an exception ends it, or it goes on with the job dealt with. -/
theorem runBatch_cons (workerId : String) (faultsOf : String → JobFaults) (batchSize : Nat)
    (result : DeletionBatchResult) (claimed : List String) (hc : accounts.Consistent)
    (hdue : accounts.dueJobs env.now = j :: rest) :
    if accounts.escapes env.now faultsOf j then
      ∃ error, (runBatch env workerId faultsOf (batchSize + 1) result ⟨accounts, claimed⟩).1 =
        .error error
    else ∃ result' accounts', Processed env.now accounts j accounts' ∧
      runBatch env workerId faultsOf (batchSize + 1) result ⟨accounts, claimed⟩ =
        runBatch env workerId faultsOf batchSize result'
          ⟨accounts', claimed ++ [j.tenantId]⟩ := by
  have hnext : accounts.nextClaimableTenantId env.now = some j.tenantId := by
    simp [Accounts.nextClaimableTenantId, hdue]
  obtain ⟨hj, hdue⟩ := mem_dueJobs.mp (hdue ▸ List.mem_cons_self : j ∈ accounts.dueJobs env.now)
  rw [runBatch]
  simp only [hnext, claimJob]
  cases hclaim : (faultsOf j.tenantId).claim with
  | some error =>
    rw [if_pos (by simp [Accounts.escapes, JobFaults.escapes, hclaim])]
    exact ⟨error, rfl⟩
  | none =>
    have hworking : Working env workerId accounts j _ _ := .of_claim hc hj
    have houtcome := purgeJob_outcome hworking hclaim
    rw [attempt_none (run_claimDue_of_due hc hj hdue)]
    dsimp only
    change Outcome env accounts j (accounts.escapes env.now faultsOf j) _ at houtcome
    cases hescapes : accounts.escapes env.now faultsOf j with
    | true =>
      rw [hescapes] at houtcome
      obtain ⟨error, hraised⟩ := houtcome
      refine ⟨error, ?_⟩
      generalize purgeJob env workerId _ _ _ = r at hraised
      obtain ⟨_, _⟩ := r
      cases hraised
      rfl
    | false =>
      rw [hescapes] at houtcome
      obtain ⟨⟨purged, hreturned⟩, hprocessed⟩ := houtcome
      generalize purgeJob env workerId _ _ _ = r at hreturned hprocessed
      obtain ⟨_, accounts'⟩ := r
      cases hreturned
      cases purged with
      | true => exact ⟨_, accounts', hprocessed, rfl⟩
      | false => exact ⟨_, accounts', hprocessed, rfl⟩

/-- The batch takes the jobs that are due, up to its size, and returns. -/
def BatchDone (due : List DeletionJobRow) (batchSize : Nat) (claimed : List String)
    (r : Except String DeletionBatchResult × BatchState) : Prop :=
  (∃ result, r.1 = .ok result) ∧
    r.2.claimed = claimed ++ (due.take batchSize).map (·.tenantId) ∧ r.2.accounts.Consistent

theorem runBatch_done (hc : accounts.Consistent) (result : DeletionBatchResult)
    (claimed : List String) (hquiet : accounts.Quiet env.now faultsOf batchSize) :
    BatchDone (accounts.dueJobs env.now) batchSize claimed
      (runBatch env workerId faultsOf batchSize result ⟨accounts, claimed⟩) := by
  induction batchSize generalizing accounts result claimed with
  | zero => exact ⟨⟨result, rfl⟩, by simp [runBatch], hc⟩
  | succ n ih =>
    cases hdue : accounts.dueJobs env.now with
    | nil =>
      have hnext : accounts.nextClaimableTenantId env.now = none := by
        simp [Accounts.nextClaimableTenantId, hdue]
      rw [runBatch]
      simp only [hnext]
      exact ⟨⟨result, rfl⟩, by simp, hc⟩
    | cons j rest =>
      have hround := runBatch_cons workerId faultsOf n result claimed hc hdue
      rw [if_neg (by simp [hquiet j (by simp [hdue])])] at hround
      obtain ⟨result', accounts', hprocessed, hrun⟩ := hround
      have hrest := ((hprocessed.quiet_iff hc hdue).mp hquiet).2
      have hdone := ih hprocessed.consistent result' (claimed ++ [j.tenantId]) hrest
      rw [dueJobs_eq_tail hdue hprocessed.due_iff] at hdone
      rw [hrun]
      simpa [BatchDone] using hdone

theorem runBatch_raises (hc : accounts.Consistent) (result : DeletionBatchResult)
    (claimed : List String) (hloud : ¬accounts.Quiet env.now faultsOf batchSize) :
    ∃ error, (runBatch env workerId faultsOf batchSize result ⟨accounts, claimed⟩).1 =
      .error error := by
  induction batchSize generalizing accounts result claimed with
  | zero => exact absurd (by simp [Accounts.Quiet]) hloud
  | succ n ih =>
    cases hdue : accounts.dueJobs env.now with
    | nil => exact absurd (by simp [Accounts.Quiet, hdue]) hloud
    | cons j rest =>
      have hround := runBatch_cons workerId faultsOf n result claimed hc hdue
      split at hround
      · exact hround
      · rename_i hno
        obtain ⟨result', accounts', hprocessed, hrun⟩ := hround
        rw [hrun]
        refine ih hprocessed.consistent result' _ fun hquiet => hloud ?_
        exact (hprocessed.quiet_iff hc hdue).mpr ⟨by simpa using hno, hquiet⟩

/-- No exception escapes from a round, in the state that the rounds before it leave. -/
def PollsQuiet (workerId : String) (batchSize : Nat) : Accounts → List Poll → Prop
  | _, [] => True
  | accounts, poll :: polls => accounts.Quiet poll.env.now poll.faults batchSize ∧
      PollsQuiet workerId batchSize
        (runBatch poll.env workerId poll.faults batchSize {} ⟨accounts, []⟩).2.accounts polls

theorem runUntilStopped_iff (hc : accounts.Consistent) (polls : List Poll) :
    (runUntilStopped workerId batchSize polls accounts).2 = none ↔
      PollsQuiet workerId batchSize accounts polls := by
  induction polls generalizing accounts with
  | nil => simp [runUntilStopped, PollsQuiet]
  | cons poll polls ih =>
    rw [runUntilStopped, PollsQuiet]
    by_cases hquiet : accounts.Quiet poll.env.now poll.faults batchSize
    · have hdone : BatchDone _ _ _ (runBatch poll.env workerId poll.faults batchSize {}
        ⟨accounts, []⟩) := runBatch_done hc {} [] hquiet
      generalize runBatch poll.env workerId poll.faults batchSize {} ⟨accounts, []⟩ = r at hdone
      obtain ⟨⟨result, hresult⟩, -, hconsistent⟩ := hdone
      obtain ⟨_, s⟩ := r
      cases hresult
      simpa [hquiet] using ih hconsistent
    · obtain ⟨error, hraised⟩ : ∃ error, (runBatch poll.env workerId poll.faults batchSize {}
        ⟨accounts, []⟩).1 = .error error := runBatch_raises hc {} [] hquiet
      generalize runBatch poll.env workerId poll.faults batchSize {} ⟨accounts, []⟩ = r at hraised
      obtain ⟨_, s⟩ := r
      cases hraised
      simp [hquiet]

/-- Two accounts whose deletion was requested. -/
def sampleRequests : List ServerEvent :=
  let env : Env := { settings := .standard, host := .ascii, now := 0, now_lt := Env.zero_lt }
  [.register "ada" "ada@example.org" 0, .register "bob" "bob@example.org" 0,
    .request env "ada" "job1" 1, .request env "bob" "job2" 1]

end MultiClaw
