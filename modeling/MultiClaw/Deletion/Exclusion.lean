import MultiClaw.Deletion.Lifecycle
import MultiClaw.Deletion.Moves
import MultiClaw.Storage.Defaults

/-! Recovery and purge exclude each other. -/
namespace MultiClaw

open Base Transaction DeletionRepository

variable {drawn : List String} {clock now : Nat} {s s' : ServerState} {e : ServerEvent}
  {jobId : String} {j : DeletionJobRow}

/-- The rows and the workers agree with the log. The jobs were drawn from `drawn`, and `clock` is
the last instant that an event has read. -/
structure Exclusive (drawn : List String) (clock : Nat) (s : ServerState) : Prop where
  consistent : s.accounts.Consistent
  lives : ∀ jobId, ∃ life, lifeOf jobId s.log = some life
  unborn : ∀ jobId ∉ drawn, lifeOf jobId s.log = some .unborn
  scheduled : ∀ j ∈ s.accounts.deletionJobs.rows, j.status = .scheduled →
    lifeOf j.jobId s.log = some .scheduled
  running : ∀ j ∈ s.accounts.deletionJobs.rows, j.status = .running → j.purgeAfter ≤ clock ∧
    ∃ workerIds, lifeOf j.jobId s.log = some (.claimed j.fencingToken workerIds)
  held : ∀ w job, (s.workers w).job? = some job →
    ∃ life, lifeOf job.jobId s.log = some life ∧ w ∈ life.claimants
  mine : ∀ w job, (s.workers w).job? = some job → ∀ j ∈ s.accounts.deletionJobs.rows,
    j.tenantId = job.tenantId → j.workerId = some w → j.jobId = job.jobId

namespace Exclusive

theorem initial (maxQueue : Nat) : Exclusive [] clock (.initial maxQueue) where
  consistent := consistent_initial maxQueue
  lives _ := ⟨.unborn, rfl⟩
  unborn _ _ := rfl
  scheduled := nofun
  running := nofun
  held := nofun
  mine := nofun

/-- A stored job is scheduled or claimed. -/
theorem life_of_mem (h : Exclusive drawn clock s) (hj : j ∈ s.accounts.deletionJobs.rows) :
    lifeOf j.jobId s.log = some .scheduled ∨
      ∃ workerIds, lifeOf j.jobId s.log = some (.claimed j.fencingToken workerIds) := by
  cases hstatus : j.status with
  | scheduled => exact .inl (h.scheduled j hj hstatus)
  | running => exact .inr (h.running j hj hstatus).2

/-- A job that is not drawn yet is neither stored nor held. -/
theorem mem_drawn_of_mem (h : Exclusive drawn clock s) (hj : j ∈ s.accounts.deletionJobs.rows) :
    j.jobId ∈ drawn := by
  by_contra hnot
  have hunborn := h.unborn j.jobId hnot
  rcases h.life_of_mem hj with hlife | ⟨workerIds, hlife⟩ <;>
  · rw [hunborn] at hlife
    cases hlife

theorem mem_drawn_of_held (h : Exclusive drawn clock s) {w : String} {job : DeletionJobRow}
    (hheld : (s.workers w).job? = some job) : job.jobId ∈ drawn := by
  by_contra hnot
  obtain ⟨life, hlife, hmem⟩ := h.held w job hheld
  rw [h.unborn job.jobId hnot] at hlife
  cases hlife
  simp [JobLife.claimants] at hmem

theorem still (h : Exclusive drawn clock s)
    (hc : s'.accounts.Consistent) (hlives : ∀ jobId, lifeOf jobId s'.log = lifeOf jobId s.log)
    (hjobs : s'.accounts.deletionJobs = s.accounts.deletionJobs)
    (hworkers : ∀ w, (s'.workers w).job? = none ∨ (s'.workers w).job? = (s.workers w).job?) :
    Exclusive drawn clock s' := by
  have hold : ∀ {w job}, (s'.workers w).job? = some job → (s.workers w).job? = some job := by
    intro w job hheld
    rcases hworkers w with hnone | hsame
    · rw [hnone] at hheld
      cases hheld
    · rwa [hsame] at hheld
  refine ⟨hc, ?_, ?_, ?_, ?_, ?_, ?_⟩ <;> simp only [hlives, hjobs]
  · exact h.lives
  · exact h.unborn
  · exact h.scheduled
  · exact h.running
  · exact fun w job hheld => h.held w job (hold hheld)
  · exact fun w job hheld => h.mine w job (hold hheld)

theorem request {env : Env} {user : UserRow} {purgeAfter : Nat} (h : Exclusive drawn clock s)
    (hfresh : jobId ∉ drawn)
    (hscheduled : Scheduled env s.accounts user jobId purgeAfter s'.accounts)
    (hworkers : s'.workers = s.workers) (hlog : s'.log = s.log ++ [.requested jobId]) :
    Exclusive (jobId :: drawn) clock s' := by
  have hlife : ∀ id, lifeOf id (s.log ++ [.requested jobId]) = _ :=
    lifeOf_append rfl (h.unborn jobId hfresh) rfl
  have hother : ∀ j ∈ s.accounts.deletionJobs.rows, j.jobId ≠ jobId := fun j hj he =>
    hfresh (he ▸ h.mem_drawn_of_mem hj)
  refine ⟨h.consistent.schedule hscheduled, fun id => ?_, fun id hid => ?_, fun j hj => ?_,
    fun j hj => ?_, fun w job hheld => ?_, fun w job hheld j hj => ?_⟩
  · rw [hlog, hlife]
    split
    · exact ⟨_, rfl⟩
    · exact h.lives id
  · rw [List.mem_cons, not_or] at hid
    rw [hlog, hlife, if_neg hid.1]
    exact h.unborn id hid.2
  · rw [hlog, hlife]
    rcases (Table.mem_insert? hscheduled.jobs_eq).mp hj with hj | rfl
    · rw [if_neg (hother j hj)]
      exact h.scheduled j hj
    · intro _
      exact if_pos rfl
  · rw [hlog, hlife]
    rcases (Table.mem_insert? hscheduled.jobs_eq).mp hj with hj | rfl
    · rw [if_neg (hother j hj)]
      exact h.running j hj
    · intro hrunning
      cases hrunning
  · rw [hworkers] at hheld
    have hne : job.jobId ≠ jobId := fun he => hfresh (he ▸ h.mem_drawn_of_held hheld)
    rw [hlog, hlife, if_neg hne]
    exact h.held w job hheld
  · rw [hworkers] at hheld
    rcases (Table.mem_insert? hscheduled.jobs_eq).mp hj with hj | rfl
    · exact h.mine w job hheld j hj
    · intro _ hw
      cases hw

/-- An entry about a job that was drawn. The other rows stay; the row of the job is gone, or
agrees with the entry. -/
theorem append {entry : DeletionEntry} {life later : JobLife} (h : Exclusive drawn clock s)
    (hc : s'.accounts.Consistent) (hdrawn : jobId ∈ drawn) (hid : entry.jobId? = some jobId)
    (hlife : lifeOf jobId s.log = some life) (hnext : life.next entry = some later)
    (hkeep : ∀ w ∈ life.claimants, w ∈ later.claimants) (hlog : s'.log = s.log ++ [entry])
    (hrows : ∀ j ∈ s'.accounts.deletionJobs.rows,
      (j ∈ s.accounts.deletionJobs.rows ∧ j.jobId ≠ jobId) ∨
        (j.jobId = jobId ∧ j.status = .running ∧ j.purgeAfter ≤ clock ∧
          ∃ workerIds, later = .claimed j.fencingToken workerIds))
    (hheld : ∀ w job, (s'.workers w).job? = some job →
      (s.workers w).job? = some job ∨ (job.jobId = jobId ∧ w ∈ later.claimants))
    (hmine : ∀ w job, (s'.workers w).job? = some job → ∀ j ∈ s'.accounts.deletionJobs.rows,
      j.tenantId = job.tenantId → j.workerId = some w → j.jobId = job.jobId) :
    Exclusive drawn clock s' := by
  have hlives := lifeOf_append hid hlife hnext
  refine ⟨hc, fun id => ?_, fun id hnot => ?_, fun j hj hscheduled => ?_, fun j hj hrunning => ?_,
    fun w job hw => ?_, hmine⟩ <;> rw [hlog, hlives]
  · split
    · exact ⟨later, rfl⟩
    · exact h.lives id
  · rw [if_neg (fun he : id = jobId => hnot (he ▸ hdrawn))]
    exact h.unborn id hnot
  · rcases hrows j hj with ⟨hold, hne⟩ | ⟨-, hrunning, -⟩
    · rw [if_neg hne]
      exact h.scheduled j hold hscheduled
    · rw [hscheduled] at hrunning
      cases hrunning
  · rcases hrows j hj with ⟨hold, hne⟩ | ⟨heq, -, hbegun, workerIds, hlater⟩
    · rw [if_neg hne]
      exact h.running j hold hrunning
    · rw [if_pos heq, hlater]
      exact ⟨hbegun, workerIds, rfl⟩
  · rcases hheld w job hw with hold | ⟨heq, hmem⟩
    · obtain ⟨l, hl, hmem⟩ := h.held w job hold
      split
      · rename_i heq
        rw [heq, hlife] at hl
        cases hl
        exact ⟨later, rfl, hkeep w hmem⟩
      · exact ⟨l, hl, hmem⟩
    · rw [if_pos heq]
      exact ⟨later, rfl, hmem⟩

theorem recover {env : Env} {user : UserRow} (h : Exclusive drawn clock s)
    (hrestored : Restored env s.accounts user j s'.accounts) (hworkers : s'.workers = s.workers)
    (hlog : s'.log = s.log ++ [.recovered j.jobId]) : Exclusive drawn clock s' := by
  have hj := hrestored.job_mem
  refine h.append (h.consistent.restore hrestored) (h.mem_drawn_of_mem hj) rfl
    (h.scheduled j hj hrestored.scheduled) rfl nofun hlog (fun j' hj' => .inl ?_)
    (fun w job hw => .inl (hworkers ▸ hw)) fun w job hw j' hj' => ?_
  · obtain ⟨hold, hne⟩ := (hrestored.mem_jobs j').mp hj'
    exact ⟨hold, fun he => hne (job_eq_of_id hold hj he)⟩
  · exact h.mine w job (hworkers ▸ hw) j' ((hrestored.mem_jobs j').mp hj').1

theorem claim {env : Env} {workerId : String} (h : Exclusive drawn env.now s)
    (hj : j ∈ s.accounts.deletionJobs.rows) (hdue : isDue env.now j = true)
    (haccounts : s'.accounts = { s.accounts with
      deletionJobs := s.accounts.deletionJobs.replace j
        (j.claim workerId env.now env.settings.leaseTtlMs j) (j.claim_keys _ _ _ _) })
    (hworker : (s'.workers workerId).job? =
      some (j.claim workerId env.now env.settings.leaseTtlMs j))
    (hworkers : ∀ w ≠ workerId, s'.workers w = s.workers w)
    (hlog : s'.log = s.log ++
      [.claimed workerId j.jobId (j.fencingToken + 1) j.purgeAfter env.now]) :
    Exclusive drawn env.now s' := by
  have hc : s'.accounts.Consistent := haccounts ▸ h.consistent.replaceJob _ hj rfl
  -- The time of a job that runs has come when it was first claimed.
  have hbegun : j.purgeAfter ≤ env.now := by
    cases hstatus : j.status with
    | scheduled => simpa [isDue, hstatus] using hdue
    | running => exact (h.running j hj hstatus).1
  obtain ⟨life, hlife, workerIds, hnext, hkeep⟩ : ∃ life, lifeOf j.jobId s.log = some life ∧
      ∃ workerIds, life.next (.claimed workerId j.jobId (j.fencingToken + 1) j.purgeAfter env.now)
        = some (.claimed (j.fencingToken + 1) (workerId :: workerIds)) ∧
        ∀ w ∈ life.claimants, w ∈ workerId :: workerIds := by
    rcases h.life_of_mem hj with hlife | ⟨workerIds, hlife⟩
    · exact ⟨_, hlife, [], by simp [JobLife.next, hbegun], by simp [JobLife.claimants]⟩
    · exact ⟨_, hlife, workerIds, by simp [JobLife.next, hbegun],
        fun w hw => List.mem_cons_of_mem _ hw⟩
  have hrows : ∀ j' ∈ s'.accounts.deletionJobs.rows,
      j' = j.claim workerId env.now env.settings.leaseTtlMs j ∨
        (j' ∈ s.accounts.deletionJobs.rows ∧ j' ≠ j) := by
    intro j' hj'
    rw [haccounts] at hj'
    exact (mem_replace_job (j.claim_keys _ _ _ _) hj).mp hj'
  have hheld : ∀ w job, (s'.workers w).job? = some job →
      (w ≠ workerId ∧ (s.workers w).job? = some job) ∨
        (w = workerId ∧ job = j.claim workerId env.now env.settings.leaseTtlMs j) := by
    intro w job hw
    by_cases he : w = workerId
    · subst he
      rw [hworker] at hw
      exact .inr ⟨rfl, (Option.some.inj hw).symm⟩
    · exact .inl ⟨he, hworkers w he ▸ hw⟩
  refine h.append hc (h.mem_drawn_of_mem hj) rfl hlife hnext hkeep hlog (fun j' hj' => ?_)
    (fun w job hw => ?_) fun w job hw j' hj' htenant hmine => ?_
  · rcases hrows j' hj' with rfl | ⟨hold, hne⟩
    · exact .inr ⟨rfl, rfl, hbegun, workerId :: workerIds, rfl⟩
    · exact .inl ⟨hold, fun he => hne (job_eq_of_id hold hj he)⟩
  · rcases hheld w job hw with ⟨-, hold⟩ | ⟨rfl, rfl⟩
    · exact .inl hold
    · exact .inr ⟨rfl, List.mem_cons_self⟩
  · rcases hheld w job hw with ⟨hne, hold⟩ | ⟨rfl, rfl⟩ <;>
      rcases hrows j' hj' with rfl | ⟨hkept, hother⟩
    · exact absurd (Option.some.inj hmine).symm hne
    · exact h.mine w job hold j' hkept htenant hmine
    · rfl
    · exact absurd (h.consistent.oneJob j' hkept j hj htenant) hother

theorem rewrite {workerId : String} {job j' : DeletionJobRow} (h : Exclusive drawn clock s)
    (hheld : (s.workers workerId).job? = some job) (hj : j ∈ s.accounts.deletionJobs.rows)
    (hheldBy : heldBy workerId job j = true) (hk : j'.keys = j.keys)
    (htenant : j'.tenantId = j.tenantId) (hstatus : j'.status = j.status)
    (hworkerId : j'.workerId = j.workerId) (htoken : j'.fencingToken = j.fencingToken)
    (hpurgeAfter : j'.purgeAfter = j.purgeAfter)
    (haccounts : s'.accounts = { s.accounts with
      deletionJobs := s.accounts.deletionJobs.replace j j' hk })
    (hworker : (s'.workers workerId).job? = none ∨ (s'.workers workerId).job? = some j')
    (hworkers : ∀ w ≠ workerId, s'.workers w = s.workers w) (hlog : s'.log = s.log) :
    Exclusive drawn clock s' := by
  have hid : j'.jobId = j.jobId := by simpa [DeletionJobRow.keys] using hk
  simp only [heldBy, Bool.and_eq_true, beq_iff_eq] at hheldBy
  obtain ⟨⟨⟨⟨hsame, hrunning⟩, hholder⟩, -⟩, -⟩ := hheldBy
  have hjob : j.jobId = job.jobId := h.mine workerId job hheld j hj hsame hholder
  have hrows : ∀ a ∈ s'.accounts.deletionJobs.rows, ∃ b ∈ s.accounts.deletionJobs.rows,
      a.jobId = b.jobId ∧ a.tenantId = b.tenantId ∧ a.status = b.status ∧
        a.workerId = b.workerId ∧ a.fencingToken = b.fencingToken ∧
        a.purgeAfter = b.purgeAfter := by
    intro a ha
    rw [haccounts] at ha
    rcases (mem_replace_job hk hj).mp ha with rfl | ⟨ha, -⟩
    · exact ⟨j, hj, hid, htenant, hstatus, hworkerId, htoken, hpurgeAfter⟩
    · exact ⟨a, ha, rfl, rfl, rfl, rfl, rfl, rfl⟩
  -- The renewed record is the record of the same job.
  have hjobs : ∀ w b, (s'.workers w).job? = some b → ∃ a, (s.workers w).job? = some a ∧
      b.jobId = a.jobId ∧ b.tenantId = a.tenantId := by
    intro w b hb
    by_cases he : w = workerId
    · subst he
      rcases hworker with hnone | hsome
      · rw [hnone] at hb
        cases hb
      · rw [hsome] at hb
        cases hb
        exact ⟨job, hheld, hid.trans hjob, htenant.trans hsame⟩
    · exact ⟨b, hworkers w he ▸ hb, rfl, rfl⟩
  refine ⟨haccounts ▸ h.consistent.replaceJob hk hj htenant, hlog ▸ h.lives, hlog ▸ h.unborn,
    fun a ha hscheduled => ?_, fun a ha hrun => ?_, fun w b hb => ?_,
    fun w b hb a ha hab hmine => ?_⟩
  · obtain ⟨b, hb, hid, -, hstatus, -⟩ := hrows a ha
    rw [hlog, hid]
    exact h.scheduled b hb (hstatus ▸ hscheduled)
  · obtain ⟨b, hb, hid, -, hstatus, -, htoken, hpurge⟩ := hrows a ha
    rw [hlog, hid, htoken, hpurge]
    exact h.running b hb (hstatus ▸ hrun)
  · obtain ⟨a, ha, hid, -⟩ := hjobs w b hb
    rw [hlog, hid]
    exact h.held w a ha
  · obtain ⟨c, hc, hid, htenant, -, hworkerId, -⟩ := hrows a ha
    obtain ⟨d, hd, hid', htenant'⟩ := hjobs w b hb
    rw [hid, hid']
    exact h.mine w d hd c hc (htenant.symm.trans (hab.trans htenant')) (hworkerId ▸ hmine)

theorem remove {workerId : String} {job : DeletionJobRow} (h : Exclusive drawn clock s)
    (hheld : (s.workers workerId).job? = some job) (haccounts : s'.accounts = s.accounts)
    (hworker : (s'.workers workerId).job? = some job)
    (hworkers : ∀ w ≠ workerId, s'.workers w = s.workers w)
    (hlog : s'.log = s.log ++ [.removed workerId job.jobId]) : Exclusive drawn clock s' := by
  have hold : ∀ w b, (s'.workers w).job? = some b → (s.workers w).job? = some b := by
    intro w b hb
    by_cases he : w = workerId
    · rw [he, hworker] at hb
      rw [he, hheld, hb]
    · exact hworkers w he ▸ hb
  obtain ⟨life, hlife, hmem⟩ := h.held workerId job hheld
  refine h.append (haccounts ▸ h.consistent) (h.mem_drawn_of_held hheld) rfl hlife
    (JobLife.next_removed.mpr ⟨rfl, hmem⟩) (fun _ hw => hw) hlog (fun a ha => ?_)
    (fun w b hb => .inl (hold w b hb)) fun w b hb => haccounts ▸ h.mine w b (hold w b hb)
  rw [haccounts] at ha
  by_cases he : a.jobId = job.jobId
  · rw [← he] at hlife
    cases hstatus : a.status with
    | scheduled =>
      rw [h.scheduled a ha hstatus] at hlife
      cases hlife
      simp [JobLife.claimants] at hmem
    | running =>
      obtain ⟨hbegun, workerIds, hclaimed⟩ := h.running a ha hstatus
      rw [hclaimed] at hlife
      cases hlife
      exact .inr ⟨he, rfl, hbegun, workerIds, rfl⟩
  · exact .inl ⟨ha, he⟩

theorem purge {workerId : String} {job : DeletionJobRow} (h : Exclusive drawn clock s)
    (hj : j ∈ s.accounts.deletionJobs.rows) (hheldBy : heldBy workerId job j = true)
    (haccounts : s'.accounts = s.accounts.purged j.tenantId)
    (hworker : (s'.workers workerId).job? = none)
    (hworkers : ∀ w ≠ workerId, s'.workers w = s.workers w)
    (hlog : s'.log = s.log ++ [.purged workerId j.jobId]) : Exclusive drawn clock s' := by
  simp only [heldBy, Bool.and_eq_true, beq_iff_eq] at hheldBy
  obtain ⟨-, workerIds, hlife⟩ := h.running j hj hheldBy.1.1.1.2
  have hold : ∀ w b, (s'.workers w).job? = some b → (s.workers w).job? = some b := by
    intro w b hb
    by_cases he : w = workerId
    · rw [he, hworker] at hb
      cases hb
    · exact hworkers w he ▸ hb
  have hrows : ∀ a ∈ s'.accounts.deletionJobs.rows,
      a ∈ s.accounts.deletionJobs.rows ∧ a.tenantId ≠ j.tenantId := by
    intro a ha
    rw [haccounts] at ha
    obtain ⟨ha, hkept⟩ := Table.mem_delete.mp ha
    exact ⟨ha, by simpa using hkept⟩
  have hnext : (JobLife.claimed j.fencingToken workerIds).next (.purged workerId j.jobId) =
    some (.purged workerIds) := rfl
  refine h.append (haccounts ▸ h.consistent.purge _) (h.mem_drawn_of_mem hj) rfl hlife hnext
    (fun _ hw => hw) hlog (fun a ha => .inl ?_) (fun w b hb => .inl (hold w b hb))
    fun w b hb a ha => h.mine w b (hold w b hb) a (hrows a ha).1
  obtain ⟨hkept, hne⟩ := hrows a ha
  exact ⟨hkept, fun he => hne (by rw [job_eq_of_id hkept hj he])⟩

theorem mono {drawn' : List String} (h : Exclusive drawn clock s) (hsub : drawn ⊆ drawn')
    (hle : clock ≤ now) : Exclusive drawn' now s where
  __ := h
  unborn id hid := h.unborn id fun hmem => hid (hsub hmem)
  running j hj hrunning :=
    ⟨(h.running j hj hrunning).1.trans hle, (h.running j hj hrunning).2⟩

/-- Every event whose id is fresh and whose instant is not in the past keeps the rows, the workers
and the log in agreement. -/
theorem step (h : Exclusive drawn clock s) (hfresh : ∀ id ∈ e.drawnJobId?, id ∉ drawn)
    (hclock : ∀ now ∈ e.now?, clock ≤ now) :
    Exclusive (e.drawnJobId?.toList ++ drawn) (e.now?.getD clock) (s.step e) := by
  have hle : clock ≤ e.now?.getD clock := by
    cases hnow : e.now? with
    | none => exact le_rfl
    | some now => exact hclock now hnow
  have hsub : drawn ⊆ e.drawnJobId?.toList ++ drawn := List.subset_append_right _ _
  have hmoves := Moves.of_step h.consistent e
  have hc := hmoves.consistent h.consistent
  cases hmoves with
  | still hjobs husers hdb hworkers entry hlog hneutral =>
    refine (h.still hc (fun id => ?_) hjobs hworkers).mono hsub hle
    rw [hlog]
    refine lifeOf_append_option fun x hx => ?_
    have := hneutral x hx
    cases x <;> simp_all [DeletionEntry.isNeutral, DeletionEntry.jobId?]
  | register user hactive husers hjobs hdb hworkers hlog =>
    exact (h.still hc (fun id => by rw [hlog]) hjobs fun w => .inr (by rw [hworkers])).mono hsub hle
  | request env user jobId purgeAfter hdrawn hscheduled hworkers hlog =>
    rw [hdrawn]
    exact (h.request (hfresh jobId hdrawn) hscheduled hworkers hlog).mono (fun _ hid => hid) hle
  | recover env user job hrestored hworkers hlog =>
    exact (h.recover hrestored hworkers hlog).mono hsub hle
  | claim env workerId j hnow hj hdue haccounts hworker hworkers hlog =>
    have hnow' : e.now?.getD clock = env.now := by rw [hnow]; rfl
    rw [hnow'] at hle ⊢
    exact ((h.mono (fun _ hid => hid) hle).claim hj hdue haccounts hworker hworkers hlog).mono
      hsub le_rfl
  | rewrite workerId job j j' hheld hj hheldBy hk htenant hstatus hworkerId htoken hpurgeAfter
      haccounts hworker hworkers hlog =>
    exact (h.rewrite hheld hj hheldBy hk htenant hstatus hworkerId htoken hpurgeAfter haccounts
      hworker hworkers hlog).mono hsub hle
  | remove workerId job hheld haccounts hworker hworkers hlog =>
    exact (h.remove hheld haccounts hworker hworkers hlog).mono hsub hle
  | purge workerId user job j hevent hphase huser hid hpending hj hheldBy haccounts hworker
      hworkers hlog =>
    exact (h.purge hj hheldBy haccounts hworker hworkers hlog).mono hsub hle

end Exclusive

/-- Every job gets an id of its own, and the clock of the database does not run backwards. -/
structure OrderlyEvents (events : List ServerEvent) : Prop where
  distinct : (events.filterMap ServerEvent.drawnJobId?).Nodup
  forward : (events.filterMap ServerEvent.now?).Pairwise (· ≤ ·)

theorem OrderlyEvents.of_append {events : List ServerEvent} (h : OrderlyEvents (events ++ [e])) :
    OrderlyEvents events ∧ (∀ id ∈ e.drawnJobId?, id ∉ events.filterMap ServerEvent.drawnJobId?) ∧
      ∀ now ∈ e.now?, ∀ earlier ∈ events.filterMap ServerEvent.now?, earlier ≤ now := by
  obtain ⟨hdistinct, hforward⟩ := h
  rw [List.filterMap_append] at hdistinct hforward
  rw [List.nodup_append] at hdistinct
  rw [List.pairwise_append] at hforward
  refine ⟨⟨hdistinct.1, hforward.1⟩, fun id hid hmem => ?_, fun now hnow earlier hmem => ?_⟩
  · exact hdistinct.2.2 id hmem id (by simp [Option.mem_def.mp hid]) rfl
  · exact hforward.2.2 earlier hmem now (by simp [Option.mem_def.mp hnow])

theorem exclusive_run (maxQueue : Nat) {events : List ServerEvent} (h : OrderlyEvents events) :
    ∃ drawn clock, Exclusive drawn clock ((ServerState.initial maxQueue).run events) ∧
      drawn ⊆ events.filterMap ServerEvent.drawnJobId? ∧
      (clock = 0 ∨ clock ∈ events.filterMap ServerEvent.now?) := by
  induction events using List.reverseRecOn with
  | nil => exact ⟨[], 0, .initial maxQueue, List.nil_subset _, .inl rfl⟩
  | append_singleton events e ih =>
    obtain ⟨horderly, hfresh, hclock⟩ := h.of_append
    obtain ⟨drawn, clock, hexclusive, hdrawn, hpast⟩ := ih horderly
    have hstep := hexclusive.step (e := e) (fun id hid hmem => hfresh id hid (hdrawn hmem))
      fun now hnow => by
        rcases hpast with rfl | hmem
        · exact Nat.zero_le _
        · exact hclock now hnow clock hmem
    refine ⟨_, _, by rw [ServerState.run, List.foldl_append]; exact hstep, ?_, ?_⟩
    · rw [List.filterMap_append]
      intro id hid
      rcases List.mem_append.mp hid with hnew | hold
      · exact List.mem_append_right _ (by simpa using hnew)
      · exact List.mem_append_left _ (hdrawn hold)
    · rw [List.filterMap_append]
      cases hnow : e.now? with
      | none => exact hpast.imp_right fun hmem => List.mem_append_left _ hmem
      | some now => exact .inr (List.mem_append_right _ (by simp [hnow]))

/-- The job of a worker is stored as the worker knows it. -/
def ServerState.Holds (s : ServerState) (workerId : String) (job : DeletionJobRow) : Prop :=
  ∃ j, s.accounts.getJob job.tenantId = some j ∧ j.jobId = job.jobId ∧ j.status = .running ∧
    j.workerId = some workerId ∧ j.fencingToken = job.fencingToken ∧ j.version = job.version

theorem mem_users_replace {accounts : Accounts} {user user' u : UserRow}
    (hk : user'.keys = user.keys) (hmem : user ∈ accounts.users.rows) (hid : user'.id = user.id)
    (hu : u ∈ accounts.users.rows) :
    ∃ u' ∈ (accounts.users.replace user user' hk).rows, u'.id = u.id := by
  by_cases he : u = user
  · exact ⟨user', (mem_replace_user hk hmem).mpr (.inl rfl), he ▸ hid⟩
  · exact ⟨u, (mem_replace_user hk hmem).mpr (.inr ⟨hu, he⟩), rfl⟩

/-- An account is lost to a purge only. -/
theorem user_kept (hc : s.accounts.Consistent) {u : UserRow} (hu : u ∈ s.accounts.users.rows)
    (hpurge : ∀ env workerId violated, e ≠ .purge env workerId violated) :
    ∃ u' ∈ (s.step e).accounts.users.rows, u'.id = u.id := by
  cases Moves.of_step hc e with
  | still hjobs husers => exact ⟨u, husers ▸ hu, rfl⟩
  | register user hactive husers => exact ⟨u, (Table.mem_insert? husers).mpr (.inl hu), rfl⟩
  | request env user jobId purgeAfter hdrawn hscheduled =>
    rw [hscheduled.users_eq]
    exact mem_users_replace _ hscheduled.mem rfl hu
  | recover env user job hrestored =>
    rw [hrestored.users_eq]
    exact mem_users_replace _ hrestored.user_mem rfl hu
  | claim env workerId j hnow hj hdue haccounts => exact ⟨u, haccounts ▸ hu, rfl⟩
  | rewrite workerId job j j' hheld hj hheldBy hk htenant hstatus hworkerId htoken hpurgeAfter
      haccounts => exact ⟨u, haccounts ▸ hu, rfl⟩
  | remove workerId job hheld haccounts => exact ⟨u, haccounts ▸ hu, rfl⟩
  | purge workerId user job j hevent =>
    obtain ⟨env, violated, he⟩ := hevent
    exact absurd he (hpurge env workerId violated)

/-- A purge that changes the tables is made by the worker that holds the job. -/
theorem Exclusive.holds_of_purge {env : Env} {workerId : String} {violated : Bool}
    (h : Exclusive drawn clock s)
    (hchange : (s.step (.purge env workerId violated)).accounts ≠ s.accounts) :
    ∃ job, s.workers workerId = .purging job ∧ s.Holds workerId job := by
  change (s.purge env workerId violated).accounts ≠ s.accounts at hchange
  rcases Moves.purge_cases s env workerId violated with
    hsame | hidle | ⟨user, job, j, hphase, -, -, -, hj, hheldBy, -⟩
  · exact absurd (by rw [hsame]) hchange
  · exact absurd (by rw [hidle]; rfl) hchange
  · have hheld : (s.workers workerId).job? = some job := by rw [hphase]; rfl
    simp only [heldBy, Bool.and_eq_true, beq_iff_eq] at hheldBy
    obtain ⟨⟨⟨⟨htenant, hrunning⟩, hworker⟩, htoken⟩, hversion⟩ := hheldBy
    exact ⟨job, hphase, j, htenant ▸ h.consistent.getJob_of_mem hj,
      h.mine workerId job hheld j hj htenant hworker, hrunning, hworker, htoken, hversion⟩

/-- At most one of recovery and purge succeeds for a job. Files are removed by a worker that claimed
the job when its time had come, and its account is never recovered. Only a purge loses an account,
and only the worker that holds the job as it is stored, with the last claim of it, purges. -/
theorem recover_purge_exclusive (maxQueue : Nat) (events : List ServerEvent)
    (horderly : OrderlyEvents events) :
    let s := (ServerState.initial maxQueue).run events
    (∀ jobId, s.log.countP (·.settles jobId) ≤ 1) ∧
    (∀ workerId jobId before after, s.log = before ++ .removed workerId jobId :: after →
      (∃ token purgeAfter now, .claimed workerId jobId token purgeAfter now ∈ before ∧
        purgeAfter ≤ now) ∧ .recovered jobId ∉ s.log) ∧
    (∀ e, ∀ u ∈ s.accounts.users.rows, (∀ u' ∈ (s.step e).accounts.users.rows, u'.id ≠ u.id) →
      ∃ env workerId violated, e = .purge env workerId violated) ∧
    (∀ env workerId violated, (s.step (.purge env workerId violated)).accounts ≠ s.accounts →
      ∃ job, s.workers workerId = .purging job ∧ s.Holds workerId job ∧
        ∀ w token purgeAfter now, .claimed w job.jobId token purgeAfter now ∈ s.log →
          token ≤ job.fencingToken) := by
  intro s
  obtain ⟨drawn, clock, h, -⟩ := exclusive_run maxQueue horderly
  refine ⟨fun jobId => ?_, fun workerId jobId before after hlog => ?_, fun e u hu hlost => ?_,
    fun env workerId violated hchange => ?_⟩
  · obtain ⟨life, hlife⟩ := h.lives jobId
    rw [(tells_of_lifeOf hlife).settled]
    cases life <;> simp
  · obtain ⟨life, hlife⟩ := h.lives jobId
    change lifeOf jobId s.log = some life at hlife
    rw [hlog] at hlife ⊢
    exact claimed_before_removed hlife
  · by_contra hnot
    simp only [not_exists] at hnot
    obtain ⟨u', hu', hid⟩ := user_kept h.consistent hu hnot
    exact hlost u' hu' hid
  · obtain ⟨job, hphase, hholds⟩ := h.holds_of_purge hchange
    refine ⟨job, hphase, hholds, fun w token purgeAfter now hclaim => ?_⟩
    obtain ⟨j, hj, hid, hrunning, -, htoken, -⟩ := hholds
    obtain ⟨-, workerIds, hlife⟩ := h.running j (getJob_eq_some hj).1 hrunning
    have htells := (tells_of_lifeOf hlife).tokens w token purgeAfter now (hid ▸ hclaim)
    rwa [htoken] at htells

/-- A deletion from the request to the purge, with a takeover by a second worker. -/
def sampleDeletion : List ServerEvent :=
  let day0 : Env := { settings := .standard, host := .ascii, now := 0, now_lt := Env.zero_lt }
  let day1 : Env := { settings := .standard, host := .ascii, now := 86400000 }
  let day2 : Env := { settings := .standard, host := .ascii, now := 172800000 }
  [.register "ada" "ada@example.org" 0, .request day0 "ada" "job" 1, .revoke "ada",
    .claim day1 "w1" "ada", .workerRevoke "w1", .survey day1 "w1" [], .remove "w1" .removed,
    .beat day1 "w1", .claim day2 "w2" "ada", .workerRevoke "w2", .survey day2 "w2" [],
    .remove "w2" .removed, .beat day2 "w2", .purge day2 "w1" false, .purge day2 "w2" false]

theorem recover_purge_exclusive_takeover : OrderlyEvents sampleDeletion ∧
    .purged "w2" "job" ∈ ((ServerState.initial 1).run sampleDeletion).log ∧
    ((ServerState.initial 1).run sampleDeletion).log.countP (·.settles "job") ≤ 1 := by
  have horderly : OrderlyEvents sampleDeletion := ⟨by decide, by decide⟩
  exact ⟨horderly, by decide +kernel, (recover_purge_exclusive 1 sampleDeletion horderly).1 "job"⟩

end MultiClaw
