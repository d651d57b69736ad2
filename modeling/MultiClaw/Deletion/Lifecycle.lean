import MultiClaw.Deletion.System

/-! The life of a deletion job, as the log tells it. -/
namespace MultiClaw

/-- Where a job is in its life. Once it is claimed, the workers that have claimed it are known. -/
inductive JobLife where
  | unborn
  | scheduled
  | claimed (fencingToken : Nat) (claimants : List String)
  | recovered
  | purged (claimants : List String)

namespace DeletionEntry

/-- The job that an entry is about. -/
def jobId? : DeletionEntry → Option String
  | requested jobId | recovered jobId | claimed _ jobId _ _ _ | removed _ jobId
  | purged _ jobId => some jobId
  | revoked _ | started => none

/-- The entry says that the job is over: its account was recovered or purged. -/
def settles (jobId : String) : DeletionEntry → Bool
  | recovered id | purged _ id => id == jobId
  | _ => false

end DeletionEntry

namespace JobLife

def claimants : JobLife → List String
  | claimed _ workerIds | purged workerIds => workerIds
  | _ => []

/-- What an entry about the job does to its life, if the job can have it. -/
def next : JobLife → DeletionEntry → Option JobLife
  | unborn, .requested _ => some scheduled
  | scheduled, .recovered _ => some recovered
  | scheduled, .claimed workerId _ token purgeAfter now =>
    if purgeAfter ≤ now then some (claimed token [workerId]) else none
  | claimed token workerIds, .claimed workerId _ token' purgeAfter now =>
    if token < token' ∧ purgeAfter ≤ now then some (claimed token' (workerId :: workerIds))
    else none
  | claimed token workerIds, .removed workerId _ =>
    if workerId ∈ workerIds then some (claimed token workerIds) else none
  | claimed _ workerIds, .purged _ _ => some (purged workerIds)
  -- A worker whose claim was taken over may still be removing files.
  | purged workerIds, .removed workerId _ =>
    if workerId ∈ workerIds then some (purged workerIds) else none
  | _, _ => none

theorem next_removed {life later : JobLife} {workerId jobId : String} :
    life.next (.removed workerId jobId) = some later ↔
      later = life ∧ workerId ∈ life.claimants := by
  cases life <;> simp [next, claimants, and_comm, eq_comm]

end JobLife

/-- The life of a job at the end of a log, if the log is one that a job can have. -/
def lifeOf (jobId : String) (log : List DeletionEntry) : Option JobLife :=
  (log.filter fun entry => entry.jobId? = some jobId).foldlM JobLife.next .unborn

variable {jobId workerId : String} {log before after : List DeletionEntry} {entry : DeletionEntry}
  {life : JobLife}

theorem lifeOf_append_of_ne (h : entry.jobId? ≠ some jobId) :
    lifeOf jobId (log ++ [entry]) = lifeOf jobId log := by
  simp [lifeOf, h]

theorem lifeOf_append_of_eq (h : entry.jobId? = some jobId) :
    lifeOf jobId (log ++ [entry]) = (lifeOf jobId log).bind (·.next entry) := by
  simp [lifeOf, h, List.foldlM_append]

theorem lifeOf_before (h : lifeOf jobId (before ++ after) = some life) :
    ∃ earlier, lifeOf jobId before = some earlier := by
  unfold lifeOf at h ⊢
  rw [List.filter_append, List.foldlM_append] at h
  exact (Option.bind_eq_some_iff.mp h).imp fun _ => And.left

/-- What the life of a job says about the log. -/
structure Tells (jobId : String) (log : List DeletionEntry) (life : JobLife) : Prop where
  settled : log.countP (·.settles jobId) =
    match life with
    | .recovered | .purged _ => 1
    | _ => 0
  claims : ∀ w ∈ life.claimants, ∃ token purgeAfter now,
    .claimed w jobId token purgeAfter now ∈ log ∧ purgeAfter ≤ now
  tokens : ∀ w token purgeAfter now, .claimed w jobId token purgeAfter now ∈ log →
    match life with
    | .claimed current _ => token ≤ current
    | .purged _ => True
    | _ => False
  kept : .recovered jobId ∈ log → life = .recovered

theorem settles_of_ne (h : entry.jobId? ≠ some jobId) : entry.settles jobId = false := by
  cases entry <;> simp_all [DeletionEntry.settles, DeletionEntry.jobId?]

/-- An entry about another job changes nothing for this one. -/
theorem Tells.append_of_ne (h : Tells jobId log life) (hne : entry.jobId? ≠ some jobId) :
    Tells jobId (log ++ [entry]) life where
  settled := by
    rw [List.countP_append, h.settled]
    simp [settles_of_ne hne]
  claims w hw := by
    obtain ⟨token, purgeAfter, now, hmem, hdue⟩ := h.claims w hw
    exact ⟨token, purgeAfter, now, List.mem_append_left _ hmem, hdue⟩
  tokens w token purgeAfter now hmem := by
    rcases List.mem_append.mp hmem with hold | hnew
    · exact h.tokens w token purgeAfter now hold
    · rw [← List.mem_singleton.mp hnew] at hne
      exact absurd rfl hne
  kept hmem := by
    rcases List.mem_append.mp hmem with hold | hnew
    · exact h.kept hold
    · rw [← List.mem_singleton.mp hnew] at hne
      exact absurd rfl hne

theorem Tells.append_of_eq {later : JobLife} (h : Tells jobId log life)
    (heq : entry.jobId? = some jobId) (hnext : life.next entry = some later) :
    Tells jobId (log ++ [entry]) later := by
  obtain ⟨hsettled, hclaims, htokens, hkept⟩ := h
  -- One case for each entry that a job can have.
  cases life <;> cases entry <;>
    simp only [JobLife.next, reduceCtorEq, Option.some.injEq, Option.ite_none_right_eq_some]
      at hnext <;>
    cases Option.some.inj heq
  case unborn.requested | scheduled.recovered =>
    subst hnext
    constructor <;> simp_all [DeletionEntry.settles, JobLife.claimants]
  case scheduled.claimed =>
    obtain ⟨hdue, rfl⟩ := hnext
    constructor <;> simp_all [DeletionEntry.settles, JobLife.claimants]
  case claimed.claimed token workerIds workerId token' purgeAfter now =>
    obtain ⟨⟨hlt, hdue⟩, rfl⟩ := hnext
    refine ⟨by simpa [DeletionEntry.settles] using hsettled, ?_, ?_, by simpa using hkept⟩
    · intro w hw
      rcases List.mem_cons.mp hw with rfl | hw
      · exact ⟨token', purgeAfter, now, by simp, hdue⟩
      · obtain ⟨t, p, n, hmem, hle⟩ := hclaims w hw
        exact ⟨t, p, n, List.mem_append_left _ hmem, hle⟩
    · intro w t p n hmem
      rcases List.mem_append.mp hmem with hold | hnew
      · exact (htokens w t p n hold).trans hlt.le
      · cases List.mem_singleton.mp hnew
        exact le_rfl
  case claimed.removed | purged.removed =>
    obtain ⟨-, rfl⟩ := hnext
    refine ⟨by simpa [DeletionEntry.settles] using hsettled, ?_, by simpa using htokens,
      by simpa using hkept⟩
    intro w hw
    obtain ⟨t, p, n, hmem, hle⟩ := hclaims w hw
    exact ⟨t, p, n, List.mem_append_left _ hmem, hle⟩
  case claimed.purged token workerIds workerId =>
    subst hnext
    refine ⟨by simpa [DeletionEntry.settles] using hsettled, ?_, by simp, by simpa using hkept⟩
    intro w hw
    obtain ⟨t, p, n, hmem, hle⟩ := hclaims w hw
    exact ⟨t, p, n, List.mem_append_left _ hmem, hle⟩

theorem tells_of_lifeOf (h : lifeOf jobId log = some life) : Tells jobId log life := by
  induction log using List.reverseRecOn generalizing life with
  | nil =>
    cases h
    exact ⟨rfl, by simp [JobLife.claimants], by simp, by simp⟩
  | append_singleton log entry ih =>
    by_cases he : entry.jobId? = some jobId
    · rw [lifeOf_append_of_eq he] at h
      obtain ⟨earlier, hearlier, hnext⟩ := Option.bind_eq_some_iff.mp h
      exact (ih hearlier).append_of_eq he hnext
    · rw [lifeOf_append_of_ne he] at h
      exact (ih h).append_of_ne he

/-- The lives after an entry that its job can have. -/
theorem lifeOf_append {later : JobLife} (hid : entry.jobId? = some jobId)
    (hlife : lifeOf jobId log = some life) (hnext : life.next entry = some later) (id : String) :
    lifeOf id (log ++ [entry]) = if id = jobId then some later else lifeOf id log := by
  split
  · rename_i heq
    subst heq
    rw [lifeOf_append_of_eq hid, hlife, Option.bind_some, hnext]
  · rename_i hne
    exact lifeOf_append_of_ne (by simp [hid, Ne.symm hne])

theorem lifeOf_append_option {entry : Option DeletionEntry} (h : ∀ x ∈ entry, x.jobId? = none) :
    lifeOf jobId (log ++ entry.toList) = lifeOf jobId log := by
  cases entry with
  | none => simp
  | some x => exact lifeOf_append_of_ne (by simp [h x rfl])

/-- A removal comes after a claim of its worker, made in time, and excludes a recovery. -/
theorem claimed_before_removed
    (h : lifeOf jobId (before ++ .removed workerId jobId :: after) = some life) :
    (∃ token purgeAfter now, .claimed workerId jobId token purgeAfter now ∈ before ∧
        purgeAfter ≤ now) ∧
      .recovered jobId ∉ before ++ .removed workerId jobId :: after := by
  have hsplit : before ++ .removed workerId jobId :: after =
      (before ++ [.removed workerId jobId]) ++ after := by simp
  obtain ⟨later, hlater⟩ := lifeOf_before (hsplit ▸ h)
  rw [lifeOf_append_of_eq rfl] at hlater
  obtain ⟨earlier, hearlier, hnext⟩ := Option.bind_eq_some_iff.mp hlater
  obtain ⟨token, purgeAfter, now, hclaim, hdue⟩ :=
    (tells_of_lifeOf hearlier).claims workerId (JobLife.next_removed.mp hnext).2
  refine ⟨⟨token, purgeAfter, now, hclaim, hdue⟩, fun hrecovered => ?_⟩
  have htells := tells_of_lifeOf h
  have hfalse := htells.tokens workerId token purgeAfter now (List.mem_append_left _ hclaim)
  rw [htells.kept hrecovered] at hfalse
  exact hfalse

end MultiClaw
