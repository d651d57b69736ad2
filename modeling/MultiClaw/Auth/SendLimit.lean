import MultiClaw.Auth.Routes
import MultiClaw.Auth.CodesSpec

/-! How many codes are sent to an address in a day. -/
namespace MultiClaw

open Base Transaction VerificationCodeRepository AuthRouter List

/-- What the authentication routes and the clean-up worker commit. -/
inductive AuthOp where
  | sendCode (email code codeId : String)
  | sendDeletionRecoveryCode (email code codeId : String) (scheduled : Bool)
  /-- The provider did not take a code; `deleted` says whether the compensation could run. -/
  | deliveryFailed (codeId email : String) (purpose : CodePurpose) (deleted : Bool)
  | verify (email code : String) (bootstrapped : Bool)
  | verifyDeletionRecoveryCode (email code : String) (scheduled : Bool)
  | cleanup

namespace AuthOp

/-- The transaction of an operation, with the id of a code that it issues. -/
def tx (key : List UInt8) : AuthOp → CodeTx (Option String)
  | sendCode email code codeId => AuthRouter.sendCode key email code codeId
  | sendDeletionRecoveryCode email code codeId scheduled =>
    AuthRouter.sendDeletionRecoveryCode key email code codeId scheduled
  | deliveryFailed codeId email purpose deleted =>
    if deleted then (fun _ => none) <$> deleteCodeById codeId email purpose
    else throw (.runtime "Failed to delete reserved verification code")
  | verify email code bootstrapped =>
    (fun _ => none) <$> AuthRouter.verify key email code bootstrapped
  | verifyDeletionRecoveryCode email code scheduled =>
    (fun _ => none) <$> AuthRouter.verifyDeletionRecoveryCode key email code scheduled
  | cleanup => (fun _ => none) <$> deleteExpiredCodes

/-- The address that an operation sends a code to. -/
def address : AuthOp → Option (String × CodePurpose)
  | sendCode email _ _ => some (email, .login)
  | sendDeletionRecoveryCode email _ _ _ => some (email, .deletionRecovery)
  | _ => none

end AuthOp

/-- A code that was issued at an instant of the database clock. -/
structure SentCode where
  id : String
  email : String
  purpose : CodePurpose
  sentAt : Nat
  failed : Bool
  deriving DecidableEq

namespace SentCode

def isFor (email : String) (purpose : CodePurpose) (c : SentCode) : Bool :=
  c.email == email && c.purpose == purpose

/-- Codes for an address whose delivery did not fail. -/
def counts (email : String) (purpose : CodePurpose) (c : SentCode) : Bool :=
  c.isFor email purpose && !c.failed

def fail (codeId email : String) (purpose : CodePurpose) (c : SentCode) : SentCode :=
  if c.id = codeId ∧ c.isFor email purpose = true then { c with failed := true } else c

end SentCode

/-- An operation, committed some time after the one before it. -/
structure AuthEvent where
  delay : Nat
  op : AuthOp

/-- The clock, the table, and the codes issued so far. -/
structure AuthState where
  clock : Nat
  codes : Codes
  sent : List SentCode

namespace AuthState

def empty : AuthState := ⟨0, Table.empty, []⟩

def sentBy (s : AuthState) (key : List UInt8) (e : AuthEvent) : List SentCode :=
  match e.op.address, ((e.op.tx key).commit (s.clock + e.delay) s.codes).1 with
  | some (email, purpose), .ok (some codeId) =>
    [⟨codeId, email, purpose, s.clock + e.delay, false⟩]
  | _, _ => []

def step (key : List UInt8) (s : AuthState) (e : AuthEvent) : AuthState where
  clock := s.clock + e.delay
  codes := ((e.op.tx key).commit (s.clock + e.delay) s.codes).2
  sent := match e.op with
    | .deliveryFailed codeId email purpose _ => s.sent.map (SentCode.fail codeId email purpose)
    | _ => s.sent ++ s.sentBy key e

def run (key : List UInt8) (s : AuthState) (events : List AuthEvent) : AuthState :=
  events.foldl (step key) s

/-- The codes for an address issued in a day, without those whose delivery failed. -/
def issuedInDay (s : AuthState) (email : String) (purpose : CodePurpose) (start : Nat) : Nat :=
  s.sent.countP fun c =>
    c.counts email purpose && decide (start ≤ c.sentAt) && decide (c.sentAt < start + dayMs)

end AuthState

/-- A clean-up pass keeps the codes of the address that are less than a day old. -/
def SparesRecent (email : String) (purpose : CodePurpose) (s : AuthState) (e : AuthEvent) : Prop :=
  e.op = .cleanup → ∀ r ∈ s.codes.rows, r.isFor email purpose = true →
    r.expiresAt ≤ s.clock + e.delay → r.createdAt + dayMs ≤ s.clock + e.delay

/-- Every clean-up pass of a run does. -/
def AllSpareRecent (key : List UInt8) (email : String) (purpose : CodePurpose) :
    AuthState → List AuthEvent → Prop
  | _, [] => True
  | s, e :: events =>
    SparesRecent email purpose s e ∧ AllSpareRecent key email purpose (s.step key e) events

variable {key : List UInt8} {email : String} {purpose : CodePurpose} {s : AuthState} {e : AuthEvent}
  {codes codes' : Codes} {now : Nat}

/-! What an operation does to the table -/

/-- The rows of the address that are less than a day old at an instant, and not among the given
ones, are still there. -/
def Keeps (email : String) (purpose : CodePurpose) (now : Nat) (except : String → Prop)
    (codes codes' : Codes) : Prop :=
  ∀ r ∈ codes.rows, r.isFor email purpose = true → now < r.createdAt + dayMs → ¬except r.id →
    ∃ r' ∈ codes'.rows, r'.id = r.id ∧ r'.isFor email purpose = true ∧ r'.createdAt = r.createdAt

theorem Keeps.refl {except : String → Prop} : Keeps email purpose now except codes codes :=
  fun r hr hfor _ _ => ⟨r, hr, rfl, hfor, rfl⟩

theorem updateUnchanged_keeps (email : String) (purpose : CodePurpose) {record : CodeRow}
    {f : CodeRow → CodeRow}
    {hf : ∀ r, (f r).keys = r.keys} (hemail : ∀ r, (f r).email = r.email)
    (hpurpose : ∀ r, (f r).purpose = r.purpose) (hcreated : ∀ r, (f r).createdAt = r.createdAt) :
    Ensures (updateUnchanged record f hf) now codes fun _ codes' =>
      Keeps email purpose now (fun _ => False) codes codes' := by
  refine ensures_ask (ensures_get (ensures_of_ok rfl ?_))
  intro r hr hfor _ _
  refine ⟨_, Table.mem_update.mpr ⟨r, hr, rfl⟩, ?_⟩
  have hid : (f r).id = r.id := by simpa [CodeRow.keys] using hf r
  split
  · exact ⟨hid, by rw [isFor_iff, hemail, hpurpose]; exact isFor_iff.mp hfor, hcreated r⟩
  · exact ⟨rfl, hfor, rfl⟩

/-- A guess deletes no code. -/
theorem consumeLatestCode_keeps (email : String) (purpose : CodePurpose) {email' digest : String}
    {purpose' : CodePurpose} :
    Ensures (consumeLatestCode email' purpose' digest) now codes fun _ codes' =>
      Keeps email purpose now (fun _ => False) codes codes' := by
  unfold consumeLatestCode
  refine ensures_ask (ensures_get ?_)
  have hpure : ∀ o : Option CodeRow, Ensures (pure o : CodeTx (Option CodeRow)) now codes
      fun _ codes' => Keeps email purpose now (fun _ => False) codes codes' :=
    fun o => ensures_of_ok rfl .refl
  split
  · exact hpure _
  · split
    · exact hpure _
    · split
      · exact hpure _
      · split
        · exact ensures_bind (updateUnchanged_keeps email purpose (fun _ => rfl) (fun _ => rfl)
            fun _ => rfl) fun _ _ h => ensures_of_ok rfl h
        · refine ensures_ofExcept fun encoded _ => ?_
          exact ensures_bind (updateUnchanged_keeps email purpose (fun _ => rfl) (fun _ => rfl)
            fun _ => rfl) fun _ _ h => ensures_of_ok rfl h

/-- What reserving a code does, and what it presupposes. -/
theorem reserveCode_ensures {email' code codeId : String} {purpose' : CodePurpose} :
    Ensures (reserveCode key purpose' email' code codeId) now codes fun id codes' =>
      id = codeId ∧
      codes.count (fun r => r.isFor email' purpose' && decide (now < r.createdAt + dayMs)) <
        maxSendsPerDay ∧
      codes.insert? (newCode codes now codeId email' purpose'
        (deriveVerificationCodeDigest key purpose' email' code) verificationCodeTtlSeconds) =
          some codes' := by
  intro id codes' hrun
  have hcount : (countRecentCodes email' purpose' dayMs).run now codes = .ok
      (codes.count fun r => r.isFor email' purpose' && decide (now < r.createdAt + dayMs), codes) :=
    rfl
  rw [reserveCode, run_bind_of_ok hcount] at hrun
  split at hrun
  · cases hrun
  · rename_i hfew
    obtain ⟨hid, hinsert⟩ := run_issueCode hrun
    exact ⟨hid, by omega, hinsert⟩

/-! The invariant -/

/-- The codes of an address that count at an instant: issued within the last day, and not known to
be undelivered. -/
def AuthState.recent (s : AuthState) (email : String) (purpose : CodePurpose) : List SentCode :=
  s.sent.filter fun c => c.counts email purpose && decide (s.clock < c.sentAt + dayMs)

/-- The recent codes of the address are stored, and no day had too many of them. -/
structure AuthState.Limited (s : AuthState) (email : String) (purpose : CodePurpose) : Prop where
  past : ∀ c ∈ s.sent, c.sentAt ≤ s.clock
  stored : ∀ c ∈ s.recent email purpose, ∃ r ∈ s.codes.rows, r.id = c.id ∧
    r.isFor email purpose = true ∧ c.sentAt ≤ r.createdAt
  distinct : ((s.recent email purpose).map (·.id)).Nodup
  limit : ∀ start, s.issuedInDay email purpose start ≤ maxSendsPerDay

theorem limited_empty : AuthState.empty.Limited email purpose where
  past := by simp [AuthState.empty]
  stored := by simp [AuthState.empty, AuthState.recent]
  distinct := by simp [AuthState.empty, AuthState.recent]
  limit := by simp [AuthState.empty, AuthState.issuedInDay]

/-- No more codes count than rows are found by the count of the route. -/
theorem length_recent_le (h : s.Limited email purpose) :
    (s.recent email purpose).length ≤
      s.codes.count fun r => r.isFor email purpose && decide (s.clock < r.createdAt + dayMs) := by
  have hsub : (s.recent email purpose).map (·.id) ⊆ (s.codes.rows.filter fun r =>
      r.isFor email purpose && decide (s.clock < r.createdAt + dayMs)).map (·.id) := by
    intro id hid
    obtain ⟨c, hc, rfl⟩ := List.mem_map.mp hid
    obtain ⟨r, hr, hrid, hfor, hcreated⟩ := h.stored c hc
    have hrecent := (List.mem_filter.mp hc).2
    simp only [Bool.and_eq_true, decide_eq_true_eq] at hrecent
    refine List.mem_map.mpr ⟨r, List.mem_filter.mpr ⟨hr, ?_⟩, hrid⟩
    simp only [hfor, Bool.true_and, decide_eq_true_eq]
    omega
  have hle := (h.distinct.subperm hsub).length_le
  rw [List.length_map, List.length_map, ← List.countP_eq_length_filter] at hle
  exact hle

/-- Time passes, codes turn out undelivered, and the table keeps the codes that still count. -/
theorem AuthState.Limited.weaken {clock : Nat} {f : SentCode → SentCode} (except : String → Prop)
    (h : s.Limited email purpose) (hclock : s.clock ≤ clock)
    (hf : ∀ c, f c = c ∨ (f c).failed = true ∧ (f c).sentAt = c.sentAt)
    (hexcept : ∀ c, (f c).counts email purpose = true → ¬except c.id)
    (hkeeps : Keeps email purpose clock except s.codes codes') :
    AuthState.Limited ⟨clock, codes', s.sent.map f⟩ email purpose := by
  have hcounts : ∀ c, (f c).counts email purpose = true → f c = c := by
    intro c hc
    rcases hf c with hsame | ⟨hfailed, -⟩
    · exact hsame
    · simp [SentCode.counts, hfailed] at hc
  have hsub : AuthState.recent ⟨clock, codes', s.sent.map f⟩ email purpose <+
      s.recent email purpose := by
    refine filter_map_sublist fun c hc => ?_
    simp only [Bool.and_eq_true, decide_eq_true_eq] at hc ⊢
    have hsame := hcounts c hc.1
    rw [hsame] at hc
    exact ⟨hsame, hc.1, by omega⟩
  refine ⟨?_, ?_, (hsub.map _).nodup h.distinct, ?_⟩
  · intro c hc
    obtain ⟨c₀, hc₀, rfl⟩ := List.mem_map.mp hc
    have hpast := h.past c₀ hc₀
    rcases hf c₀ with hsame | ⟨-, hsent⟩
    · rw [hsame]
      exact hpast.trans hclock
    · rw [hsent]
      exact hpast.trans hclock
  · intro c hc
    obtain ⟨r, hr, hid, hfor, hcreated⟩ := h.stored c (hsub.subset hc)
    obtain ⟨hmem, hrecent⟩ := List.mem_filter.mp hc
    simp only [Bool.and_eq_true, decide_eq_true_eq] at hrecent
    obtain ⟨c₀, -, rfl⟩ := List.mem_map.mp hmem
    have hsame := hcounts c₀ hrecent.1
    have hkept : ¬except r.id := by
      rw [hid, hsame]
      exact hexcept c₀ hrecent.1
    obtain ⟨r', hr', hid', hfor', hcreated'⟩ := hkeeps r hr hfor (by omega) hkept
    exact ⟨r', hr', hid'.trans hid, hfor', hcreated' ▸ hcreated⟩
  · intro start
    refine le_trans ?_ (h.limit start)
    unfold AuthState.issuedInDay
    rw [List.countP_eq_length_filter, List.countP_eq_length_filter]
    refine (filter_map_sublist fun c hc => ?_).length_le
    simp only [Bool.and_eq_true] at hc
    have hsame := hcounts c hc.1.1
    rw [hsame] at hc
    exact ⟨hsame, by simpa using hc⟩

theorem AuthState.Limited.wait {clock : Nat} (h : s.Limited email purpose)
    (hclock : s.clock ≤ clock)
    (hkeeps : Keeps email purpose clock (fun _ => False) s.codes codes') :
    AuthState.Limited ⟨clock, codes', s.sent⟩ email purpose := by
  simpa using h.weaken (f := id) (fun _ => False) hclock (fun _ => .inl rfl) (fun _ _ => id) hkeeps

/-- A code is issued to an address that had fewer than its share. -/
theorem AuthState.Limited.send {codeId email' digest : String} {purpose' : CodePurpose}
    {ttlSeconds : Nat} (h : s.Limited email purpose)
    (hfew : s.codes.count (fun r => r.isFor email' purpose' &&
      decide (s.clock < r.createdAt + dayMs)) < maxSendsPerDay)
    (hinsert : s.codes.insert? (newCode s.codes s.clock codeId email' purpose' digest ttlSeconds) =
      some codes') :
    AuthState.Limited ⟨s.clock, codes', s.sent ++ [⟨codeId, email', purpose', s.clock, false⟩]⟩
      email purpose := by
  have hpast : ∀ c ∈ s.sent ++ [⟨codeId, email', purpose', s.clock, false⟩],
      c.sentAt ≤ s.clock := by
    intro c hc
    rcases List.mem_append.mp hc with hc | hc
    · exact h.past c hc
    · rw [List.mem_singleton.mp hc]
  have hstored : ∀ c ∈ s.recent email purpose, ∃ r ∈ codes'.rows, r.id = c.id ∧
      r.isFor email purpose = true ∧ c.sentAt ≤ r.createdAt := by
    intro c hc
    obtain ⟨r, hr, hrest⟩ := h.stored c hc
    exact ⟨r, (Table.mem_insert? hinsert).mpr (.inl hr), hrest⟩
  by_cases hfor : email' = email ∧ purpose' = purpose
  · obtain ⟨rfl, rfl⟩ := hfor
    have hrecent : AuthState.recent
        ⟨s.clock, codes', s.sent ++ [⟨codeId, email', purpose', s.clock, false⟩]⟩ email' purpose' =
        s.recent email' purpose' ++ [⟨codeId, email', purpose', s.clock, false⟩] := by
      simp [AuthState.recent, SentCode.counts, SentCode.isFor, dayMs]
    refine ⟨hpast, ?_, ?_, ?_⟩
    · rw [hrecent]
      intro c hc
      rcases List.mem_append.mp hc with hc | hc
      · exact hstored c hc
      · rw [List.mem_singleton.mp hc]
        exact ⟨_, (Table.mem_insert? hinsert).mpr (.inr rfl), rfl, isFor_iff.mpr ⟨rfl, rfl⟩,
          le_createdAt_newCode⟩
    · rw [hrecent, List.map_append, List.nodup_append]
      refine ⟨h.distinct, List.nodup_singleton _, ?_⟩
      intro id hid id' hid' he
      obtain ⟨c, hc, rfl⟩ := List.mem_map.mp hid
      obtain ⟨r, hr, hrid, -⟩ := h.stored c hc
      rw [List.map_singleton, List.mem_singleton] at hid'
      refine Table.insert?_fresh hinsert hr (k := r.id) (by simp [CodeRow.keys]) ?_
      rw [hrid, he, hid']
      simp [CodeRow.keys, newCode]
    · intro start
      unfold AuthState.issuedInDay
      rw [List.countP_append, List.countP_singleton]
      split
      · rename_i hin
        simp only [Bool.and_eq_true, decide_eq_true_eq] at hin
        -- whatever was issued since `start` was issued within the last day
        have hle : s.issuedInDay email' purpose' start ≤ (s.recent email' purpose').length := by
          unfold AuthState.issuedInDay AuthState.recent
          rw [← List.countP_eq_length_filter]
          refine List.countP_mono_left fun c _ hc => ?_
          simp only [Bool.and_eq_true, decide_eq_true_eq] at hc ⊢
          exact ⟨hc.1.1, by omega⟩
        have hrows := length_recent_le h
        unfold AuthState.issuedInDay at hle
        omega
      · simpa [AuthState.issuedInDay] using h.limit start
  · have hother :
        SentCode.counts email purpose ⟨codeId, email', purpose', s.clock, false⟩ = false := by
      simpa [SentCode.counts, SentCode.isFor] using hfor
    have hrecent : AuthState.recent
        ⟨s.clock, codes', s.sent ++ [⟨codeId, email', purpose', s.clock, false⟩]⟩ email purpose =
        s.recent email purpose := by
      simp [AuthState.recent, hother]
    refine ⟨hpast, ?_, ?_, ?_⟩
    · rw [hrecent]
      exact hstored
    · rw [hrecent]
      exact h.distinct
    · intro start
      simpa [AuthState.issuedInDay, List.countP_append, hother] using h.limit start

/-! Steps and runs -/

theorem commit_keeps {α : Type} {x : CodeTx α} {except : String → Prop}
    (hx : Ensures x now codes fun _ codes' => Keeps email purpose now except codes codes') :
    Keeps email purpose now except codes (x.commit now codes).2 := by
  unfold commit
  split
  · exact hx _ _ ‹_›
  · exact .refl

/-- A step that issues nothing. -/
theorem limited_of_keeps (h : s.Limited email purpose) (hby : s.sentBy key e = [])
    (hmark : ∀ codeId email purpose deleted, e.op ≠ .deliveryFailed codeId email purpose deleted)
    (hkeeps : Ensures (e.op.tx key) (s.clock + e.delay) s.codes fun _ codes' =>
      Keeps email purpose (s.clock + e.delay) (fun _ => False) s.codes codes') :
    (s.step key e).Limited email purpose := by
  have hsent : (s.step key e).sent = s.sent := by
    unfold AuthState.step
    split
    · rename_i hop
      exact absurd hop (hmark _ _ _ _)
    · rw [hby, List.append_nil]
  have hstep : s.step key e = ⟨s.clock + e.delay, (s.step key e).codes, s.sent⟩ := by
    rw [← hsent]
    rfl
  rw [hstep]
  exact h.wait (Nat.le_add_right _ _) (commit_keeps hkeeps)

/-- A step of one of the sending routes. -/
theorem limited_of_reserve {email' code codeId : String} {purpose' : CodePurpose}
    (h : s.Limited email purpose) (haddress : e.op.address = some (email', purpose'))
    (htx : e.op.tx key = some <$> reserveCode key purpose' email' code codeId) :
    (s.step key e).Limited email purpose := by
  have hwait : AuthState.Limited ⟨s.clock + e.delay, s.codes, s.sent⟩ email purpose :=
    h.wait (Nat.le_add_right _ _) .refl
  have hsent : (s.step key e).sent = s.sent ++ s.sentBy key e := by
    unfold AuthState.step
    split
    · rename_i hop
      simp [hop, AuthOp.address] at haddress
    · rfl
  cases hrun : (e.op.tx key).run (s.clock + e.delay) s.codes with
  | error err =>
    have hstep : s.step key e = ⟨s.clock + e.delay, s.codes, s.sent⟩ := by
      have hby : s.sentBy key e = [] := by simp [AuthState.sentBy, haddress, commit, hrun]
      rw [hby, List.append_nil] at hsent
      rw [← hsent]
      simp [AuthState.step, commit, hrun]
    rw [hstep]
    exact hwait
  | ok result =>
    obtain ⟨issued, codes'⟩ := result
    have hmap := hrun
    rw [htx] at hmap
    obtain ⟨id, hreserve, rfl⟩ := run_map_eq_ok.mp hmap
    obtain ⟨rfl, hfew, hinsert⟩ := reserveCode_ensures id codes' hreserve
    have hstep : s.step key e = ⟨s.clock + e.delay, codes',
        s.sent ++ [⟨id, email', purpose', s.clock + e.delay, false⟩]⟩ := by
      have hby : s.sentBy key e = [⟨id, email', purpose', s.clock + e.delay, false⟩] := by
        simp [AuthState.sentBy, haddress, commit, hrun]
      rw [hby] at hsent
      rw [← hsent]
      simp [AuthState.step, commit, hrun]
    rw [hstep]
    exact hwait.send hfew hinsert

theorem limited_of_deliveryFailed {codeId email' : String} {purpose' : CodePurpose}
    {deleted : Bool} (h : s.Limited email purpose)
    (hop : e.op = .deliveryFailed codeId email' purpose' deleted) :
    (s.step key e).Limited email purpose := by
  have hstep : s.step key e = ⟨s.clock + e.delay, (s.step key e).codes,
      s.sent.map (SentCode.fail codeId email' purpose')⟩ := by
    simp [AuthState.step, hop]
  rw [hstep]
  refine h.weaken (fun id => id = codeId ∧ email' = email ∧ purpose' = purpose)
    (Nat.le_add_right _ _) ?_ ?_ ?_
  · intro c
    unfold SentCode.fail
    split
    · exact .inr ⟨rfl, rfl⟩
    · exact .inl rfl
  · rintro c hcounts ⟨rfl, rfl, rfl⟩
    unfold SentCode.fail at hcounts
    split at hcounts
    · simp [SentCode.counts] at hcounts
    · rename_i hno
      simp only [SentCode.counts, Bool.and_eq_true] at hcounts
      exact hno ⟨rfl, hcounts.1⟩
  · refine commit_keeps ?_
    rw [hop, AuthOp.tx]
    split
    · refine ensures_map (ensures_get (ensures_of_ok rfl ?_))
      intro r hr hfor _ hkept
      refine ⟨r, Table.mem_delete.mpr ⟨hr, ?_⟩, rfl, hfor, rfl⟩
      obtain ⟨rfl, rfl⟩ := isFor_iff.mp hfor
      rw [Bool.and_eq_false_iff, Bool.and_eq_false_iff]
      by_contra hsel
      simp only [not_or, Bool.not_eq_false, beq_iff_eq] at hsel
      obtain ⟨⟨hid, hsame⟩, -⟩ := hsel
      obtain ⟨hemail, hpurpose⟩ := isFor_iff.mp hsame
      exact hkept ⟨hid, hemail.symm, hpurpose.symm⟩
    · exact ensures_of_error rfl

theorem limited_step (h : s.Limited email purpose) (hspares : SparesRecent email purpose s e) :
    (s.step key e).Limited email purpose := by
  match hop : e.op with
  | .sendCode email' code codeId =>
    exact limited_of_reserve h (by rw [hop]; rfl) (by rw [hop]; rfl)
  | .sendDeletionRecoveryCode email' code codeId true =>
    exact limited_of_reserve h (by rw [hop]; rfl) (by rw [hop]; rfl)
  | .sendDeletionRecoveryCode email' code codeId false =>
    refine limited_of_keeps h ?_ (by simp [hop]) ?_
    · rw [AuthState.sentBy, hop]
      rfl
    · rw [hop]
      exact ensures_of_ok rfl .refl
  | .deliveryFailed .. => exact limited_of_deliveryFailed h hop
  | .verify email' code bootstrapped =>
    refine limited_of_keeps h (by simp [AuthState.sentBy, hop, AuthOp.address]) (by simp [hop]) ?_
    rw [hop]
    refine ensures_map (ensures_bind (consumeLatestCode_keeps email purpose)
      fun record codes' hkeeps => ?_)
    split
    · exact ensures_of_ok rfl hkeeps
    · split
      · exact ensures_of_ok rfl hkeeps
      · exact ensures_of_error rfl
  | .verifyDeletionRecoveryCode email' code scheduled =>
    refine limited_of_keeps h (by simp [AuthState.sentBy, hop, AuthOp.address]) (by simp [hop]) ?_
    rw [hop]
    refine ensures_map (ensures_bind (consumeLatestCode_keeps email purpose)
      fun record codes' hkeeps => ?_)
    split <;> exact ensures_of_ok rfl hkeeps
  | .cleanup =>
    refine limited_of_keeps h (by simp [AuthState.sentBy, hop, AuthOp.address]) (by simp [hop]) ?_
    rw [hop]
    refine ensures_map (ensures_ask (ensures_get (ensures_of_ok rfl ?_)))
    intro r hr hfor hrecent _
    refine ⟨r, Table.mem_delete.mpr ⟨hr, ?_⟩, rfl, hfor, rfl⟩
    rw [decide_eq_false_iff_not]
    intro hexpired
    exact absurd (hspares hop r hr hfor hexpired) (by omega)

theorem limited_run {events : List AuthEvent} (h : s.Limited email purpose)
    (hspare : AllSpareRecent key email purpose s events) :
    (s.run key events).Limited email purpose := by
  induction events generalizing s with
  | nil => exact h
  | cons e events ih => exact ih (limited_step h hspare.1) hspare.2

/-- As long as the clean-up passes spare the codes of the last day, no day sees more codes issued
to an address than the limit. -/
theorem sends_within_daily_limit (key : List UInt8) (email : String) (purpose : CodePurpose)
    (events : List AuthEvent)
    (hspare : AllSpareRecent key email purpose AuthState.empty events) (start : Nat) :
    (AuthState.empty.run key events).issuedInDay email purpose start ≤ maxSendsPerDay :=
  (limited_run limited_empty hspare).limit start

def sampleSend (codeId : String) : AuthEvent := ⟨0, .sendCode "ada@example.org" "123456" codeId⟩

theorem sends_within_daily_limit_three :
    AllSpareRecent [] "ada@example.org" .login AuthState.empty
        [sampleSend "c1", sampleSend "c2", sampleSend "c3", sampleSend "c4"] ∧
      (AuthState.empty.run [] [sampleSend "c1", sampleSend "c2", sampleSend "c3",
        sampleSend "c4"]).issuedInDay "ada@example.org" .login 0 ≤ maxSendsPerDay := by
  have hspare : AllSpareRecent [] "ada@example.org" .login AuthState.empty
      [sampleSend "c1", sampleSend "c2", sampleSend "c3", sampleSend "c4"] := by
    simp [AllSpareRecent, SparesRecent, sampleSend]
  exact ⟨hspare, sends_within_daily_limit [] "ada@example.org" .login _ hspare 0⟩

/-- The clean-up forgets expired codes, and with them that they were sent. -/
theorem cleanup_resets_limit : ∃ events : List AuthEvent,
    maxSendsPerDay <
      (AuthState.empty.run [] events).issuedInDay "ada@example.org" .login 0 :=
  ⟨[sampleSend "c1", sampleSend "c2", sampleSend "c3",
    ⟨verificationCodeTtlSeconds * 1000, .cleanup⟩, sampleSend "c4"], by decide +kernel⟩

end MultiClaw
