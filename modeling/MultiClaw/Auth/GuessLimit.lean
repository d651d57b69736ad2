import MultiClaw.Auth.CodesSpec

/-! Every code is accepted once at most, in time, and before too many wrong guesses at it. -/
namespace MultiClaw

open Base Transaction VerificationCodeRepository

/-- One call of the repository. -/
inductive CodeOp where
  | issue (codeId email : String) (purpose : CodePurpose) (code : String) (ttlSeconds : Nat)
  | delete (codeId email : String) (purpose : CodePurpose)
  | consume (email : String) (purpose : CodePurpose) (guess : String)
  | deleteExpired

namespace CodeOp

/-- The transaction of a call, with the record that it accepts. -/
def tx (key : List UInt8) : CodeOp → CodeTx (Option CodeRow)
  | issue codeId email purpose code ttlSeconds =>
    (fun _ => none) <$> issueCode codeId email purpose
      (deriveVerificationCodeDigest key purpose email code) ttlSeconds
  | delete codeId email purpose => (fun _ => none) <$> deleteCodeById codeId email purpose
  | consume email purpose guess =>
    consumeLatestCode email purpose (deriveVerificationCodeDigest key purpose email guess)
  | deleteExpired => (fun _ => none) <$> deleteExpiredCodes

def issuedId? : CodeOp → Option String
  | issue codeId _ _ _ _ => some codeId
  | _ => none

/-- The code that a call derives a digest of, with its address. -/
def derives? : CodeOp → Option (String × CodePurpose × String)
  | issue _ email purpose code _ | consume email purpose code => some (email, purpose, code)
  | _ => none

end CodeOp

structure CodeCall where
  now : Nat
  op : CodeOp

/-- A code as it was sent out. -/
structure IssuedCode where
  id : String
  email : String
  purpose : CodePurpose
  code : String
  expiresAt : Nat
  deriving DecidableEq

/-- The table together with what happened to it: the codes issued, the ids accepted, and the ids
of the live codes that somebody made a wrong guess at. -/
structure CodeHistory where
  codes : Codes
  issued : List IssuedCode
  accepted : List String
  wrong : List String

namespace CodeCall

variable (key : List UInt8) (call : CodeCall) (h : CodeHistory)

def result : Except AuthError (Option CodeRow) × Codes :=
  (call.op.tx key).commit call.now h.codes

def accepted : Option CodeRow := (call.result key h).1.toOption.join

def issued : List IssuedCode :=
  match call.op, (call.result key h).1 with
  | .issue codeId email purpose code ttlSeconds, .ok _ =>
    [⟨codeId, email, purpose, code, call.now + ttlSeconds * 1000⟩]
  | _, _ => []

/-- The live code that a call makes a wrong guess at. -/
def wrong : Option CodeRow :=
  match call.op with
  | .consume email purpose guess =>
    (liveCode h.codes email purpose call.now).filter fun r =>
      !h.issued.any fun c => c.id == r.id && c.code == guess
  | _ => none

end CodeCall

namespace CodeHistory

def empty : CodeHistory := ⟨Table.empty, [], [], []⟩

def step (key : List UInt8) (h : CodeHistory) (call : CodeCall) : CodeHistory where
  codes := (call.result key h).2
  issued := h.issued ++ call.issued key h
  accepted := h.accepted ++ (call.accepted key h).toList.map (·.id)
  wrong := h.wrong ++ (call.wrong h).toList.map (·.id)

/-- The history after a serialized sequence of calls. -/
def after (key : List UInt8) (calls : List CodeCall) : CodeHistory := calls.foldl (step key) empty

end CodeHistory

/-- No id is drawn twice. -/
def FreshIds (calls : List CodeCall) : Prop := (calls.filterMap (·.op.issuedId?)).Nodup

/-- No two codes of an address that the calls mention have the same digest. -/
def CollisionFree (key : List UInt8) (calls : List CodeCall) : Prop :=
  ∀ a ∈ calls, ∀ b ∈ calls, ∀ email purpose code code',
    a.op.derives? = some (email, purpose, code) → b.op.derives? = some (email, purpose, code') →
    deriveVerificationCodeDigest key purpose email code =
      deriveVerificationCodeDigest key purpose email code' → code = code'

/-- What accepting a code presupposes. -/
structure Acceptance (h : CodeHistory) (call : CodeCall) (r : CodeRow) : Prop where
  guessed : ∃ c ∈ h.issued, c.id = r.id ∧ call.op = .consume c.email c.purpose c.code ∧
    call.now < c.expiresAt
  first : r.id ∉ h.accepted
  within : h.wrong.count r.id < maxVerificationFailuresPerCode
  newest : ∀ r', [r, r'].Sublist h.codes.rows → r'.email = r.email → r'.purpose = r.purpose →
    r'.expiresAt ≤ call.now

/-- The table agrees with the history. -/
structure CodeHistory.Inv (key : List UInt8) (h : CodeHistory) : Prop where
  ordered : Ordered h.codes
  distinct : (h.issued.map (·.id)).Nodup
  row : ∀ r ∈ h.codes.rows, ∃ c ∈ h.issued, c.id = r.id ∧ c.email = r.email ∧
    c.purpose = r.purpose ∧ c.expiresAt = r.expiresAt ∧
    parseVerificationCodeDigest r.codeDigest =
      some ⟨deriveVerificationCodeDigest key r.purpose r.email c.code, h.wrong.count r.id⟩
  unused : ∀ r ∈ h.codes.rows, r.usedAt = none →
    r.id ∉ h.accepted ∧ h.wrong.count r.id < maxVerificationFailuresPerCode
  known : ∀ id, id ∈ h.accepted ∨ id ∈ h.wrong → id ∈ h.issued.map (·.id)

variable {key : List UInt8} {h : CodeHistory} {call : CodeCall} {calls : List CodeCall}

theorem inv_empty : CodeHistory.empty.Inv key where
  ordered := .nil
  distinct := .nil
  row := by simp [CodeHistory.empty, Table.empty]
  unused := by simp [CodeHistory.empty, Table.empty]
  known := by simp [CodeHistory.empty]

/-! What a call does -/

/-- The change of the history by one call. -/
inductive CodeHistory.Change (key : List UInt8) (h : CodeHistory) (call : CodeCall) :
    CodeHistory → Prop where
  | nothing (haccepted : call.accepted key h = none) : Change key h call h
  | issue (codeId email : String) (purpose : CodePurpose) (code : String) (ttlSeconds : Nat) (codes)
      (hop : call.op = .issue codeId email purpose code ttlSeconds)
      (hinsert : h.codes.insert? (newCode h.codes call.now codeId email purpose
        (deriveVerificationCodeDigest key purpose email code) ttlSeconds) = some codes)
      (haccepted : call.accepted key h = none) :
      Change key h call
        { h with
          codes
          issued := h.issued ++ [⟨codeId, email, purpose, code, call.now + ttlSeconds * 1000⟩] }
  | delete (p : CodeRow → Bool) (haccepted : call.accepted key h = none) :
      Change key h call { h with codes := h.codes.delete p }
  | accept (r : CodeRow) (c : IssuedCode) (hc : c ∈ h.issued) (hid : c.id = r.id)
      (hop : call.op = .consume c.email c.purpose c.code)
      (hlive : liveCode h.codes c.email c.purpose call.now = some r)
      (haccepted : call.accepted key h = some r) :
      Change key h call
        { h with
          codes := h.codes.replace r (r.use call.now) (r.use_keys _)
          accepted := h.accepted ++ [r.id] }
  | charge (r : CodeRow) (c : IssuedCode) (guess encoded : String) (hc : c ∈ h.issued)
      (hid : c.id = r.id) (hop : call.op = .consume c.email c.purpose guess)
      (hlive : liveCode h.codes c.email c.purpose call.now = some r) (hwrong : c.code ≠ guess)
      (hparse : parseVerificationCodeDigest encoded =
        some ⟨deriveVerificationCodeDigest key c.purpose c.email c.code,
          h.wrong.count r.id + 1⟩)
      (haccepted : call.accepted key h = none) :
      Change key h call
        { h with
          codes := h.codes.replace r (r.charge call.now (h.wrong.count r.id + 1) encoded)
            (r.charge_keys ..)
          wrong := h.wrong ++ [r.id] }

theorem result_of_ok {a : Option CodeRow} {codes : Codes}
    (hrun : (call.op.tx key).run call.now h.codes = .ok (a, codes)) :
    call.result key h = (.ok a, codes) := by
  rw [CodeCall.result, commit, hrun]

theorem result_of_error {e : AuthError}
    (hrun : (call.op.tx key).run call.now h.codes = .error e) :
    call.result key h = (.error e, h.codes) := by
  rw [CodeCall.result, commit, hrun]

theorem CodeHistory.Inv.issued_unique (hinv : h.Inv key) {c c' : IssuedCode} (hc : c ∈ h.issued)
    (hc' : c' ∈ h.issued) (hid : c.id = c'.id) : c = c' :=
  List.inj_on_of_nodup_map hinv.distinct hc hc' hid

theorem change_of_issue {codeId email code : String} {purpose : CodePurpose} {ttlSeconds : Nat}
    (hop : call.op = .issue codeId email purpose code ttlSeconds) :
    h.Change key call (h.step key call) := by
  cases hrun : (call.op.tx key).run call.now h.codes with
  | error e =>
    have hresult := result_of_error hrun
    have hstep : h.step key call = h := by
      simp [CodeHistory.step, CodeCall.issued, CodeCall.accepted, CodeCall.wrong, hresult, hop,
        Except.toOption]
    rw [hstep]
    exact .nothing (by simp [CodeCall.accepted, hresult, Except.toOption])
  | ok res =>
    obtain ⟨a, codes⟩ := res
    have hresult := result_of_ok hrun
    rw [hop, CodeOp.tx] at hrun
    obtain ⟨_, hissue, rfl⟩ := run_map_eq_ok.mp hrun
    obtain ⟨-, hinsert⟩ := run_issueCode hissue
    have hstep : h.step key call =
        { h with
          codes
          issued := h.issued ++
            [⟨codeId, email, purpose, code, call.now + ttlSeconds * 1000⟩] } := by
      simp [CodeHistory.step, CodeCall.issued, CodeCall.accepted, CodeCall.wrong, hresult, hop,
        Except.toOption]
    rw [hstep]
    exact .issue codeId email purpose code ttlSeconds codes hop hinsert
      (by simp [CodeCall.accepted, hresult, Except.toOption])

theorem change_of_delete {p : CodeRow → Bool} (hid : call.op.issuedId? = none)
    (hguess : call.wrong h = none)
    (hrun : (call.op.tx key).run call.now h.codes = .ok (none, h.codes.delete p)) :
    h.Change key call (h.step key call) := by
  have hresult := result_of_ok hrun
  have hissued : call.issued key h = [] := by
    unfold CodeCall.issued
    split
    · rename_i hop _
      simp [hop, CodeOp.issuedId?] at hid
    · rfl
  have hstep : h.step key call = { h with codes := h.codes.delete p } := by
    simp [CodeHistory.step, hissued, CodeCall.accepted, hguess, hresult, Except.toOption]
  rw [hstep]
  exact .delete p (by simp [CodeCall.accepted, hresult, Except.toOption])

theorem change_of_consume (hinv : h.Inv key) {email guess : String} {purpose : CodePurpose}
    (hop : call.op = .consume email purpose guess)
    (hcollision : ∀ c ∈ h.issued, c.email = email → c.purpose = purpose →
      deriveVerificationCodeDigest key purpose email c.code =
        deriveVerificationCodeDigest key purpose email guess → c.code = guess) :
    h.Change key call (h.step key call) := by
  have hissued : call.issued key h = [] := by simp [CodeCall.issued, hop]
  have htx : call.op.tx key = consumeLatestCode email purpose
      (deriveVerificationCodeDigest key purpose email guess) := by rw [hop, CodeOp.tx]
  cases hlive : liveCode h.codes email purpose call.now with
  | none =>
    have hrun : (call.op.tx key).run call.now h.codes = .ok (none, h.codes) := by
      rw [htx]
      exact run_consume_none hinv.ordered hlive
    have hstep : h.step key call = h := by
      simp [CodeHistory.step, hissued, CodeCall.accepted, CodeCall.wrong, result_of_ok hrun, hop,
        hlive, Except.toOption]
    rw [hstep]
    exact .nothing (by simp [CodeCall.accepted, result_of_ok hrun, Except.toOption])
  | some r =>
    obtain ⟨hr, rfl, rfl, -, hunused⟩ := liveCode_eq_some hlive
    obtain ⟨c, hc, hid, hemail, hpurpose, -, hparse⟩ := hinv.row r hr
    have hwithin := (hinv.unused r hr hunused).2
    by_cases hdigest : deriveVerificationCodeDigest key r.purpose r.email c.code =
        deriveVerificationCodeDigest key r.purpose r.email guess
    · have hcode := hcollision c hc hemail hpurpose hdigest
      have hrun : (call.op.tx key).run call.now h.codes =
          .ok (some r, h.codes.replace r (r.use call.now) (r.use_keys _)) := by
        rw [htx]
        exact run_consume_right hinv.ordered hlive hparse hdigest
      have hresult := result_of_ok hrun
      have hwrong : call.wrong h = none := by
        simp only [CodeCall.wrong, hop, hlive, Option.filter_some]
        rw [if_neg]
        simp only [Bool.not_eq_true', Bool.not_eq_false]
        exact List.any_eq_true.mpr ⟨c, hc, by simp [hid, hcode]⟩
      have haccepted : call.accepted key h = some r := by
        simp [CodeCall.accepted, hresult, Except.toOption]
      have hstep : h.step key call =
          { h with
            codes := h.codes.replace r (r.use call.now) (r.use_keys _)
            accepted := h.accepted ++ [r.id] } := by
        simp [CodeHistory.step, hissued, haccepted, hwrong, hresult]
      rw [hstep]
      refine .accept r c hc hid ?_ ?_ haccepted
      · rw [hop, hemail, hpurpose, hcode]
      · rw [hemail, hpurpose, hlive]
    · obtain ⟨encoded, hback, hrun⟩ := run_consume_wrong hinv.ordered hlive hparse hdigest
      rw [← htx] at hrun
      have hresult := result_of_ok hrun
      have hcode : c.code ≠ guess := fun he => hdigest (by rw [he])
      have hwrong : call.wrong h = some r := by
        simp only [CodeCall.wrong, hop, hlive, Option.filter_some]
        rw [if_pos]
        simp only [Bool.not_eq_true', List.any_eq_false, Bool.and_eq_true, beq_iff_eq, not_and]
        intro c' hc' hid' hguess
        cases hinv.issued_unique hc hc' (hid.trans hid'.symm)
        exact hcode hguess
      have haccepted : call.accepted key h = none := by
        simp [CodeCall.accepted, hresult, Except.toOption]
      have hmin : min (h.wrong.count r.id + 1) maxVerificationFailuresPerCode =
          h.wrong.count r.id + 1 := by omega
      have hstep : h.step key call =
          { h with
            codes := h.codes.replace r (r.charge call.now (h.wrong.count r.id + 1) encoded)
              (r.charge_keys ..)
            wrong := h.wrong ++ [r.id] } := by
        simp [CodeHistory.step, hissued, haccepted, hwrong, hresult]
      rw [hstep]
      refine .charge r c guess encoded hc hid ?_ ?_ hcode ?_ haccepted
      · rw [hop, hemail, hpurpose]
      · rw [hemail, hpurpose, hlive]
      · rw [hback, hemail, hpurpose, hmin]

/-- The call does not collide with the codes issued before it. -/
def NoCollision (key : List UInt8) (h : CodeHistory) (call : CodeCall) : Prop :=
  ∀ email purpose guess, call.op = .consume email purpose guess →
    ∀ c ∈ h.issued, c.email = email → c.purpose = purpose →
      deriveVerificationCodeDigest key purpose email c.code =
        deriveVerificationCodeDigest key purpose email guess → c.code = guess

theorem step_change (hinv : h.Inv key) (hcollision : NoCollision key h call) :
    h.Change key call (h.step key call) := by
  match hop : call.op with
  | .issue .. => exact change_of_issue hop
  | .delete codeId email purpose =>
    refine change_of_delete
      (p := fun r => r.id == codeId && r.isFor email purpose && r.usedAt.isNone)
      (by simp [hop, CodeOp.issuedId?]) (by simp [CodeCall.wrong, hop]) ?_
    rw [hop]
    rfl
  | .consume email purpose guess =>
    exact change_of_consume hinv hop (hcollision email purpose guess hop)
  | .deleteExpired =>
    refine change_of_delete (p := fun r => decide (r.expiresAt ≤ call.now))
      (by simp [hop, CodeOp.issuedId?]) (by simp [CodeCall.wrong, hop]) ?_
    rw [hop]
    rfl

/-! The invariant -/

/-- Rewriting a row without its address and its times leaves the codes in order. -/
theorem ordered_replace {codes : Codes} {r r' : CodeRow} (hk : r'.keys = r.keys)
    (h : Ordered codes) (hr : r ∈ codes.rows) (hemail : r'.email = r.email)
    (hpurpose : r'.purpose = r.purpose) (hcreated : r'.createdAt = r.createdAt) :
    Ordered (codes.replace r r' hk) := by
  have hmap : (codes.replace r r' hk).rows.map (fun a => (a.email, a.purpose, a.createdAt)) =
      codes.rows.map fun a => (a.email, a.purpose, a.createdAt) :=
    Table.map_replace hr (by simp [CodeRow.keys]) (by rw [hemail, hpurpose, hcreated])
  have hpairs : (codes.rows.map fun a => (a.email, a.purpose, a.createdAt)).Pairwise
      fun a b => a.1 = b.1 → a.2.1 = b.2.1 → a.2.2 < b.2.2 := List.pairwise_map.mpr h
  rw [← hmap] at hpairs
  exact List.pairwise_map.mp hpairs

theorem mem_replace_code {codes : Codes} {r r' a : CodeRow} (hk : r'.keys = r.keys)
    (hr : r ∈ codes.rows) :
    a ∈ (codes.replace r r' hk).rows ↔ a = r' ∨ (a ∈ codes.rows ∧ a.id ≠ r.id) := by
  rw [Table.mem_replace_iff hk hr (by simp [CodeRow.keys])]
  refine or_congr_right (and_congr_right fun ha => not_congr ⟨fun h => h ▸ rfl, fun h => ?_⟩)
  exact Table.eq_of_shared_key ha hr (k := a.id) (by simp [CodeRow.keys])
    (by simp [CodeRow.keys, h])

theorem CodeHistory.Inv.change {h' : CodeHistory} (hinv : h.Inv key)
    (hchange : h.Change key call h')
    (hfresh : ∀ id, call.op.issuedId? = some id → id ∉ h.issued.map (·.id)) : h'.Inv key := by
  cases hchange with
  | nothing => exact hinv
  | issue codeId email purpose code ttlSeconds codes hop hinsert haccepted =>
    have hnew := hfresh codeId (by rw [hop]; rfl)
    have hrows := Table.insert?_rows hinsert
    have hcount : h.wrong.count codeId = 0 := by
      rw [List.count_eq_zero]
      exact fun hmem => hnew (hinv.known codeId (.inr hmem))
    refine ⟨?_, ?_, ?_, ?_, ?_⟩
    · unfold Ordered
      rw [hrows, List.pairwise_append]
      refine ⟨hinv.ordered, List.pairwise_singleton _ _, fun a ha b hb hemail hpurpose => ?_⟩
      rw [List.mem_singleton] at hb
      subst hb
      exact createdAt_newCode ha (isFor_iff.mpr ⟨hemail, hpurpose⟩)
    · rw [List.map_append, List.nodup_append]
      refine ⟨hinv.distinct, List.nodup_singleton _, ?_⟩
      intro a ha b hb he
      rw [List.map_singleton, List.mem_singleton] at hb
      have hcode : a = codeId := he.trans hb
      exact hnew (hcode ▸ ha)
    · intro r hr
      rw [hrows, List.mem_append, List.mem_singleton] at hr
      rcases hr with hr | rfl
      · obtain ⟨c, hc, hrest⟩ := hinv.row r hr
        exact ⟨c, List.mem_append_left _ hc, hrest⟩
      · refine ⟨_, List.mem_append_right _ (List.mem_singleton_self _), rfl, rfl, rfl, rfl, ?_⟩
        simp only [newCode, hcount]
        rw [parseVerificationCodeDigest, if_pos isHexDigest_derive]
    · intro r hr hunused
      rw [hrows, List.mem_append, List.mem_singleton] at hr
      rcases hr with hr | rfl
      · exact hinv.unused r hr hunused
      · refine ⟨fun hmem => hnew (hinv.known codeId (.inl hmem)), ?_⟩
        simp only [newCode, hcount]
        decide
    · intro id hid
      rw [List.map_append]
      exact List.mem_append_left _ (hinv.known id hid)
  | delete p haccepted =>
    have hsub : ∀ r ∈ (h.codes.delete p).rows, r ∈ h.codes.rows := fun r hr =>
      (Table.mem_delete.mp hr).1
    exact ⟨hinv.ordered.filter _, hinv.distinct, fun r hr => hinv.row r (hsub r hr),
      fun r hr => hinv.unused r (hsub r hr), hinv.known⟩
  | accept r c hc hid hop hlive haccepted =>
    obtain ⟨hr, -⟩ := liveCode_eq_some hlive
    refine ⟨ordered_replace (r.use_keys _) hinv.ordered hr rfl rfl rfl, hinv.distinct, ?_, ?_, ?_⟩
    · intro a ha
      rcases (mem_replace_code (r.use_keys _) hr).mp ha with rfl | ⟨ha, -⟩
      · exact hinv.row r hr
      · exact hinv.row a ha
    · intro a ha hunused
      rcases (mem_replace_code (r.use_keys _) hr).mp ha with rfl | ⟨ha, hne⟩
      · cases hunused
      · obtain ⟨hfirst, hwithin⟩ := hinv.unused a ha hunused
        exact ⟨by simp [hfirst, hne], hwithin⟩
    · intro id hmem
      rw [List.mem_append, List.mem_singleton] at hmem
      rcases hmem with (hmem | rfl) | hmem
      · exact hinv.known id (.inl hmem)
      · exact hid ▸ List.mem_map_of_mem hc
      · exact hinv.known id (.inr hmem)
  | charge r c guess encoded hc hid hop hlive hwrong hparse haccepted =>
    obtain ⟨hr, hemail, hpurpose, -, hunused⟩ := liveCode_eq_some hlive
    have hcount : ∀ a : CodeRow, a.id ≠ r.id →
        (h.wrong ++ [r.id]).count a.id = h.wrong.count a.id := by
      intro a hne
      rw [List.count_append, List.count_singleton]
      simp [Ne.symm hne]
    refine ⟨ordered_replace (r.charge_keys ..) hinv.ordered hr rfl rfl rfl, hinv.distinct, ?_, ?_,
      ?_⟩
    · intro a ha
      rcases (mem_replace_code (r.charge_keys ..) hr).mp ha with rfl | ⟨ha, hne⟩
      · obtain ⟨c', hc', hid', hrow⟩ := hinv.row r hr
        cases hinv.issued_unique hc hc' (hid.trans hid'.symm)
        refine ⟨c, hc, hid, hrow.1, hrow.2.1, hrow.2.2.1, ?_⟩
        simpa [CodeRow.charge, hemail, hpurpose] using hparse
      · rw [hcount a hne]
        exact hinv.row a ha
    · intro a ha hfree
      rcases (mem_replace_code (r.charge_keys ..) hr).mp ha with rfl | ⟨ha, hne⟩
      · refine ⟨(hinv.unused r hr hunused).1, ?_⟩
        have hcharged : (h.wrong ++ [r.id]).count r.id = h.wrong.count r.id + 1 := by simp
        change (h.wrong ++ [r.id]).count r.id < _
        rw [hcharged]
        by_contra hmany
        simp [CodeRow.charge, Nat.le_of_not_lt hmany] at hfree
      · rw [hcount a hne]
        exact hinv.unused a ha hfree
    · intro id hmem
      rw [List.mem_append, List.mem_singleton] at hmem
      rcases hmem with hmem | hmem | rfl
      · exact hinv.known id (.inl hmem)
      · exact hinv.known id (.inr hmem)
      · exact hid ▸ List.mem_map_of_mem hc

/-! Runs -/

theorem after_append : CodeHistory.after key (calls ++ [call]) =
    (CodeHistory.after key calls).step key call := by
  simp [CodeHistory.after]

/-- The codes issued in a run are those of its issuing calls. -/
theorem mem_issued {c : IssuedCode} (hc : c ∈ (CodeHistory.after key calls).issued) :
    ∃ a ∈ calls, ∃ ttlSeconds, a.op = .issue c.id c.email c.purpose c.code ttlSeconds := by
  induction calls using List.reverseRecOn with
  | nil => simp [CodeHistory.after, CodeHistory.empty] at hc
  | append_singleton calls call ih =>
    rw [after_append, CodeHistory.step, List.mem_append] at hc
    rcases hc with hc | hc
    · obtain ⟨a, ha, hissue⟩ := ih hc
      exact ⟨a, List.mem_append_left _ ha, hissue⟩
    · unfold CodeCall.issued at hc
      split at hc
      · rename_i hop _
        rw [List.mem_singleton] at hc
        subst hc
        exact ⟨call, by simp, _, hop⟩
      · simp at hc

theorem noCollision_of_collisionFree (hcollision : CollisionFree key (calls ++ [call])) :
    NoCollision key (CodeHistory.after key calls) call := by
  rintro email purpose guess hop c hc rfl rfl hdigest
  obtain ⟨a, ha, ttlSeconds, hissue⟩ := mem_issued hc
  exact hcollision a (List.mem_append_left _ ha) call (by simp) c.email c.purpose c.code guess
    (by rw [hissue]; rfl) (by rw [hop]; rfl) hdigest

theorem fresh_of_freshIds (hids : FreshIds (calls ++ [call])) (id : String)
    (hid : call.op.issuedId? = some id) :
    id ∉ (CodeHistory.after key calls).issued.map (·.id) := by
  intro hmem
  obtain ⟨c, hc, rfl⟩ := List.mem_map.mp hmem
  obtain ⟨a, ha, ttlSeconds, hissue⟩ := mem_issued hc
  rw [FreshIds, List.filterMap_append, List.nodup_append] at hids
  exact hids.2.2 c.id (List.mem_filterMap.mpr ⟨a, ha, by rw [hissue]; rfl⟩) c.id
    (List.mem_filterMap.mpr ⟨call, by simp, hid⟩) rfl

theorem inv_after (hids : FreshIds calls) (hcollision : CollisionFree key calls) :
    (CodeHistory.after key calls).Inv key := by
  induction calls using List.reverseRecOn with
  | nil => exact inv_empty
  | append_singleton calls call ih =>
    have hinv := ih (by
        rw [FreshIds, List.filterMap_append] at hids
        exact hids.of_append_left)
      fun a ha b hb => hcollision a (List.mem_append_left _ ha) b (List.mem_append_left _ hb)
    rw [after_append]
    exact hinv.change (step_change hinv (noCollision_of_collisionFree hcollision))
      (fresh_of_freshIds hids)

/-- A live code has no unexpired code of its address after it. -/
theorem newest_of_liveCode {codes : Codes} {email : String} {purpose : CodePurpose} {now : Nat}
    {r r' : CodeRow} (hordered : Ordered codes) (hlive : liveCode codes email purpose now = some r)
    (hlater : [r, r'].Sublist codes.rows) (hemail : r'.email = r.email)
    (hpurpose : r'.purpose = r.purpose) : r'.expiresAt ≤ now := by
  obtain ⟨-, rfl, rfl, -⟩ := liveCode_eq_some hlive
  by_contra hunexpired
  have hlt : r.createdAt < r'.createdAt :=
    (List.pairwise_cons.mp (hordered.sublist hlater)).1 r' (by simp) hemail.symm hpurpose.symm
  have hr' : r' ∈ codes.filter fun a => a.isFor r.email r.purpose && decide (now < a.expiresAt) :=
    List.mem_filter.mpr ⟨hlater.subset (by simp), by
      simp [isFor_iff.mpr ⟨hemail, hpurpose⟩]
      omega⟩
  obtain ⟨init, hinit⟩ := List.getLast?_eq_some_iff.mp (Option.filter_eq_some_iff.mp hlive).1
  have hsorted := hordered.filter
    fun a => a.isFor r.email r.purpose && decide (now < a.expiresAt)
  change (codes.filter _).Pairwise _ at hsorted
  rw [hinit] at hr' hsorted
  rcases List.mem_append.mp hr' with hr' | hr'
  · have := (List.pairwise_append.mp hsorted).2.2 r' hr' r (by simp) hemail hpurpose
    omega
  · rw [List.mem_singleton] at hr'
    subst hr'
    omega

theorem acceptance_of_change {r : CodeRow} {h' : CodeHistory} (hinv : h.Inv key)
    (hchange : h.Change key call h') (haccepted : call.accepted key h = some r) :
    Acceptance h call r := by
  cases hchange with
  | nothing hnone | issue _ _ _ _ _ _ _ _ hnone | delete _ hnone
  | charge _ _ _ _ _ _ _ _ _ _ hnone => rw [hnone] at haccepted; cases haccepted
  | accept r' c hc hid hop hlive haccepted' =>
    cases haccepted.symm.trans haccepted'
    obtain ⟨hr, hemail, hpurpose, hexpires, hunused⟩ := liveCode_eq_some hlive
    obtain ⟨c', hc', hid', -, -, hexpiry, -⟩ := hinv.row r hr
    cases hinv.issued_unique hc hc' (hid.trans hid'.symm)
    obtain ⟨hfirst, hwithin⟩ := hinv.unused r hr hunused
    exact ⟨⟨c, hc, hid, hop, hexpiry ▸ hexpires⟩, hfirst, hwithin,
      fun r' => newest_of_liveCode hinv.ordered hlive⟩

/-- A wrong guess at a live code is charged to it: its counter goes up by one, and no other row
changes. -/
structure Charge (key : List UInt8) (h : CodeHistory) (call : CodeCall) (r : CodeRow) : Prop where
  refused : call.accepted key h = none
  charged : ∃ r' base failures, ∃ hk : r'.keys = r.keys,
    parseVerificationCodeDigest r.codeDigest = some ⟨base, failures⟩ ∧
    parseVerificationCodeDigest r'.codeDigest = some ⟨base, failures + 1⟩ ∧
    (h.step key call).codes = h.codes.replace r r' hk

theorem charge_of_wrong {r : CodeRow} (hinv : h.Inv key)
    (hchange : h.Change key call (h.step key call)) (hwrong : call.wrong h = some r) :
    Charge key h call r := by
  have hlog : (h.step key call).wrong = h.wrong ++ [r.id] := by simp [CodeHistory.step, hwrong]
  generalize hstep : h.step key call = h' at hchange hlog
  cases hchange with
  | nothing | issue | delete | accept => simp at hlog
  | charge r' c guess encoded hc hid hop hlive _ hparse hnone =>
    simp only [CodeCall.wrong, hop, hlive] at hwrong
    cases (Option.filter_eq_some_iff.mp hwrong).1
    obtain ⟨hr, hemail, hpurpose, -⟩ := liveCode_eq_some hlive
    obtain ⟨c', hc', hid', -, -, -, hbefore⟩ := hinv.row r hr
    cases hinv.issued_unique hc hc' (hid.trans hid'.symm)
    refine ⟨hnone, _, _, _, r.charge_keys .., hbefore, ?_, by rw [hstep]⟩
    rw [hemail, hpurpose]
    exact hparse

/-- In every history of issuing, consuming, deleting and cleaning up: a code is accepted only if
it is the right one, for the first time, in time, within the limit of guesses and with no newer
unexpired code; every wrong guess at a live code is charged to it; and the counter that the digest
field holds is the number of wrong guesses made at the code while it was live. -/
theorem codes_accepted_once_within_limit (key : List UInt8) (calls : List CodeCall)
    (call : CodeCall) (hids : FreshIds (calls ++ [call]))
    (hcollision : CollisionFree key (calls ++ [call])) :
    (∀ r, call.accepted key (CodeHistory.after key calls) = some r →
      Acceptance (CodeHistory.after key calls) call r) ∧
    (∀ r, call.wrong (CodeHistory.after key calls) = some r →
      Charge key (CodeHistory.after key calls) call r) ∧
    ∀ r ∈ (CodeHistory.after key calls).codes.rows, ∃ c ∈ (CodeHistory.after key calls).issued,
      c.id = r.id ∧ parseVerificationCodeDigest r.codeDigest =
        some ⟨deriveVerificationCodeDigest key r.purpose r.email c.code,
          (CodeHistory.after key calls).wrong.count r.id⟩ := by
  have hinv : (CodeHistory.after key calls).Inv key := by
    refine inv_after ?_ fun a ha b hb =>
      hcollision a (List.mem_append_left _ ha) b (List.mem_append_left _ hb)
    rw [FreshIds, List.filterMap_append] at hids
    exact hids.of_append_left
  have hchange := step_change hinv (noCollision_of_collisionFree hcollision)
  refine ⟨fun r => acceptance_of_change hinv hchange, fun r => charge_of_wrong hinv hchange, ?_⟩
  intro r hr
  obtain ⟨c, hc, hid, -, -, -, hparse⟩ := hinv.row r hr
  exact ⟨c, hc, hid, hparse⟩

def sampleIssue : CodeCall := ⟨0, .issue "c1" "ada@example.org" .login "123456" 900⟩

def sampleGuess : CodeCall := ⟨2000, .consume "ada@example.org" .login "123456"⟩

theorem codes_accepted_once_within_limit_sample :
    FreshIds [sampleIssue, sampleGuess] ∧ CollisionFree [] [sampleIssue, sampleGuess] ∧
      ∃ r, sampleGuess.accepted [] (CodeHistory.after [] [sampleIssue]) = some r ∧
        Acceptance (CodeHistory.after [] [sampleIssue]) sampleGuess r := by
  have hids : FreshIds [sampleIssue, sampleGuess] := by
    unfold FreshIds
    decide
  have hcollision : CollisionFree [] [sampleIssue, sampleGuess] := by
    have hcode : ∀ a ∈ [sampleIssue, sampleGuess],
        a.op.derives? = some ("ada@example.org", .login, "123456") := by
      simp [sampleIssue, sampleGuess, CodeOp.derives?]
    intro a ha b hb email purpose code code' hcodeA hcodeB _
    rw [hcode a ha] at hcodeA
    rw [hcode b hb] at hcodeB
    cases hcodeA
    cases hcodeB
    rfl
  have haccepted :
      (sampleGuess.accepted [] (CodeHistory.after [] [sampleIssue])).isSome = true := by
    decide +kernel
  obtain ⟨r, hr⟩ := Option.isSome_iff_exists.mp haccepted
  exact ⟨hids, hcollision, r, hr,
    (codes_accepted_once_within_limit [] [sampleIssue] sampleGuess hids hcollision).1 r hr⟩

end MultiClaw
