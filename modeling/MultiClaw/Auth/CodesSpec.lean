import MultiClaw.Auth.Codes
import MultiClaw.Base.Lists

/-! What the operations of the code repository do to a well-formed table. -/
namespace MultiClaw

open Base Transaction

variable {key : List UInt8} {purpose : CodePurpose} {email code base digest : String} {n now : Nat}

theorem isHexDigest_derive :
    isHexDigest (deriveVerificationCodeDigest key purpose email code) = true := by
  simp only [isHexDigest, deriveVerificationCodeDigest, Sha256.hmacHexdigest, Bool.and_eq_true,
    beq_iff_eq, List.all_eq_true, List.contains_iff_mem]
  exact ⟨Sha256.length_hexdigest _, fun c => Sha256.mem_hexdigest⟩

/-! The guess counter in the digest field -/

theorem span_colon {xs rest : List Char} (h : ∀ c ∈ xs, c ≠ ':') :
    (xs ++ ':' :: rest).span (· != ':') = (xs, ':' :: rest) := by
  have hxs : ∀ c ∈ xs, (c != ':') = true := fun c hc => by simpa using h c hc
  rw [List.span_eq_takeWhile_dropWhile, List.takeWhile_append_of_pos hxs,
    List.dropWhile_append_of_pos hxs]
  simp

theorem splitDigestParts_eq {version failures rest : List Char} (hversion : ∀ c ∈ version, c ≠ ':')
    (hfailures : ∀ c ∈ failures, c ≠ ':') :
    splitDigestParts (version ++ ':' :: (failures ++ ':' :: rest)) =
      some (version, failures, rest) := by
  rw [splitDigestParts, span_colon hversion]
  simp only [span_colon hfailures]

theorem toList_toString (n : Nat) : (toString n).toList = Nat.toDigits 10 n :=
  String.toList_ofList

theorem parse_encode (hbase : isHexDigest base = true) (hn : n ≤ maxVerificationFailuresPerCode) :
    ∃ encoded, encodeVerificationCodeDigest base n = .ok encoded ∧
      parseVerificationCodeDigest encoded = some ⟨base, n⟩ := by
  unfold encodeVerificationCodeDigest
  rw [if_neg (by simp [hbase]), if_neg (by omega)]
  by_cases hzero : n = 0
  · subst hzero
    exact ⟨base, rfl, by rw [parseVerificationCodeDigest, if_pos hbase]⟩
  · rw [if_neg hzero]
    refine ⟨_, rfl, ?_⟩
    have hlist : ("v1:" ++ toString n ++ ":" ++ base).toList =
        ['v', '1'] ++ ':' :: (Nat.toDigits 10 n ++ ':' :: base.toList) := by
      rw [← toList_toString]
      simp
    have hdigits : ∀ c ∈ Nat.toDigits 10 n, c.isDigit = true := fun c hc =>
      Nat.isDigit_of_mem_toDigits (by omega) (by omega) hc
    have hcolon : ∀ c ∈ Nat.toDigits 10 n, c ≠ ':' := by
      rintro c hc rfl
      exact absurd (hdigits ':' hc) (by decide)
    have hlong : ¬isHexDigest ("v1:" ++ toString n ++ ":" ++ base) = true := by
      rw [isHexDigest, hlist]
      simp
    have hvalue : Nat.ofDigitChars 10 (Nat.toDigits 10 n) 0 = n := Nat.ofDigitChars_ten_toDigits
    rw [parseVerificationCodeDigest, if_neg hlong, hlist, splitDigestParts_eq (by simp) hcolon]
    simp only [hvalue, String.ofList_toList, hbase]
    rw [if_neg (by simp), if_neg, if_neg (by omega), if_neg (by simp)]
    rintro (hnil | hother)
    · exact Nat.toDigits_ne_nil hnil
    · exact hother (List.all_eq_true.mpr hdigits)

theorem parse_valid {value : String} {state : CodeDigestState}
    (h : parseVerificationCodeDigest value = some state) :
    isHexDigest state.baseDigest = true ∧ state.failures ≤ maxVerificationFailuresPerCode := by
  unfold parseVerificationCodeDigest at h
  split at h
  · rename_i hhex
    cases h
    exact ⟨hhex, Nat.zero_le _⟩
  · split at h
    · cases h
    · split_ifs at h with _ _ hmany hbase
      cases h
      exact ⟨by simpa using hbase, Nat.le_of_not_lt hmany⟩

/-! Newest codes -/

/-- The codes of an address are created one after another. -/
def Ordered (codes : Codes) : Prop :=
  codes.rows.Pairwise fun a b => a.email = b.email → a.purpose = b.purpose →
    a.createdAt < b.createdAt

/-- The code that a guess is checked against: the last one issued for the address that has not
expired, if it is not used up. -/
def liveCode (codes : Codes) (email : String) (purpose : CodePurpose) (now : Nat) :
    Option CodeRow :=
  ((codes.filter fun r => r.isFor email purpose && decide (now < r.expiresAt)).getLast?).filter
    (·.usedAt.isNone)

theorem isFor_iff {r : CodeRow} :
    r.isFor email purpose = true ↔ r.email = email ∧ r.purpose = purpose := by
  simp [CodeRow.isFor]

namespace VerificationCodeRepository

variable {codes codes' : Codes} {r : CodeRow} {state : CodeDigestState}

theorem latestUnexpired_eq (h : Ordered codes) : latestUnexpired codes email purpose now =
    (codes.filter fun r => r.isFor email purpose && decide (now < r.expiresAt)).getLast? := by
  unfold latestUnexpired
  rw [insertionSort_eq_reverse, List.head?_reverse]
  refine (h.filter _).imp_of_mem fun {a b} ha hb hab => ?_
  have hfor : ∀ c ∈ codes.filter fun r => r.isFor email purpose && decide (now < r.expiresAt),
      c.email = email ∧ c.purpose = purpose := by
    intro c hc
    have hc := (List.mem_filter.mp hc).2
    simp only [Bool.and_eq_true] at hc
    exact isFor_iff.mp hc.1
  obtain ⟨hae, hap⟩ := hfor a ha
  obtain ⟨hbe, hbp⟩ := hfor b hb
  have hlt := hab (hae.trans hbe.symm) (hap.trans hbp.symm)
  simp only [CodeRow.newestFirst, Bool.or_eq_true, decide_eq_true_eq, Bool.and_eq_true, beq_iff_eq]
  omega

theorem liveCode_eq_some (h : liveCode codes email purpose now = some r) :
    r ∈ codes.rows ∧ r.email = email ∧ r.purpose = purpose ∧ now < r.expiresAt ∧
      r.usedAt = none := by
  obtain ⟨hlast, hused⟩ := Option.filter_eq_some_iff.mp h
  obtain ⟨hmem, hsel⟩ := List.mem_filter.mp (List.mem_of_getLast? hlast)
  simp only [Bool.and_eq_true, decide_eq_true_eq] at hsel
  obtain ⟨hemail, hpurpose⟩ := isFor_iff.mp hsel.1
  exact ⟨hmem, hemail, hpurpose, hsel.2, by simpa using hused⟩

theorem pins_unchanged : codes.Pins (unchanged r now) := by
  intro a _ b _ ha hb
  simp only [unchanged, Bool.and_eq_true, beq_iff_eq] at ha hb
  exact ⟨r.id, by simp [CodeRow.keys, ha.1.1.1], by simp [CodeRow.keys, hb.1.1.1]⟩

theorem unchanged_self (hused : r.usedAt = none) (hlive : now < r.expiresAt) :
    unchanged r now r = true := by
  simp [unchanged, hused, hlive]

theorem run_updateUnchanged {f : CodeRow → CodeRow} {hf : ∀ r, (f r).keys = r.keys}
    (hr : r ∈ codes.rows) (hused : r.usedAt = none) (hlive : now < r.expiresAt) :
    (updateUnchanged r f hf).run now codes = .ok (1, codes.replace r (f r) (hf r)) := by
  have hself := unchanged_self hused hlive
  have hcount := Table.count_of_pins pins_unchanged hr hself
  have hupdate : codes.update (unchanged r now) f hf = codes.replace r (f r) (hf r) :=
    Table.update_eq_replace pins_unchanged hr hself
  simp [updateUnchanged, run_bind, hcount, hupdate]

theorem run_consume_none (hordered : Ordered codes)
    (h : liveCode codes email purpose now = none) :
    (consumeLatestCode email purpose digest).run now codes = .ok (none, codes) := by
  unfold liveCode at h
  rw [← latestUnexpired_eq hordered] at h
  unfold consumeLatestCode
  rw [run_bind_of_ok run_ask, run_bind_of_ok run_get]
  cases hlatest : latestUnexpired codes email purpose now with
  | none => rfl
  | some record =>
    have hused : record.usedAt.isSome = true := by
      simpa [hlatest, Option.isSome_iff_ne_none] using h
    simp [hused]

/-- The transaction of a guess at a live code, up to the comparison of the digests. -/
theorem run_consume_some (hordered : Ordered codes)
    (h : liveCode codes email purpose now = some r)
    (hparse : parseVerificationCodeDigest r.codeDigest = some state) :
    (consumeLatestCode email purpose digest).run now codes =
      if state.baseDigest = digest then .ok (some r, codes.replace r (r.use now) (r.use_keys now))
      else match encodeVerificationCodeDigest state.baseDigest
          (min (state.failures + 1) maxVerificationFailuresPerCode) with
        | .ok encoded =>
          .ok (none, codes.replace r (r.charge now (state.failures + 1) encoded)
            (r.charge_keys ..))
        | .error e => .error e := by
  obtain ⟨hr, -, -, hlive, hused⟩ := liveCode_eq_some h
  have hlatest : latestUnexpired codes email purpose now = some r := by
    rw [latestUnexpired_eq hordered]
    exact (Option.filter_eq_some_iff.mp h).1
  unfold consumeLatestCode
  rw [run_bind_of_ok run_ask, run_bind_of_ok run_get]
  simp only [hlatest, hused, Option.isSome_none, Bool.false_eq_true, if_false, hparse]
  split
  · rw [run_bind_of_ok (run_updateUnchanged hr hused hlive)]
    rfl
  · cases encodeVerificationCodeDigest state.baseDigest
      (min (state.failures + 1) maxVerificationFailuresPerCode) with
    | error e => rfl
    | ok encoded =>
      rw [run_bind_of_ok run_ofExcept_ok, run_bind_of_ok (run_updateUnchanged hr hused hlive)]
      rfl

theorem run_consume_right (hordered : Ordered codes)
    (h : liveCode codes email purpose now = some r)
    (hparse : parseVerificationCodeDigest r.codeDigest = some state)
    (hdigest : state.baseDigest = digest) :
    (consumeLatestCode email purpose digest).run now codes =
      .ok (some r, codes.replace r (r.use now) (r.use_keys now)) := by
  rw [run_consume_some hordered h hparse, if_pos hdigest]

theorem run_consume_wrong (hordered : Ordered codes)
    (h : liveCode codes email purpose now = some r)
    (hparse : parseVerificationCodeDigest r.codeDigest = some state)
    (hdigest : state.baseDigest ≠ digest) :
    ∃ encoded,
      parseVerificationCodeDigest encoded =
        some ⟨state.baseDigest, min (state.failures + 1) maxVerificationFailuresPerCode⟩ ∧
      (consumeLatestCode email purpose digest).run now codes =
        .ok (none, codes.replace r (r.charge now (state.failures + 1) encoded)
            (r.charge_keys ..)) := by
  obtain ⟨encoded, hencoded, hback⟩ := parse_encode (parse_valid hparse).1
    (Nat.min_le_right (state.failures + 1) maxVerificationFailuresPerCode)
  refine ⟨encoded, hback, ?_⟩
  rw [run_consume_some hordered h hparse, if_neg hdigest, hencoded]

/-! Issuing and deleting -/

theorem createdAt_newCode {codeId : String} {ttlSeconds : Nat} (hr : r ∈ codes.rows)
    (hfor : r.isFor email purpose = true) :
    r.createdAt < (newCode codes now codeId email purpose digest ttlSeconds).createdAt := by
  have hmem : r.createdAt ∈ (codes.filter (CodeRow.isFor email purpose)).map (·.createdAt) :=
    List.mem_map.mpr ⟨r, List.mem_filter.mpr ⟨hr, hfor⟩, rfl⟩
  simp only [newCode, latestCreatedAt]
  cases hmax : ((codes.filter (CodeRow.isFor email purpose)).map (·.createdAt)).max? with
  | none => simp [List.max?_eq_none_iff.mp hmax] at hmem
  | some latest =>
    have hle := (List.max?_eq_some_iff.mp hmax).2 r.createdAt hmem
    simp only [Option.elim_some]
    omega

theorem le_createdAt_newCode {codeId : String} {ttlSeconds : Nat} :
    now ≤ (newCode codes now codeId email purpose digest ttlSeconds).createdAt := by
  simp only [newCode]
  cases latestCreatedAt codes email purpose with
  | none => exact le_rfl
  | some latest => exact le_max_left _ _

theorem run_issueCode {codeId codeId' : String} {ttlSeconds : Nat}
    (h : (issueCode codeId email purpose digest ttlSeconds).run now codes =
      .ok (codeId', codes')) :
    codeId' = codeId ∧
      codes.insert? (newCode codes now codeId email purpose digest ttlSeconds) = some codes' := by
  rw [issueCode, run_bind_of_ok run_ask, run_bind_of_ok run_get] at h
  split at h
  · cases h
  · rename_i hinsert
    rw [hinsert]
    cases h
    exact ⟨rfl, rfl⟩

end VerificationCodeRepository

end MultiClaw
