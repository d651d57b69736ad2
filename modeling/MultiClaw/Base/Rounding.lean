import MultiClaw.Base.Double

/-! Doubles are read back from their shortest decimals. -/
namespace Base.Double

variable {b num den num' den' m : Nat} {e : Int}

/-! Ratios -/

theorem scale_den_pos (hb : 0 < b) (hd : 0 < den) : 0 < (scale b num den e).2 := by
  unfold scale
  split_ifs
  · exact hd
  · positivity

theorem scale_ratio :
    ((scale b num den e).1 : ℚ) / (scale b num den e).2 = num / den * (b : ℚ) ^ e := by
  unfold scale
  split_ifs with he
  · have hpow : (b : ℚ) ^ e = (b : ℚ) ^ e.toNat := by
      rw [← zpow_natCast, Int.toNat_of_nonneg he]
    rw [hpow]
    push_cast
    ring
  · have hpow : (b : ℚ) ^ e = ((b : ℚ) ^ (-e).toNat)⁻¹ := by
      rw [← zpow_natCast, Int.toNat_of_nonneg (by omega), ← zpow_neg, neg_neg]
    rw [hpow]
    push_cast
    rw [div_mul_eq_div_div, div_eq_mul_inv]

/-- The guess from the logarithms of both sides is at most one too high. -/
theorem floorLog_guess (hb : 1 < b) (hn : 0 < num) (hd : 0 < den) :
    Int.log b ((num : ℚ) / den) ≤ (Nat.log b num : Int) - Nat.log b den ∧
      (Nat.log b num : Int) - Nat.log b den - 1 ≤ Int.log b ((num : ℚ) / den) := by
  have hq : (0 : ℚ) < num / den := by positivity
  have hb' : 0 < b := by omega
  constructor
  · rw [← Int.lt_add_one_iff, ← Int.lt_zpow_iff_log_lt hb hq, div_lt_iff₀ (by positivity)]
    have hnum : (num : ℚ) < b ^ (Nat.log b num + 1) := by
      exact_mod_cast Nat.lt_pow_succ_log_self hb num
    have hden : (b : ℚ) ^ Nat.log b den ≤ den := by
      exact_mod_cast Nat.pow_log_le_self b hd.ne'
    calc (num : ℚ) < b ^ (Nat.log b num + 1) := hnum
      _ = b ^ ((Nat.log b num : Int) - Nat.log b den + 1) * b ^ Nat.log b den := by
        rw [← zpow_natCast, ← zpow_natCast, ← zpow_add₀ (by positivity)]
        congr 1
        push_cast
        ring
      _ ≤ b ^ ((Nat.log b num : Int) - Nat.log b den + 1) * den := by gcongr
  · rw [← Int.zpow_le_iff_le_log hb hq, le_div_iff₀ (by positivity)]
    have hnum : (b : ℚ) ^ Nat.log b num ≤ num := by
      exact_mod_cast Nat.pow_log_le_self b hn.ne'
    have hden : (den : ℚ) ≤ b ^ (Nat.log b den + 1) := by
      exact_mod_cast (Nat.lt_pow_succ_log_self hb den).le
    calc (b : ℚ) ^ ((Nat.log b num : Int) - Nat.log b den - 1) * den
        ≤ b ^ ((Nat.log b num : Int) - Nat.log b den - 1) * b ^ (Nat.log b den + 1) := by gcongr
      _ = b ^ Nat.log b num := by
        rw [← zpow_natCast, ← zpow_natCast, ← zpow_add₀ (by positivity)]
        congr 1
        push_cast
        ring
      _ ≤ num := hnum

theorem floorLog_eq (hb : 1 < b) (hn : 0 < num) (hd : 0 < den) :
    floorLog b num den = Int.log b ((num : ℚ) / den) := by
  have hq : (0 : ℚ) < num / den := by positivity
  have hb' : 0 < b := by omega
  obtain ⟨hlow, hhigh⟩ := floorLog_guess hb hn hd
  rw [floorLog]
  generalize (Nat.log b num : Int) - Nat.log b den = guess at hlow hhigh ⊢
  -- the guess is right exactly when the ratio reaches its power
  have htest : (scale b num den (-guess)).2 ≤ (scale b num den (-guess)).1 ↔
      guess ≤ Int.log b ((num : ℚ) / den) := by
    have hpos : 0 < (scale b num den (-guess)).2 := scale_den_pos hb' hd
    rw [← Int.zpow_le_iff_le_log hb hq, ← Nat.cast_le (α := ℚ), ← one_le_div (by positivity),
      scale_ratio, zpow_neg, ← div_eq_mul_inv, one_le_div (by positivity)]
  by_cases h : guess ≤ Int.log b ((num : ℚ) / den)
  · simp only [if_pos (htest.mpr h)]
    omega
  · simp only [if_neg (mt htest.mp h)]
    omega

/-! Rounding -/

theorem roundHalfEven_mul {k : Nat} (hk : 0 < k) :
    roundHalfEven (num * k) (den * k) = roundHalfEven num den := by
  have hlt : den * k < 2 * (num % den * k) ↔ den < 2 * (num % den) := by
    rw [← mul_assoc, Nat.mul_lt_mul_right hk]
  have heq : 2 * (num % den * k) = den * k ↔ 2 * (num % den) = den := by
    rw [← mul_assoc, Nat.mul_left_inj hk.ne']
  simp only [roundHalfEven, Nat.mul_div_mul_right _ _ hk, Nat.mul_mod_mul_right, hlt,
    beq_eq_decide, heq]

theorem roundHalfEven_congr (hd : 0 < den) (hd' : 0 < den') (h : num * den' = num' * den) :
    roundHalfEven num den = roundHalfEven num' den' := by
  rw [← roundHalfEven_mul hd', h, mul_comm den, roundHalfEven_mul hd]

theorem roundHalfEven_near (hd : 0 < den) (h : |(num : ℚ) / den - m| < 1 / 2) :
    roundHalfEven num den = m := by
  have hd' : (0 : ℚ) < den := by positivity
  obtain ⟨hlow, hhigh⟩ := abs_lt.mp h
  have hlow' : (2 * (m : Int) - 1) * den < 2 * num := by
    have : (m : ℚ) - 1 / 2 < num / den := by linarith
    rw [lt_div_iff₀ hd'] at this
    exact_mod_cast (by linarith : (2 * (m : ℚ) - 1) * den < 2 * num)
  have hhigh' : 2 * (num : Int) < (2 * m + 1) * den := by
    have : (num : ℚ) / den < m + 1 / 2 := by linarith
    rw [div_lt_iff₀ hd'] at this
    exact_mod_cast (by linarith : 2 * (num : ℚ) < (2 * m + 1) * den)
  have hdiv := Nat.div_add_mod num den
  have hmod := Nat.mod_lt num hd
  have hcases : num / den = m ∧ 2 * (num % den) < den ∨
      num / den + 1 = m ∧ den < 2 * (num % den) := by
    generalize num / den = q at hdiv ⊢
    generalize num % den = r at hdiv hmod ⊢
    have hq : q ≤ m := by
      by_contra hq
      have := Nat.mul_le_mul_left den (show m + 1 ≤ q by omega)
      nlinarith
    have hq' : m ≤ q + 1 := by
      by_contra hq'
      have := Nat.mul_le_mul_left den (show q + 2 ≤ m by omega)
      nlinarith
    obtain rfl | rfl : q = m ∨ q + 1 = m := by omega
    · exact .inl ⟨rfl, by nlinarith⟩
    · exact .inr ⟨rfl, by
        push_cast at hlow'
        nlinarith⟩
  unfold roundHalfEven
  obtain ⟨rfl, hr⟩ | ⟨rfl, hr⟩ := hcases
  · rw [if_neg]
    simp only [Bool.or_eq_true, decide_eq_true_eq, Bool.and_eq_true, beq_iff_eq, not_or, not_and]
    omega
  · rw [if_pos]
    simp [hr]

/-! Reading -/

theorem ofRatio_of_ne_zero (s : Bool) (hn : num ≠ 0)
    (he : max (floorLog 2 num den - 52) (-1074) = e)
    (hm : roundHalfEven (scale 2 num den (-e)).1 (scale 2 num den (-e)).2 = m) :
    ofRatio s num den =
      if m = 2 ^ 53 then if 971 < e + 1 then infinity s else finite s (2 ^ 52) (e + 1)
      else if 971 < e then infinity s else finite s m e := by
  subst he hm
  rw [ofRatio, if_neg hn]
  dsimp only
  split_ifs <;> simp_all

/-- Only the value of a ratio counts. -/
theorem ofRatio_congr (s : Bool) (hd : 0 < den) (hd' : 0 < den') (h : num * den' = num' * den) :
    ofRatio s num den = ofRatio s num' den' := by
  rcases Nat.eq_zero_or_pos num with rfl | hn
  · have hn' : num' = 0 := by
      have : num' * den = 0 := by omega
      exact (Nat.mul_eq_zero.mp this).resolve_right hd.ne'
    rw [hn', ofRatio, if_pos rfl, ofRatio, if_pos rfl]
  · have hn' : 0 < num' := by
      rcases Nat.eq_zero_or_pos num' with rfl | hn'
      · have := Nat.mul_pos hn hd'
        omega
      · exact hn'
    have hratio : (num : ℚ) / den = num' / den' := by
      rw [div_eq_div_iff (by positivity) (by positivity)]
      exact_mod_cast h
    have hlog : floorLog 2 num den = floorLog 2 num' den' := by
      rw [floorLog_eq (by decide) hn hd, floorLog_eq (by decide) hn' hd', hratio]
    have hround : ∀ k, roundHalfEven (scale 2 num den k).1 (scale 2 num den k).2 =
        roundHalfEven (scale 2 num' den' k).1 (scale 2 num' den' k).2 := by
      intro k
      refine roundHalfEven_congr (scale_den_pos (by decide) hd) (scale_den_pos (by decide) hd') ?_
      have hscaled : ((scale 2 num den k).1 : ℚ) / (scale 2 num den k).2 =
          (scale 2 num' den' k).1 / (scale 2 num' den' k).2 := by
        rw [scale_ratio, scale_ratio, hratio]
      have hpos : 0 < (scale 2 num den k).2 := scale_den_pos (by decide) hd
      have hpos' : 0 < (scale 2 num' den' k).2 := scale_den_pos (by decide) hd'
      rw [div_eq_div_iff (by positivity) (by positivity)] at hscaled
      exact_mod_cast hscaled
    rw [ofRatio_of_ne_zero s hn.ne' rfl rfl, ofRatio_of_ne_zero s hn'.ne' rfl rfl, hlog, hround]

/-- A ratio near a double reads as the double; the doubles below a power of two are closer, but so
is what is near it. -/
theorem ofRatio_near {s : Bool} (hx : (finite s m e).isDouble = true) (hm : 0 < m) (hn : 0 < num)
    (hd : 0 < den) (h : |(num : ℚ) / den - m * 2 ^ e| ≤ m * 2 ^ e / (2 * 10 ^ 16)) :
    ofRatio s num den = finite s m e := by
  simp only [isDouble, Bool.or_eq_true, Bool.and_eq_true, beq_iff_eq, decide_eq_true_eq] at hx
  obtain ⟨⟨⟨⟨-, hm53⟩, hemin⟩, hemax⟩, hnormal⟩ := hx.resolve_left (by omega)
  have hw : (0 : ℚ) < num / den := by positivity
  have hpow : (0 : ℚ) < 2 ^ e := by positivity
  -- in units of the last place
  obtain ⟨u, hu⟩ : ∃ u : ℚ, u * 2 ^ e = num / den := ⟨num / den / 2 ^ e, by field_simp⟩
  have hdist : |u - m| ≤ m / (2 * 10 ^ 16) := by
    rw [← hu, ← sub_mul, abs_mul, abs_of_pos hpow, mul_div_right_comm] at h
    exact le_of_mul_le_mul_right h hpow
  have hm' : (m : ℚ) ≤ 2 ^ 53 - 1 := by
    have : m + 1 ≤ 2 ^ 53 := hm53
    have : ((m + 1 : Nat) : ℚ) ≤ (2 ^ 53 : Nat) := by exact_mod_cast this
    push_cast at this
    linarith
  obtain ⟨hlow, hhigh⟩ := abs_le.mp hdist
  have hnear : |u - m| < 1 / 2 := by
    refine hdist.trans_lt ?_
    rw [div_lt_iff₀ (by norm_num)]
    linarith
  have hlog : ∀ k : Int, (2 : ℚ) ^ k ≤ u ↔ k + e ≤ Int.log 2 ((num : ℚ) / den) := by
    intro k
    have := Int.zpow_le_iff_le_log (R := ℚ) (show 1 < 2 by decide) (x := k + e) hw
    rw [← this, ← hu, Nat.cast_ofNat, zpow_add₀ (by norm_num)]
    exact (mul_le_mul_iff_left₀ hpow).symm
  have htop : Int.log 2 ((num : ℚ) / den) ≤ 52 + e := by
    have : ¬(2 : ℚ) ^ (53 : Int) ≤ u := by
      norm_num
      linarith
    have := mt (hlog 53).mpr this
    omega
  by_cases hcase : (2 : ℚ) ^ (52 : Int) ≤ u ∨ e = -1074
  · have he : max (floorLog 2 num den - 52) (-1074) = e := by
      rw [floorLog_eq (by decide) hn hd]
      rcases hcase with hu52 | rfl
      · have := (hlog 52).mp hu52
        omega
      · omega
    have hround : roundHalfEven (scale 2 num den (-e)).1 (scale 2 num den (-e)).2 = m := by
      refine roundHalfEven_near (scale_den_pos (by decide) hd) ?_
      rw [scale_ratio, ← hu, Nat.cast_ofNat, mul_assoc, ← zpow_add₀ (by norm_num)]
      simpa using hnear
    rw [ofRatio_of_ne_zero s hn.ne' he hround, if_neg (by omega), if_neg (by omega)]
  · -- just below a power of two, the last place counts half
    obtain ⟨hu52, hemin'⟩ := not_or.mp hcase
    have hu52' : u < 2 ^ 52 := by
      norm_num at hu52
      norm_num
      exact hu52
    have hm52 : m = 2 ^ 52 := by
      have hlt : (m : ℚ) < 2 ^ 52 + 1 := by
        have := (abs_lt.mp hnear).1
        linarith
      have : m < 2 ^ 52 + 1 := by exact_mod_cast hlt
      omega
    have hmq : (m : ℚ) = 2 ^ 52 := by
      rw [hm52]
      norm_num
    have hu51 : (2 : ℚ) ^ (51 : Int) ≤ u := by
      rw [hmq] at hlow
      norm_num at hlow ⊢
      linarith
    have he : max (floorLog 2 num den - 52) (-1074) = e - 1 := by
      rw [floorLog_eq (by decide) hn hd]
      have := (hlog 51).mp hu51
      have := mt (hlog 52).mpr hu52
      omega
    have hround : roundHalfEven (scale 2 num den (-(e - 1))).1 (scale 2 num den (-(e - 1))).2 =
        2 ^ 53 := by
      refine roundHalfEven_near (scale_den_pos (by decide) hd) ?_
      have htwice : u * 2 ^ e * (2 : ℚ) ^ (-(e - 1)) = 2 * u := by
        rw [mul_assoc, ← zpow_add₀ (by norm_num), show e + -(e - 1) = 1 by ring, zpow_one, mul_comm]
      rw [scale_ratio, ← hu, Nat.cast_ofNat, htwice, abs_lt]
      rw [hmq] at hlow hhigh
      norm_num at hlow hhigh ⊢
      constructor <;> linarith
    rw [ofRatio_of_ne_zero s hn.ne' he hround, if_pos rfl, if_neg (by omega), hm52]
    congr 1
    omega

theorem ofDecimal_congr (s : Bool) {d d' : Nat} {e e' : Int}
    (h : (d : ℚ) * 10 ^ e = d' * 10 ^ e') : ofDecimal s d e = ofDecimal s d' e' := by
  have hpos : 0 < (scale 10 d 1 e).2 := scale_den_pos (by decide) (by decide)
  have hpos' : 0 < (scale 10 d' 1 e').2 := scale_den_pos (by decide) (by decide)
  have hratio : ((scale 10 d 1 e).1 : ℚ) / (scale 10 d 1 e).2 =
      (scale 10 d' 1 e').1 / (scale 10 d' 1 e').2 := by
    rw [scale_ratio, scale_ratio]
    simpa using h
  rw [div_eq_div_iff (by positivity) (by positivity)] at hratio
  exact ofRatio_congr s hpos hpos' (by exact_mod_cast hratio)

theorem ofDecimal_zero (s : Bool) (e : Int) : ofDecimal s 0 e = finite s 0 0 := by
  have hnum : (scale 10 0 1 e).1 = 0 := by
    unfold scale
    split_ifs <;> simp
  rw [ofDecimal]
  exact if_pos hnum

/-- The sign is read apart from the digits. -/
theorem ofRatio_sign {s : Bool} (h : ofRatio false num den = finite false m e) :
    ofRatio s num den = finite s m e := by
  by_cases hn : num = 0
  · rw [ofRatio, if_pos hn] at h ⊢
    cases h
    rfl
  · rw [ofRatio_of_ne_zero _ hn rfl rfl] at h ⊢
    split_ifs at h ⊢ <;>
    · cases h
      rfl

/-! Printing -/

/-- Some candidate is within half a unit of its last digit. -/
theorem exists_candidate (num count : Nat) (hd : 0 < den) (log10 : Int) :
    ∃ c ∈ candidates num den count log10, c.2 = log10 - count + 1 ∧
      |(c.1 : ℚ) * 10 ^ c.2 - num / den| ≤ 10 ^ c.2 / 2 := by
  unfold candidates
  generalize log10 - (count : Int) + 1 = k
  have hpos : 0 < (scale 10 num den (-k)).2 := scale_den_pos (by decide) hd
  have hratio : ((scale 10 num den (-k)).1 : ℚ) / (scale 10 num den (-k)).2 =
      num / den * 10 ^ (-k) := by
    rw [scale_ratio, Nat.cast_ofNat]
  dsimp only
  generalize (scale 10 num den (-k)).1 = n at hpos hratio ⊢
  generalize (scale 10 num den (-k)).2 = d at hpos hratio ⊢
  have hpow : (0 : ℚ) < 10 ^ k := by positivity
  have hvalue : (num : ℚ) / den = n / d * 10 ^ k := by
    rw [hratio, mul_assoc, ← zpow_add₀ (by norm_num), neg_add_cancel, zpow_zero, mul_one]
  have hclose : ∀ c : Nat, |(c : ℚ) - n / d| ≤ 1 / 2 →
      |(c : ℚ) * 10 ^ k - num / den| ≤ 10 ^ k / 2 := by
    intro c hc
    rw [hvalue, ← sub_mul, abs_mul, abs_of_pos hpow]
    linarith [mul_le_mul_of_nonneg_right hc hpow.le]
  have hdiv : (n : ℚ) = d * (n / d : Nat) + (n % d : Nat) := by
    exact_mod_cast (Nat.div_add_mod n d).symm
  have hd' : (0 : ℚ) < d := by positivity
  have hmod : ((n % d : Nat) : ℚ) ≤ d := by exact_mod_cast (Nat.mod_lt n hpos).le
  have hfraction : (n : ℚ) / d = (n / d : Nat) + (n % d : Nat) / d := by
    rw [div_eq_iff hd'.ne', hdiv]
    field_simp
  by_cases hhalf : 2 * (n % d) ≤ d
  · rw [if_pos hhalf]
    refine ⟨(n / d, k), by simp, rfl, hclose _ ?_⟩
    have hhalf' : 2 * ((n % d : Nat) : ℚ) ≤ d := by exact_mod_cast hhalf
    rw [hfraction, sub_add_cancel_left, abs_neg, abs_of_nonneg (by positivity),
      div_le_iff₀ hd']
    linarith
  · rw [if_neg hhalf]
    refine ⟨(n / d + 1, k), by simp, rfl, hclose _ ?_⟩
    have hhalf' : (d : ℚ) ≤ 2 * ((n % d : Nat) : ℚ) := by exact_mod_cast (by omega)
    have hle : ((n % d : Nat) : ℚ) / d ≤ 1 := (div_le_one hd').mpr hmod
    have hge : 1 / 2 ≤ ((n % d : Nat) : ℚ) / d := by
      rw [le_div_iff₀ hd']
      linarith
    rw [hfraction, Nat.cast_add, Nat.cast_one, add_sub_add_left_eq_sub,
      abs_of_nonneg (by linarith)]
    linarith

/-- Seventeen digits are enough, so the search ends with digits that read back. -/
theorem shortest_reads (hx : (finite false m e).isDouble = true) (hm : 0 < m) :
    ofDecimal false (shortest (finite false m e) (scale 2 m 1 e).1 (scale 2 m 1 e).2).1
      (shortest (finite false m e) (scale 2 m 1 e).1 (scale 2 m 1 e).2).2 = finite false m e := by
  have hd : 0 < (scale 2 m 1 e).2 := scale_den_pos (by decide) (by decide)
  have hvalue : ((scale 2 m 1 e).1 : ℚ) / (scale 2 m 1 e).2 = m * 2 ^ e := by
    rw [scale_ratio, Nat.cast_one, div_one, Nat.cast_ofNat]
  generalize (scale 2 m 1 e).1 = num at hvalue ⊢
  generalize (scale 2 m 1 e).2 = den at hd hvalue ⊢
  have hv : (0 : ℚ) < m * 2 ^ e := by positivity
  have hn : 0 < num := by
    rcases Nat.eq_zero_or_pos num with rfl | hn
    · rw [Nat.cast_zero, zero_div] at hvalue
      exact absurd hvalue hv.ne
    · exact hn
  obtain ⟨c, hc, hk, hnear⟩ := exists_candidate num 17 hd (floorLog 10 num den)
  have hlog : (10 : ℚ) ^ (floorLog 10 num den) ≤ m * 2 ^ e := by
    rw [floorLog_eq (by decide) hn hd, ← hvalue]
    have := Int.zpow_log_le_self (R := ℚ) (show 1 < 10 by decide) (hvalue ▸ hv)
    exact_mod_cast this
  have hunit : (10 : ℚ) ^ c.2 = 10 ^ floorLog 10 num den / 10 ^ 16 := by
    rw [hk, show floorLog 10 num den - ((17 : Nat) : Int) + 1 = floorLog 10 num den - 16 by
      push_cast
      ring, zpow_sub₀ (by norm_num)]
    norm_num
  have hback : ofDecimal false c.1 c.2 = finite false m e := by
    have hpos : 0 < (scale 10 c.1 1 c.2).2 := scale_den_pos (by decide) (by decide)
    have hclose : |((scale 10 c.1 1 c.2).1 : ℚ) / (scale 10 c.1 1 c.2).2 - m * 2 ^ e| ≤
        m * 2 ^ e / (2 * 10 ^ 16) := by
      rw [scale_ratio, Nat.cast_one, div_one, Nat.cast_ofNat, ← hvalue]
      refine hnear.trans ?_
      rw [hunit, hvalue]
      linarith
    refine ofRatio_near hx hm ?_ hpos hclose
    rcases Nat.eq_zero_or_pos (scale 10 c.1 1 c.2).1 with hzero | hpos'
    · rw [hzero, Nat.cast_zero, zero_div, zero_sub, abs_neg, abs_of_pos hv] at hclose
      linarith
    · exact hpos'
  -- the search finds this candidate unless it stops before
  rw [shortest]
  cases hfound : (List.range 17).findSome? fun i =>
      (candidates num den (i + 1) (floorLog 10 num den)).find? fun c =>
        ofDecimal false c.1 c.2 == finite false m e with
  | none =>
    have hnone := List.find?_eq_none.mp (List.findSome?_eq_none_iff.mp hfound 16 (by simp)) c hc
    exact absurd hback (by simpa using hnone)
  | some d =>
    obtain ⟨i, -, hi⟩ := List.exists_of_findSome?_eq_some hfound
    simpa [hfound] using List.find?_some hi

end Base.Double
