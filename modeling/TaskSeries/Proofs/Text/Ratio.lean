import Mathlib.Tactic.Ring
import Mathlib.Tactic.SplitIfs
import TaskSeries.Text.Ratio

/-!
# Whole numbers as binary fractions

A whole number below `2 ^ 53` is a binary fraction with 53 significant bits, so that it is rounded to
itself (`Ratio.nearestDouble?_whole`). From there on a quantity may be rounded, but not to less than
`2 ^ 53`, if it can be held at all (`Ratio.le_of_nearestDouble?`). Hence a product of whole numbers is
exact or out of every lower bound's reach (`Ratio.scale?_ofDecimal?_whole`,
`Ratio.le_scale?_ofDecimal?_whole`).
-/

namespace TaskSeries.Text.Ratio

lemma twoTo_eq (n : Nat) : twoTo n = 2 ^ n := rfl

/-! ## Binary exponents -/

section
variable {n d j : Nat}

/-- A power of two that goes into the ratio is no greater than its binary exponent. -/
lemma le_binaryExponent (hd : 0 < d) (h : d * 2 ^ j ≤ n) : (j : Int) ≤ binaryExponent n d := by
  have hn : n ≠ 0 := by
    have := Nat.mul_pos hd (Nat.two_pow_pos j)
    omega
  have hlog : d.log2 + j ≤ n.log2 := by
    have hle : 2 ^ (d.log2 + j) ≤ n := by
      rw [Nat.pow_add]
      exact Nat.le_trans (Nat.mul_le_mul_right _ (Nat.log2_self_le hd.ne')) h
    exact (Nat.le_log2 hn).mpr hle
  unfold binaryExponent
  dsimp only
  split
  · omega
  · next hbelow =>
    -- the guess is one too high here, so it is not `j` itself
    have hne : n.log2 ≠ d.log2 + j := by
      intro heq
      refine hbelow ?_
      have hj : ((n.log2 : Int) - d.log2).toNat = j := by omega
      have hzero : (-((n.log2 : Int) - d.log2)).toNat = 0 := by omega
      rw [hj, hzero]
      simpa [twoTo_eq] using h
    omega

/-- A ratio below a power of two has a binary exponent below that of the power. -/
lemma binaryExponent_le (h : n < d * 2 ^ (j + 1)) : binaryExponent n d ≤ j := by
  have hlog : n.log2 ≤ d.log2 + 1 + j := by
    by_cases hn : n = 0
    · rw [hn, Nat.log2_zero]
      exact Nat.zero_le _
    · have hlt : 2 ^ n.log2 < 2 ^ (d.log2 + 1 + (j + 1)) := by
        rw [Nat.pow_add]
        calc 2 ^ n.log2 ≤ n := Nat.log2_self_le hn
          _ < d * 2 ^ (j + 1) := h
          _ ≤ 2 ^ (d.log2 + 1) * 2 ^ (j + 1) := Nat.mul_le_mul_right _ Nat.lt_log2_self.le
      have hexponents := (Nat.pow_lt_pow_iff_right (by decide)).mp hlt
      omega
  unfold binaryExponent
  dsimp only
  split
  · next hguess =>
    -- the guess is right here, so it is not one more than `j`
    have hne : n.log2 ≠ d.log2 + (j + 1) := by
      intro heq
      have hj : ((n.log2 : Int) - d.log2).toNat = j + 1 := by omega
      have hzero : (-((n.log2 : Int) - d.log2)).toNat = 0 := by omega
      rw [hj, hzero] at hguess
      simp only [twoTo_eq, Nat.pow_zero, Nat.mul_one] at hguess
      omega
    omega
  · omega

/-- The power of two with this exponent is no greater than the quantity. -/
lemma mul_two_pow_binaryExponent_le (hn : 0 < n) (h : 0 ≤ binaryExponent n d) :
    d * 2 ^ (binaryExponent n d).toNat ≤ n := by
  unfold binaryExponent at h ⊢
  dsimp only at h ⊢
  split at h
  · next hguess =>
    rw [if_pos hguess]
    have hzero : (-((n.log2 : Int) - d.log2)).toNat = 0 := by omega
    rw [hzero] at hguess
    simpa [twoTo_eq] using hguess
  · next hguess =>
    rw [if_neg hguess]
    have hsum : d.log2 + 1 + ((n.log2 : Int) - d.log2 - 1).toNat = n.log2 := by omega
    calc d * 2 ^ ((n.log2 : Int) - d.log2 - 1).toNat
        ≤ 2 ^ (d.log2 + 1) * 2 ^ ((n.log2 : Int) - d.log2 - 1).toNat :=
          Nat.mul_le_mul_right _ Nat.lt_log2_self.le
      _ = 2 ^ n.log2 := by rw [← Nat.pow_add, hsum]
      _ ≤ n := Nat.log2_self_le hn.ne'

end

/-! ## Rounding -/

section
variable {m n d k : Nat} {r : Ratio}

/-- Rounding to even never falls below the whole part. -/
lemma div_le_roundHalfEven (n d : Nat) : n / d ≤ roundHalfEven n d := by
  unfold roundHalfEven
  dsimp only
  split_ifs <;> omega

lemma roundHalfEven_mul (m : Nat) (hd : 0 < d) : roundHalfEven (m * d) d = m := by
  unfold roundHalfEven
  rw [Nat.mul_mod_left, Nat.mul_div_cancel m hd]
  exact if_pos hd

lemma roundHalfUp_mul (m : Nat) (hk : 0 < k) : roundHalfUp ⟨m * k, k⟩ = m := by
  have hnum : 2 * (m * k) + k = k + m * (2 * k) := by ring
  unfold roundHalfUp
  rw [hnum, Nat.add_mul_div_right _ _ (by omega), Nat.div_eq_of_lt (by omega), Nat.zero_add]

/-- Rounding half up never falls below a whole number that the ratio reaches. -/
lemma le_roundHalfUp (hden : 0 < r.den) (h : m * r.den ≤ r.num) : m ≤ r.roundHalfUp := by
  unfold roundHalfUp
  rw [Nat.le_div_iff_mul_le (by omega)]
  have hdouble : m * (2 * r.den) = 2 * (m * r.den) := by ring
  omega

/-- A whole number is a multiple of every unit that is a fraction of one. -/
lemma nearestMultiple_whole {e : Int} (he : e ≤ 0) (m : Nat) (hd : 0 < d) :
    nearestMultiple e ⟨m * d, d⟩ = ⟨m * twoTo (-e).toNat, twoTo (-e).toNat⟩ := by
  have hup : twoTo e.toNat = 1 := by rw [Int.toNat_of_nonpos he, twoTo_eq, Nat.pow_zero]
  unfold nearestMultiple
  dsimp only
  rw [hup, Nat.mul_one, Nat.mul_one, Nat.mul_right_comm, roundHalfEven_mul _ hd]

/-- A whole number that 53 bits can hold is rounded to itself. -/
lemma nearestDouble?_whole (hd : 0 < d) (hm : m < 2 ^ 53) :
    ∃ k, 0 < k ∧ nearestDouble? ⟨m * d, d⟩ = some ⟨m * k, k⟩ := by
  by_cases hzero : m = 0
  · refine ⟨1, Nat.one_pos, ?_⟩
    rw [hzero, Nat.zero_mul, Nat.zero_mul]
    rfl
  have hexponent : ∀ k, 0 < k → binaryExponent (m * k) k ≤ 52 := fun k hk =>
    binaryExponent_le (by rw [Nat.mul_comm]; exact Nat.mul_lt_mul_of_pos_left hm hk)
  have hnonneg : (0 : Int) ≤ binaryExponent (m * d) d := by
    refine le_binaryExponent (j := 0) hd ?_
    rw [Nat.pow_zero, Nat.mul_one]
    exact Nat.le_mul_of_pos_left d (Nat.pos_of_ne_zero hzero)
  have hmax : max (binaryExponent (m * d) d - 52) (-1074) = binaryExponent (m * d) d - 52 := by
    omega
  have hfine : binaryExponent (m * d) d - 52 ≤ 0 := by
    have hle := hexponent d hd
    omega
  refine ⟨twoTo (-(binaryExponent (m * d) d - 52)).toNat, Nat.two_pow_pos _, ?_⟩
  unfold nearestDouble?
  rw [if_neg (Nat.mul_ne_zero hzero hd.ne')]
  simp only [hmax, nearestMultiple_whole hfine m hd]
  have hheld := hexponent (twoTo (-(binaryExponent (m * d) d - 52)).toNat) (Nat.two_pow_pos _)
  exact if_neg (by omega)

/-- What is `2 ^ 53` at least is not rounded below it. -/
lemma le_of_nearestDouble? (hd : 0 < d) (h : 2 ^ 53 * d ≤ n) (hr : nearestDouble? ⟨n, d⟩ = some r) :
    0 < r.den ∧ 2 ^ 53 * r.den ≤ r.num := by
  have hn : 0 < n := by omega
  have hexponent : (53 : Int) ≤ binaryExponent n d :=
    le_binaryExponent (j := 53) hd (by rwa [Nat.mul_comm])
  have hspec := mul_two_pow_binaryExponent_le (d := d) hn (by omega)
  obtain ⟨e, he⟩ : ∃ e : Nat, binaryExponent n d = e + 53 := ⟨(binaryExponent n d - 53).toNat, by omega⟩
  have hmax : max (binaryExponent n d - 52) (-1074) = (e + 1 : Nat) := by omega
  unfold nearestDouble? at hr
  rw [if_neg hn.ne'] at hr
  simp only [hmax] at hr
  rw [Option.ite_none_left_eq_some] at hr
  rw [← Option.some.inj hr.2]
  -- the unit in the last place is whole, and at least `2 ^ 52` of them are below the quantity
  have hunits : 2 ^ 52 ≤ n / (d * 2 ^ (e + 1)) := by
    rw [Nat.le_div_iff_mul_le (Nat.mul_pos hd (Nat.two_pow_pos _))]
    rw [he, show ((e : Int) + 53).toNat = 52 + (e + 1) by omega, Nat.pow_add] at hspec
    calc 2 ^ 52 * (d * 2 ^ (e + 1)) = d * (2 ^ 52 * 2 ^ (e + 1)) := by ring
      _ ≤ n := hspec
  have hround := div_le_roundHalfEven n (d * 2 ^ (e + 1))
  have hdown : twoTo (-((e + 1 : Nat) : Int)).toNat = 1 := by
    rw [show (-((e + 1 : Nat) : Int)).toNat = 0 by omega, twoTo_eq, Nat.pow_zero]
  unfold nearestMultiple
  simp only [hdown, Int.toNat_natCast, twoTo_eq, Nat.mul_one]
  refine ⟨Nat.one_pos, ?_⟩
  calc 2 ^ 53 = 2 ^ 52 * 2 := rfl
    _ ≤ roundHalfEven n (d * 2 ^ (e + 1)) * 2 ^ (e + 1) :=
      Nat.mul_le_mul (Nat.le_trans hunits hround) (by
        rw [Nat.pow_succ]
        exact Nat.le_mul_of_pos_left 2 (Nat.two_pow_pos e))

/-! ## Products of whole numbers -/

lemma ofDecimal?_whole (m : Nat) : ofDecimal? m 0 0 = nearestDouble? ⟨m * 1, 1⟩ := rfl

/-- A product that 53 bits can hold is exact. -/
lemma scale?_ofDecimal?_whole {factor : Nat} (hfactor : 1 ≤ factor) (h : m * factor < 2 ^ 53) :
    ∃ p, (ofDecimal? m 0 0).bind (scale? factor) = some p ∧ p.roundHalfUp = m * factor := by
  have hm : m < 2 ^ 53 := Nat.lt_of_le_of_lt (Nat.le_mul_of_pos_right m hfactor) h
  obtain ⟨k, hk, hmagnitude⟩ := nearestDouble?_whole Nat.one_pos hm
  obtain ⟨l, hl, hproduct⟩ := nearestDouble?_whole hk h
  refine ⟨_, ?_, roundHalfUp_mul (m * factor) hl⟩
  rw [ofDecimal?_whole, hmagnitude, Option.bind_some]
  unfold scale?
  rw [Nat.mul_right_comm]
  exact hproduct

/-- A product beyond 53 bits does not come out below them. -/
lemma le_scale?_ofDecimal?_whole {factor : Nat} (hfactor : 1 ≤ factor) (h : 2 ^ 53 ≤ m * factor)
    (hr : (ofDecimal? m 0 0).bind (scale? factor) = some r) : 2 ^ 53 ≤ r.roundHalfUp := by
  obtain ⟨magnitude, hmagnitude, hr⟩ := Option.bind_eq_some_iff.mp hr
  rw [ofDecimal?_whole] at hmagnitude
  -- the magnitude is exact, or is beyond 53 bits itself
  have hlarge : 0 < magnitude.den ∧ 2 ^ 53 * magnitude.den ≤ magnitude.num * factor := by
    by_cases hm : m < 2 ^ 53
    · obtain ⟨k, hk, hexact⟩ := nearestDouble?_whole Nat.one_pos hm
      rw [← Option.some.inj (hexact.symm.trans hmagnitude)]
      refine ⟨hk, ?_⟩
      rw [Nat.mul_right_comm]
      exact Nat.mul_le_mul_right k h
    · obtain ⟨hden, hnum⟩ := le_of_nearestDouble? Nat.one_pos (by omega) hmagnitude
      exact ⟨hden, Nat.le_trans hnum (Nat.le_mul_of_pos_right _ hfactor)⟩
  obtain ⟨hden, hnum⟩ := le_of_nearestDouble? hlarge.1 hlarge.2 hr
  exact le_roundHalfUp hden hnum

end

end TaskSeries.Text.Ratio
