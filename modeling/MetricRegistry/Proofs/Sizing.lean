import MetricRegistry.Proofs.Probing

/-! Capacities grow with the entries they are computed for: rounding to a double keeps the order
of non-negative rationals, so the rounded-up quotient and the capacity grow with the count
(`capacityFor_mono`). -/

namespace MetricRegistry.Table

-----------------------------------------------------------------------------------------
-- Rounding to a double
-----------------------------------------------------------------------------------------

/-- A ratio of positive naturals lies strictly between the powers of two one below and one above
`k`, the difference of their binary logarithms. -/
theorem log2_bracket {n d : ℕ} (n_pos : 0 < n) (d_pos : 0 < d) {k : ℤ}
    (hk : k = (n.log2 : ℤ) - (d.log2 : ℤ))
    : (2 : ℚ) ^ (k - 1) < (n : ℚ) / d ∧ (n : ℚ) / d < 2 ^ (k + 1) := by
  have n_lo : (2 : ℚ) ^ n.log2 ≤ n := by exact_mod_cast Nat.log2_self_le (by omega)
  have n_hi : (n : ℚ) < 2 ^ (n.log2 + 1) := by exact_mod_cast Nat.lt_log2_self
  have d_lo : (2 : ℚ) ^ d.log2 ≤ d := by exact_mod_cast Nat.log2_self_le (by omega)
  have d_hi : (d : ℚ) < 2 ^ (d.log2 + 1) := by exact_mod_cast Nat.lt_log2_self
  have d_pos' : (0 : ℚ) < d := by exact_mod_cast d_pos
  -- each bound is compared with the denominators cleared
  have pow_k : ∀ j : ℤ,
      (2 : ℚ) ^ (k + j) = 2 ^ ((n.log2 : ℤ) + j) / 2 ^ (d.log2 : ℤ) := by
    intro j
    rw [← zpow_sub₀ two_ne_zero, hk]
    ring_nf
  constructor
  · rw [sub_eq_add_neg, pow_k, zpow_add₀ two_ne_zero, zpow_natCast, zpow_natCast,
      div_lt_div_iff₀ (by positivity) d_pos']
    have half : (2 : ℚ) ^ (-1 : ℤ) * 2 ^ (d.log2 + 1) = 2 ^ d.log2 := by
      rw [pow_succ, zpow_neg_one]; ring
    calc 2 ^ n.log2 * 2 ^ (-1 : ℤ) * (d : ℚ)
          < 2 ^ n.log2 * 2 ^ (-1 : ℤ) * 2 ^ (d.log2 + 1) := by gcongr
      _ = 2 ^ n.log2 * 2 ^ d.log2 := by rw [mul_assoc, half]
      _ ≤ n * 2 ^ d.log2 := by gcongr
  · rw [pow_k, zpow_add₀ two_ne_zero, zpow_natCast, zpow_natCast, zpow_one, ← pow_succ,
      div_lt_div_iff₀ d_pos' (by positivity)]
    calc (n : ℚ) * 2 ^ d.log2 < 2 ^ (n.log2 + 1) * 2 ^ d.log2 := by gcongr
      _ ≤ 2 ^ (n.log2 + 1) * d := by gcongr

/-- Strictly between `2 ^ (k - 1)` and `2 ^ (k + 1)`, `⌊log2 x⌋` is `k` from `2 ^ k` on and
`k - 1` below it. -/
theorem log_of_bracket {x : ℚ} {k : ℤ} (pos : 0 < x) (lower : (2 : ℚ) ^ (k - 1) < x)
    (upper : x < 2 ^ (k + 1))
    : ((2 : ℚ) ^ k ≤ x → Int.log 2 x = k) ∧ (x < 2 ^ k → Int.log 2 x = k - 1) := by
  have two : (1 : ℕ) < 2 := by norm_num
  constructor
  · intro reached
    have le : k ≤ Int.log 2 x := (Int.zpow_le_iff_le_log two pos).mp (by exact_mod_cast reached)
    have lt : Int.log 2 x < k + 1 := (Int.lt_zpow_iff_log_lt two pos).mp (by exact_mod_cast upper)
    omega
  · intro below
    have lt : Int.log 2 x < k := (Int.lt_zpow_iff_log_lt two pos).mp (by exact_mod_cast below)
    have le : k - 1 ≤ Int.log 2 x :=
      (Int.zpow_le_iff_le_log two pos).mp (by exact_mod_cast lower.le)
    omega

/-- The computed `⌊log2 x⌋` is the logarithm: `2 ^ k ≤ x < 2 ^ (k + 1)`. -/
theorem floorLog2_eq_log {x : ℚ} (pos : 0 < x) : floorLog2 x = Int.log 2 x := by
  have num_pos : 0 < x.num := Rat.num_pos.mpr pos
  have value : x = (x.num.toNat : ℚ) / x.den := by
    conv_lhs => rw [← Rat.num_div_den x]
    congr 1
    exact_mod_cast (Int.toNat_of_nonneg num_pos.le).symm
  obtain ⟨lower, upper⟩ := log2_bracket (by omega : 0 < x.num.toNat) x.den_pos rfl
  rw [← value] at lower upper
  obtain ⟨above, below⟩ := log_of_bracket pos lower upper
  unfold floorLog2
  dsimp only
  split_ifs with reached
  · exact (above (by exact_mod_cast reached)).symm
  · exact (below (by exact_mod_cast not_le.mp reached)).symm

/-- The model's integer part is the floor of the ordered field. -/
theorem floor_eq_intFloor (x : ℚ) : x.floor = ⌊x⌋ :=
  (Rat.floor_def x).trans Rat.floor_def'.symm

theorem roundHalfEven_intCast (n : ℤ) : roundHalfEven n = n := by
  simp [roundHalfEven, floor_eq_intFloor]

theorem roundHalfEven_mono {x y : ℚ} (le : x ≤ y) : roundHalfEven x ≤ roundHalfEven y := by
  have floors : ⌊x⌋ ≤ ⌊y⌋ := Int.floor_mono le
  have below_x : x < ⌊x⌋ + 1 := Int.lt_floor_add_one x
  have above_y : (⌊y⌋ : ℚ) ≤ y := Int.floor_le y
  simp only [roundHalfEven, floor_eq_intFloor]
  rcases floors.lt_or_eq with lt | same
  · split_ifs <;> omega
  · rw [← same]
    rw [← same] at above_y
    split_ifs with down_x down_y down_y
    · exact le_rfl
    · omega
    · exfalso
      push Not at down_x
      rcases down_y with half_below | ⟨tie, even⟩
      · linarith [down_x.1]
      · exact down_x.2 (by linarith [down_x.1]) even
    · exact le_rfl

theorem roundHalfEven_le_of_le {x : ℚ} {n : ℤ} (le : x ≤ n) : roundHalfEven x ≤ n :=
  (roundHalfEven_mono le).trans_eq (roundHalfEven_intCast n)

theorem le_roundHalfEven_of_le {x : ℚ} {n : ℤ} (le : (n : ℚ) ≤ x) : n ≤ roundHalfEven x :=
  (roundHalfEven_intCast n).symm.trans_le (roundHalfEven_mono le)

section Place

variable {e : ℤ} {x y : ℚ}

/-- Rounding to a multiple of `2 ^ e` keeps the order. -/
theorem roundAt_mono (le : x ≤ y)
    : (roundHalfEven (x / 2 ^ e) : ℚ) * 2 ^ e ≤ (roundHalfEven (y / 2 ^ e) : ℚ) * 2 ^ e := by
  have scaled : x / 2 ^ e ≤ y / 2 ^ e := div_le_div_of_nonneg_right le (by positivity)
  have rounded := roundHalfEven_mono scaled
  gcongr

/-- A power of two at or above the place is a multiple of it. -/
theorem zpow_div_zpow_eq {k : ℤ} (place : e ≤ k)
    : (2 : ℚ) ^ k / 2 ^ e = ((2 ^ (k - e).toNat : ℤ) : ℚ) := by
  rw [← zpow_sub₀ two_ne_zero, Int.cast_pow, Int.cast_ofNat, ← zpow_natCast,
    Int.toNat_of_nonneg (by omega)]

theorem roundAt_le_zpow {k : ℤ} (place : e ≤ k) (le : x ≤ 2 ^ k)
    : (roundHalfEven (x / 2 ^ e) : ℚ) * 2 ^ e ≤ 2 ^ k := by
  have scaled : x / 2 ^ e ≤ ((2 ^ (k - e).toNat : ℤ) : ℚ) := by
    rw [← zpow_div_zpow_eq place]
    exact div_le_div_of_nonneg_right le (by positivity)
  have rounded : (roundHalfEven (x / 2 ^ e) : ℚ) ≤ 2 ^ k / 2 ^ e := by
    rw [zpow_div_zpow_eq place]
    exact_mod_cast roundHalfEven_le_of_le scaled
  rwa [le_div_iff₀ (by positivity)] at rounded

theorem zpow_le_roundAt {k : ℤ} (place : e ≤ k) (le : 2 ^ k ≤ x)
    : 2 ^ k ≤ (roundHalfEven (x / 2 ^ e) : ℚ) * 2 ^ e := by
  have scaled : ((2 ^ (k - e).toNat : ℤ) : ℚ) ≤ x / 2 ^ e := by
    rw [← zpow_div_zpow_eq place]
    exact div_le_div_of_nonneg_right le (by positivity)
  have rounded : 2 ^ k / 2 ^ e ≤ (roundHalfEven (x / 2 ^ e) : ℚ) := by
    rw [zpow_div_zpow_eq place]
    exact_mod_cast le_roundHalfEven_of_le scaled
  rwa [div_le_iff₀ (by positivity)] at rounded

end Place

theorem roundBinary64_zero : roundBinary64 0 = 0 := by
  have zero : roundHalfEven 0 = 0 := by simpa using roundHalfEven_intCast 0
  simp [roundBinary64, zero]

theorem roundBinary64_nonneg {x : ℚ} (nonneg : 0 ≤ x) : 0 ≤ roundBinary64 x := by
  unfold roundBinary64
  dsimp only
  have rounded : (0 : ℤ) ≤ roundHalfEven (x / 2 ^ lastPlace x) :=
    le_roundHalfEven_of_le (by simpa using div_nonneg nonneg (by positivity))
  have : (0 : ℚ) ≤ roundHalfEven (x / 2 ^ lastPlace x) := by exact_mod_cast rounded
  positivity

theorem lastPlace_eq {x : ℚ} (pos : 0 < x) : lastPlace x = max (Int.log 2 x - 52) (-1074) := by
  rw [lastPlace, floorLog2_eq_log pos]

/-- Rounding to a double keeps the order of non-negative rationals. Within one binade both
round on the same grid; across binades the smaller rounds to at most the power of two that
starts the larger's binade, and the larger to at least it. -/
theorem roundBinary64_mono {x y : ℚ} (nonneg : 0 ≤ x) (le : x ≤ y)
    : roundBinary64 x ≤ roundBinary64 y := by
  rcases nonneg.eq_or_lt with zero | pos
  · rw [← zero, roundBinary64_zero]
    exact roundBinary64_nonneg (zero ▸ le)
  have ypos : 0 < y := pos.trans_le le
  have logs : Int.log 2 x ≤ Int.log 2 y := Int.log_mono_right pos le
  have places : lastPlace x ≤ lastPlace y := by
    rw [lastPlace_eq pos, lastPlace_eq ypos]
    omega
  unfold roundBinary64
  dsimp only
  rcases places.lt_or_eq with lt | same
  · rw [lastPlace_eq pos, lastPlace_eq ypos] at lt
    set k := Int.log 2 y
    have rise : Int.log 2 x + 1 ≤ k := by omega
    have below : x ≤ 2 ^ k := by
      have bound : x < (2 : ℚ) ^ (Int.log 2 x + 1) := by
        exact_mod_cast Int.lt_zpow_succ_log_self (by norm_num : 1 < 2) x
      exact bound.le.trans (zpow_le_zpow_right₀ (by norm_num) rise)
    have above : 2 ^ k ≤ y := by exact_mod_cast Int.zpow_log_le_self (by norm_num : 1 < 2) ypos
    calc _ ≤ (2 : ℚ) ^ k := roundAt_le_zpow (by rw [lastPlace_eq pos]; omega) below
      _ ≤ _ := zpow_le_roundAt (by rw [lastPlace_eq ypos]; omega) above
  · rw [same]
    exact roundAt_mono le

-----------------------------------------------------------------------------------------
-- Capacities
-----------------------------------------------------------------------------------------

theorem saturate_mono {a b : ℤ} (le : a ≤ b) : saturate a ≤ saturate b :=
  min_le_min_right wordMax (Int.toNat_le_toNat le)

/-- The rounded-up quotient grows with the count, whatever the load factor's bits: the count's
double, the quotient, its rounding, the ceiling and the saturation all keep the order, and the
cases that give a constant (NaN, infinite, zero or negative divisors) give it for every count. -/
theorem ceilQuotient_mono (lf : Float) {a b : Nat} (le : a ≤ b) (small : b < wordLimit)
    : ceilQuotient a lf ≤ ceilQuotient b lf := by
  have word : ∀ n, n ≤ b → n.toUInt64.toNat = n := fun n below =>
    UInt64.toNat_ofNat_of_lt' (by rw [UInt64.size]; unfold wordLimit at small; omega)
  have counts : roundBinary64 a ≤ roundBinary64 b :=
    roundBinary64_mono (by positivity) (by exact_mod_cast le)
  have nonneg : 0 ≤ roundBinary64 a := roundBinary64_nonneg (by positivity)
  unfold ceilQuotient
  simp only [word a le, word b le_rfl]
  cases Text.FloatParts.ofFloat lf with
  | finite negative m q _ =>
      dsimp only
      by_cases constant : roundBinary64 a = 0 ∨ negative = true
      · rw [if_pos constant]
        exact Nat.zero_le _
      · simp only [not_or, Bool.not_eq_true] at constant
        obtain ⟨nonzero, positive⟩ := constant
        have nonzero_b : roundBinary64 b ≠ 0 := by
          intro zero
          exact nonzero (le_antisymm (zero ▸ counts) nonneg)
        rw [if_neg (show ¬(roundBinary64 a = 0 ∨ negative = true) by simp [nonzero, positive]),
          if_neg (show ¬(roundBinary64 b = 0 ∨ negative = true) by simp [nonzero_b, positive])]
        split_ifs with zero_divisor
        · exact le_rfl
        · have divisor : (0 : ℚ) < m * 2 ^ q := by
            have : (0 : ℚ) < m := by exact_mod_cast Nat.pos_of_ne_zero zero_divisor
            positivity
          have quotients := roundBinary64_mono (div_nonneg nonneg divisor.le)
            (div_le_div_of_nonneg_right counts divisor.le)
          apply saturate_mono
          rw [floor_eq_intFloor, floor_eq_intFloor, neg_le_neg_iff]
          exact Int.floor_mono (neg_le_neg quotients)
  | infinite => exact le_rfl
  | nan => exact le_rfl

/-- Odd trial division that answers false found a divisor from `d` on whose square is at most
`n`. -/
theorem oddTrial_false {n d : Nat} (h : oddTrial n d = .ok false)
    : ∃ k, d ≤ k ∧ k * k ≤ n ∧ k ∣ n := by
  fun_induction oddTrial n d with
  | case1 d big => simp at h
  | case2 d fits small divides => exact ⟨d, le_rfl, small, Nat.dvd_of_mod_eq_zero divides⟩
  | case3 d fits small notDivides ih =>
      obtain ⟨k, above, square, divides⟩ := ih h
      exact ⟨k, by omega, square, divides⟩
  | case4 d fits large => simp at h

theorem isPrime_false {n : Nat} (h : isPrime n = .ok false) : ¬ n.Prime := by
  intro prime
  unfold isPrime at h
  split at h
  · have := prime.two_le
    omega
  · split at h
    · rename_i even
      simp only [Except.ok.injEq, decide_eq_false_iff_not] at h
      rcases prime.eq_two_or_odd with two | odd
      · exact h two
      · omega
    · obtain ⟨k, above, square, divides⟩ := oddTrial_false h
      have below : k < n := by nlinarith
      rcases prime.eq_one_or_self_of_dvd k divides with one | self <;> omega

/-- The odd search from an odd `n ≥ 3` finds the least prime at least `n`: every candidate it
passes over is composite, and the even numbers between are too. -/
theorem nextOddPrime_least {n c : Nat} (h : nextOddPrime n = .ok c) (big : 3 ≤ n)
    (odd : n % 2 = 1) {p : Nat} (prime : p.Prime) (above : n ≤ p) : c ≤ p := by
  fun_induction nextOddPrime n with
  | case1 n e failed => simp at h
  | case2 n found =>
      simp only [Except.ok.injEq] at h
      omega
  | case3 n composite far => simp at h
  | case4 n composite near ih =>
      have other : p ≠ n := fun same => isPrime_false composite (same ▸ prime)
      have odd_p : p % 2 = 1 := by
        rcases prime.eq_two_or_odd with two | odd_p
        · omega
        · exact odd_p
      exact ih h (by omega) (by omega) (by omega)

/-- The capacity search finds the least prime at least `n`. -/
theorem nextPrime_least {n c : Nat} (h : nextPrime n = .ok c) {p : Nat} (prime : p.Prime)
    (above : n ≤ p) : c ≤ p := by
  unfold nextPrime at h
  split at h
  · simp only [Except.ok.injEq] at h
    have := prime.two_le
    omega
  · split at h
    · rename_i small even
      have other : p ≠ n := by
        rintro rfl
        rcases prime.eq_two_or_odd with two | odd <;> omega
      exact nextOddPrime_least h (by omega) (by omega) prime (by omega)
    · exact nextOddPrime_least h (by omega) (by omega) prime above

theorem nextPrime_mono {a b c c' : Nat} (found : nextPrime a = .ok c)
    (found' : nextPrime b = .ok c') (le : a ≤ b) : c ≤ c' :=
  have ⟨prime, above⟩ := nextPrime_spec found'
  nextPrime_least found prime (le.trans above)

/-- The capacity for more entries is at least the capacity for fewer, at any load factor, as
long as both are computed and the counts are words. -/
theorem capacityFor_mono (lf : Float) {a b c c' : Nat} (sized : capacityFor a lf = .ok c)
    (sized' : capacityFor b lf = .ok c') (le : a ≤ b) (small : b < wordLimit) : c ≤ c' := by
  have quotients := ceilQuotient_mono lf le small
  unfold capacityFor at sized sized'
  dsimp only at sized sized'
  split at sized
  · simp at sized
  · split at sized'
    · simp at sized'
    · exact nextPrime_mono sized sized' (max_le_max le_rfl (by omega))

end MetricRegistry.Table
