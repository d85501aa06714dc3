import MetricRegistry.Proofs.LeastPrime

/-! Load factors strictly between zero and one: such a double is at most `1 - 2⁻⁵³`, so dividing
a count by it rounds to at least the count, and every capacity computed for `n` entries exceeds
`n` (`lt_capacityFor`). -/

namespace MetricRegistry.Table

open Float.Model Float.Model.UnpackedFloat

-----------------------------------------------------------------------------------------
-- Doubles strictly between zero and one
-----------------------------------------------------------------------------------------

/-- Doubles compare as their unpacked models do. -/
theorem float_lt_iff (a b : Float) : a < b ↔ a.toModel.unpack.lt b.toModel.unpack = true := by
  show Float.lt a b = true ↔ _
  unfold Float.lt
  simp only [decide_eq_true_eq]
  rfl

section Fields

variable (b : UInt64)

theorem exponent_toNat :
    (@unpackExponent Format.binary64 b.toBitVec).toNat = b.toNat / 2 ^ 52 % 2 ^ 11 := by
  simp [unpackExponent, BitVec.extractLsb_toNat, Nat.shiftRight_eq_div_pow]

theorem mantissa_toNat : (@unpackMantissa Format.binary64 b.toBitVec).toNat = b.toNat % 2 ^ 52 := by
  simp [unpackMantissa, BitVec.extractLsb_toNat]

theorem sign_toNat : (@unpackSign Format.binary64 b.toBitVec).toNat = b.toNat / 2 ^ 63 := by
  simp [unpackSign, BitVec.extractLsb_toNat, Nat.shiftRight_eq_div_pow]
  have := b.toNat_lt
  omega

end Fields

/-- The significand of a normal double: the stored fraction behind a leading one. -/
theorem toNat_one_append {w : Nat} (v : BitVec w) : (1#1 ++ v).toNat = 2 ^ w + v.toNat := by
  rw [BitVec.toNat_append, ← Nat.shiftLeft_add_eq_or_of_lt v.isLt]
  simp [Nat.shiftLeft_eq]

theorem zero_unpack : (0.0 : Float).toModel.unpack = .zero .positive := rfl

theorem one_unpack : (1.0 : Float).toModel.unpack = .finite .positive (2 ^ 52) (-52) (by decide) :=
  rfl

/-- A double strictly between `0.0` and `1.0` has the bits of a positive number below one: a
clear sign bit and an exponent field below that of `1.0`, and not all bits clear. -/
theorem toBits_of_unit {lf : Float} (pos : 0.0 < lf) (below : lf < 1.0) :
    0 < lf.toBits.toNat ∧ lf.toBits.toNat < 1023 * 2 ^ 52 := by
  rw [float_lt_iff, zero_unpack] at pos
  rw [float_lt_iff, one_unpack] at below
  show 0 < lf.toModel.toBits.toNat ∧ lf.toModel.toBits.toNat < 1023 * 2 ^ 52
  unfold Float.Model.unpack UnpackedFloat.unpack at pos below
  generalize lf.toModel.toBits = b at pos below ⊢
  have top : (-1#11).toNat = 2047 := rfl
  have bottom : (0#11).toNat = 0 := rfl
  have empty : (0#52).toNat = 0 := rfl
  have plus : (0#1).toNat = 0 := rfl
  have bias : (Format.binary64.exponentBias : Int) = 1023 := rfl
  have wide : Format.binary64.mantissaBitsWithoutImplicit = 52 := rfl
  dsimp only at pos below
  simp only [← BitVec.toNat_inj, Sign.ofBitVec, mantissa_toNat, exponent_toNat, sign_toNat, top,
    bottom, empty, plus] at pos below
  -- infinities, NaN, zeros and negative values are not strictly between `0` and `1`
  split_ifs at pos below
  all_goals simp [UnpackedFloat.lt, UnpackedFloat.compare] at pos below
  · simp only [bias, Ordering.then_eq_lt, compare_lt_iff_lt, compare_eq_iff_eq] at below
    omega
  · rw [toNat_one_append, mantissa_toNat, wide] at below
    simp only [bias, Ordering.then_eq_lt, compare_lt_iff_lt, compare_eq_iff_eq] at below
    omega

/-- A double strictly between `0.0` and `1.0` is a positive finite `m · 2^q` with `0 < m < 2^53`
and `q ≤ -53`. -/
theorem ofFloat_of_unit {lf : Float} (pos : 0.0 < lf) (below : lf < 1.0) :
    ∃ m q nb, Text.FloatParts.ofFloat lf = .finite false m q nb ∧ 0 < m ∧ m < 2 ^ 53 ∧
      q ≤ -53 := by
  obtain ⟨nonzero, small⟩ := toBits_of_unit pos below
  unfold Text.FloatParts.ofFloat
  dsimp only
  generalize lf.toBits.toNat = b at nonzero small ⊢
  have positive : decide (b / 2 ^ 63 = 1) = false := by
    rw [decide_eq_false_iff_not]
    omega
  rw [positive]
  split_ifs with top
  · exact absurd top (by omega)
  · exact absurd top (by omega)
  · exact ⟨b % 2 ^ 52, -1074, false, rfl, by omega, by omega, by norm_num⟩
  · exact ⟨_, _, _, rfl, by omega, by omega, by omega⟩

theorem divisor_le {m : ℕ} {q : ℤ} (m_lt : m < 2 ^ 53) (q_le : q ≤ -53) :
    (m : ℚ) * 2 ^ q ≤ 1 - 2 ^ (-53 : ℤ) := by
  have m_le : (m : ℚ) + 1 ≤ 2 ^ 53 := by exact_mod_cast m_lt
  have place : (2 : ℚ) ^ q ≤ 2 ^ (-53 : ℤ) := zpow_le_zpow_right₀ (by norm_num) q_le
  calc (m : ℚ) * 2 ^ q ≤ (2 ^ 53 - 1) * 2 ^ (-53 : ℤ) := by gcongr; linarith
    _ = 1 - 2 ^ (-53 : ℤ) := by norm_num

-----------------------------------------------------------------------------------------
-- Rounding a count divided by a load factor
-----------------------------------------------------------------------------------------

theorem sub_half_le_roundHalfEven (z : ℚ) : z - 1 / 2 ≤ roundHalfEven z := by
  have below : z < ⌊z⌋ + 1 := Int.lt_floor_add_one z
  simp only [roundHalfEven, floor_eq_intFloor]
  split_ifs with down
  · rcases down with less | ⟨tie, -⟩ <;> linarith
  · push_cast
    linarith

theorem lt_roundHalfEven {z : ℚ} {j : ℤ} (above : j + 1 / 2 < z) : j < roundHalfEven z := by
  have floor_le : (⌊z⌋ : ℚ) ≤ z := Int.floor_le z
  have below : z < ⌊z⌋ + 1 := Int.lt_floor_add_one z
  have j_le : j ≤ ⌊z⌋ := Int.le_floor.mpr (by linarith)
  simp only [roundHalfEven, floor_eq_intFloor]
  rcases j_le.lt_or_eq with lt | same
  · split_ifs <;> omega
  · subst same
    split_ifs with down
    · rcases down with less | ⟨tie, -⟩ <;> linarith
    · omega

/-- A power of two in the normal or subnormal range stays below the rounding of anything above
it. -/
theorem zpow_le_roundBinary64 {k : ℤ} (normal : -1074 ≤ k) {r : ℚ} (le : 2 ^ k ≤ r) :
    2 ^ k ≤ roundBinary64 r := by
  have power_pos : (0 : ℚ) < 2 ^ k := by positivity
  have exact : (2 : ℚ) ^ k ≤ roundBinary64 (2 ^ k) := by
    have log_power : Int.log 2 ((2 : ℚ) ^ k) = k := by
      simpa using (Int.log_zpow (by norm_num : 1 < 2) k : Int.log 2 (((2 : ℕ) : ℚ) ^ k) = k)
    unfold roundBinary64
    dsimp only
    rw [lastPlace_eq power_pos, log_power]
    exact zpow_le_roundAt (by omega) le_rfl
  exact exact.trans (roundBinary64_mono power_pos.le le)

theorem log_natCast_nonneg (n : ℕ) : 0 ≤ Int.log 2 (n : ℚ) := by
  rw [Int.log_natCast]
  omega

section Quotient

variable {k : ℤ} {x r : ℚ}

/-- The double of a positive count lies on the grid of the count's binade, within half a unit of
the count. -/
theorem roundBinary64_natCast {n : ℕ} (pos : 0 < n) :
    ∃ j : ℤ, roundBinary64 n = j * 2 ^ (Int.log 2 (n : ℚ) - 52) ∧
      (n : ℚ) - 2 ^ (Int.log 2 (n : ℚ) - 52) / 2 ≤ roundBinary64 n := by
  have n_pos : (0 : ℚ) < n := by exact_mod_cast pos
  have k_nonneg := log_natCast_nonneg n
  set k := Int.log 2 (n : ℚ)
  have unit_pos : (0 : ℚ) < 2 ^ (k - 52) := by positivity
  have grid : roundBinary64 n = roundHalfEven (n / 2 ^ (k - 52)) * 2 ^ (k - 52) := by
    simp only [roundBinary64, lastPlace_eq n_pos]
    rw [max_eq_left (by omega)]
  refine ⟨_, grid, ?_⟩
  have scaled := mul_le_mul_of_nonneg_right (sub_half_le_roundHalfEven (n / 2 ^ (k - 52)))
    unit_pos.le
  rw [sub_mul, div_mul_cancel₀ _ unit_pos.ne'] at scaled
  rw [grid]
  linarith

/-- Dividing a value of binade `k` or above by at most `1 - 2⁻⁵³` adds more than half a unit of
that binade. -/
theorem add_half_unit_lt_div (x_lo : 2 ^ k ≤ x) {d : ℚ} (d_pos : 0 < d)
    (d_le : d ≤ 1 - 2 ^ (-53 : ℤ)) : x + 2 ^ (k - 52) / 2 < x / d := by
  have x_pos : 0 < x := lt_of_lt_of_le (by positivity) x_lo
  have r_d : x / d * d = x := div_mul_cancel₀ x d_pos.ne'
  have x_lt : x < x / d := by
    rw [lt_div_iff₀ d_pos]
    have : d < 1 := d_le.trans_lt (by norm_num)
    nlinarith
  have tiny_pos : (0 : ℚ) < 2 ^ (-53 : ℤ) := by positivity
  have half_unit : (2 : ℚ) ^ (k - 52) / 2 = 2 ^ k * 2 ^ (-53 : ℤ) := by
    rw [← zpow_add₀ two_ne_zero, div_eq_mul_inv, ← zpow_neg_one, ← zpow_add₀ two_ne_zero]
    ring_nf
  -- `x = (x / d) · d ≤ x / d - (x / d) · 2⁻⁵³`, and `(x / d) · 2⁻⁵³ > x · 2⁻⁵³ ≥ 2^k · 2⁻⁵³`
  have shrink : x / d * d ≤ x / d * (1 - 2 ^ (-53 : ℤ)) :=
    mul_le_mul_of_nonneg_left d_le (by linarith)
  have step : x * 2 ^ (-53 : ℤ) < x / d * 2 ^ (-53 : ℤ) := mul_lt_mul_of_pos_right x_lt tiny_pos
  have base : (2 : ℚ) ^ k * 2 ^ (-53 : ℤ) ≤ x * 2 ^ (-53 : ℤ) :=
    mul_le_mul_of_nonneg_right x_lo tiny_pos.le
  rw [half_unit]
  linarith

/-- A value more than half a unit above a grid point of binade `k`, and still in that binade,
rounds to at least the next grid point. -/
theorem add_unit_le_roundBinary64 (normal : -1022 ≤ k) {j : ℤ} (x_eq : x = j * 2 ^ (k - 52))
    (x_lo : 2 ^ k ≤ x) (above : x + 2 ^ (k - 52) / 2 < r) (binade : r < 2 ^ (k + 1)) :
    x + 2 ^ (k - 52) ≤ roundBinary64 r := by
  have unit_pos : (0 : ℚ) < 2 ^ (k - 52) := by positivity
  have r_pos : 0 < r := by
    have : (0 : ℚ) < 2 ^ k := by positivity
    linarith
  have r_log : Int.log 2 r = k := by
    have lower : (2 : ℚ) ^ (k - 1) < r := by
      have : (2 : ℚ) ^ (k - 1) < 2 ^ k := zpow_lt_zpow_right₀ (by norm_num) (by omega)
      linarith
    exact (log_of_bracket r_pos lower binade).1 (by linarith)
  have up : j < roundHalfEven (r / 2 ^ (k - 52)) := by
    apply lt_roundHalfEven
    rw [lt_div_iff₀ unit_pos, add_mul, ← x_eq]
    linarith
  have up' : (j : ℚ) + 1 ≤ roundHalfEven (r / 2 ^ (k - 52)) := by exact_mod_cast up
  have rounded : roundBinary64 r = roundHalfEven (r / 2 ^ (k - 52)) * 2 ^ (k - 52) := by
    simp only [roundBinary64, lastPlace_eq r_pos, r_log]
    rw [max_eq_left (by omega)]
  calc x + 2 ^ (k - 52) = (j + 1) * 2 ^ (k - 52) := by rw [add_mul, ← x_eq, one_mul]
    _ ≤ roundHalfEven (r / 2 ^ (k - 52)) * 2 ^ (k - 52) := by gcongr
    _ = roundBinary64 r := rounded.symm

end Quotient

/-- The double of a positive count, divided by a positive divisor of at most `1 - 2⁻⁵³` and
rounded, is at least the count: the quotient rounds to the grid point past the count's double,
or past the count's binade. -/
theorem le_roundBinary64_div {n : ℕ} (pos : 0 < n) {d : ℚ} (d_pos : 0 < d)
    (d_le : d ≤ 1 - 2 ^ (-53 : ℤ)) : (n : ℚ) ≤ roundBinary64 (roundBinary64 n / d) := by
  have n_pos : (0 : ℚ) < n := by exact_mod_cast pos
  have k_nonneg := log_natCast_nonneg n
  obtain ⟨j, x_eq, x_near⟩ := roundBinary64_natCast pos
  set k := Int.log 2 (n : ℚ)
  have n_hi : (n : ℚ) < 2 ^ (k + 1) := Int.lt_zpow_succ_log_self (by norm_num) _
  have x_lo : (2 : ℚ) ^ k ≤ roundBinary64 n :=
    zpow_le_roundBinary64 (by omega) (Int.zpow_log_le_self (by norm_num) n_pos)
  have above := add_half_unit_lt_div x_lo d_pos d_le
  by_cases binade : roundBinary64 n / d < 2 ^ (k + 1)
  · calc (n : ℚ) ≤ roundBinary64 n + 2 ^ (k - 52) := by
          have : (0 : ℚ) < 2 ^ (k - 52) := by positivity
          linarith
      _ ≤ roundBinary64 (roundBinary64 n / d) :=
          add_unit_le_roundBinary64 (by omega) x_eq x_lo above binade
  · calc (n : ℚ) ≤ 2 ^ (k + 1) := n_hi.le
      _ ≤ roundBinary64 (roundBinary64 n / d) :=
          zpow_le_roundBinary64 (by omega) (not_lt.mp binade)

/-- A count in the word range is at most the saturated ceiling of any value at least the count. -/
theorem le_saturate_ceil {n : ℕ} (small : n < wordLimit) {y : ℚ} (le : (n : ℚ) ≤ y) :
    n ≤ saturate (-(-y).floor) := by
  have floor := Int.floor_mono (show -y ≤ ((-(n : ℤ) : ℤ) : ℚ) by push_cast; linarith)
  rw [Int.floor_intCast] at floor
  rw [floor_eq_intFloor]
  unfold saturate wordMax
  unfold wordLimit at small
  omega

/-- At a load factor strictly between zero and one, the rounded-up quotient of a word count is at
least the count. -/
theorem le_ceilQuotient {lf : Float} (pos : 0.0 < lf) (below : lf < 1.0) {n : ℕ}
    (small : n < wordLimit) : n ≤ ceilQuotient n lf := by
  obtain ⟨m, q, nb, parts, m_pos, m_lt, q_le⟩ := ofFloat_of_unit pos below
  rcases Nat.eq_zero_or_pos n with rfl | n_pos
  · exact Nat.zero_le _
  have word : n.toUInt64.toNat = n :=
    UInt64.toNat_ofNat_of_lt' (by rw [UInt64.size]; unfold wordLimit at small; omega)
  have d_pos : (0 : ℚ) < m * 2 ^ q := by
    have : (0 : ℚ) < m := by exact_mod_cast m_pos
    positivity
  have quotient := le_roundBinary64_div n_pos d_pos (divisor_le m_lt q_le)
  have one_le : (2 : ℚ) ^ (0 : ℤ) ≤ n := by
    rw [zpow_zero]
    exact_mod_cast n_pos
  have x_pos : 0 < roundBinary64 n :=
    lt_of_lt_of_le (by positivity) (zpow_le_roundBinary64 (by norm_num) one_le)
  unfold ceilQuotient
  simp only [word, parts]
  rw [if_neg (by simp [x_pos.ne']), if_neg (by omega)]
  exact le_saturate_ceil small quotient

/-- At a load factor strictly between zero and one, the capacity computed for `n` entries exceeds
`n`. -/
theorem lt_capacityFor {lf : Float} (pos : 0.0 < lf) (below : lf < 1.0) {n c : ℕ}
    (small : n < wordLimit) (h : capacityFor n lf = .ok c) : n < c := by
  have quotient := le_ceilQuotient pos below small
  unfold capacityFor at h
  dsimp only at h
  split at h
  · simp at h
  · obtain ⟨-, above⟩ := nextPrime_spec h
    omega

end MetricRegistry.Table
