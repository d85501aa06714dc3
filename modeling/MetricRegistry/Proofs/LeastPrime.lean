import MetricRegistry.Proofs.Sizing

/-! Table capacities are the least admissible primes: the prime search answers the least prime at
least its start below `(2^32 - 1)^2` and overflows exactly past it
(`capacityFor_least_prime`). -/

namespace MetricRegistry.Table

/-- The largest square of an odd divisor that a word holds, `(2^32 - 1)^2`: trial division
confirms the primes below it and overflows on those above it. -/
def trialBound : Nat := (2 ^ 32 - 1) ^ 2

/-- The primes at least `m`. -/
def primesFrom (m : Nat) : Set Nat := {q | q.Prime ∧ m ≤ q}

-----------------------------------------------------------------------------------------
-- The bound
-----------------------------------------------------------------------------------------

theorem trialBound_lt_wordLimit : trialBound < wordLimit := by decide

/-- A divisor whose square is a word is below `2^32`, so its square is at most the bound. -/
theorem square_le_trialBound {k : Nat} (fits : k * k < wordLimit) : k * k ≤ trialBound := by
  have below : k < 2 ^ 32 := by
    by_contra big
    have : 2 ^ 32 * 2 ^ 32 ≤ k * k := Nat.mul_le_mul (by omega) (by omega)
    unfold wordLimit at fits
    omega
  unfold trialBound
  rw [Nat.pow_two]
  exact Nat.mul_le_mul (by omega) (by omega)

theorem trialBound_not_prime : ¬ trialBound.Prime := by
  intro prime
  have divides : 2 ^ 32 - 1 ∣ trialBound := ⟨2 ^ 32 - 1, by unfold trialBound; ring⟩
  rcases prime.eq_one_or_self_of_dvd _ divides with one | self
  · omega
  · exact absurd self (by decide)

-----------------------------------------------------------------------------------------
-- Trial division
-----------------------------------------------------------------------------------------

/-- Odd trial division overflows exactly when every divisor of `d`'s parity from `d` on whose
square is a word passes: its square is at most `n` and it does not divide `n`. -/
theorem oddTrial_eq_error_iff {n d : Nat} {e : Overflow}
    : oddTrial n d = .error e ↔ e = .mul ∧ ∀ k, d ≤ k → k % 2 = d % 2 → k * k < wordLimit →
        k * k ≤ n ∧ ¬ k ∣ n := by
  fun_induction oddTrial n d with
  | case1 d big =>
      -- the first square already leaves the word, and so does every later one
      refine ⟨fun h => ⟨by cases h; rfl, fun k above _ fits => ?_⟩, fun h => h.1 ▸ rfl⟩
      have : d * d ≤ k * k := Nat.mul_le_mul above above
      omega
  | case2 d fits small divides =>
      refine ⟨fun h => (by cases h), fun h => ?_⟩
      exact absurd (Nat.dvd_of_mod_eq_zero divides) (h.2 d le_rfl rfl (by omega)).2
  | case3 d fits small notDivides ih =>
      rw [ih]
      constructor
      · rintro ⟨rfl, passes⟩
        refine ⟨rfl, fun k above parity square => ?_⟩
        by_cases same : k = d
        · subst same
          exact ⟨small, fun divides => notDivides (Nat.mod_eq_zero_of_dvd divides)⟩
        · exact passes k (by omega) (by omega) square
      · rintro ⟨rfl, passes⟩
        exact ⟨rfl, fun k above parity square => passes k (by omega) (by omega) square⟩
  | case4 d fits large =>
      refine ⟨fun h => (by cases h), fun h => ?_⟩
      exact absurd (h.2 d le_rfl rfl (by omega)).1 large

/-- Odd trial division answers true only below the word limit: it stops at a divisor whose
square exceeds `n` and is a word. -/
theorem oddTrial_true_lt {n d : Nat} (h : oddTrial n d = .ok true) : n < wordLimit := by
  fun_induction oddTrial n d with
  | case1 d big => cases h
  | case2 d fits small divides => cases h
  | case3 d fits small notDivides ih => exact ih h
  | case4 d fits large => omega

/-- An odd number from three on that is no prime has an odd divisor from three on whose square
is at most it. -/
theorem exists_odd_divisor {n : Nat} (big : 3 ≤ n) (odd : n % 2 = 1) (composite : ¬ n.Prime)
    : ∃ k, 3 ≤ k ∧ k % 2 = 1 ∧ k * k ≤ n ∧ k ∣ n := by
  have square := Nat.minFac_sq_le_self (by omega) composite
  have prime := Nat.minFac_prime (show n ≠ 1 by omega)
  have divides := Nat.minFac_dvd n
  have odd_factor : n.minFac % 2 = 1 := by
    rcases prime.eq_two_or_odd with two | odd_factor
    · rw [two] at divides
      omega
    · exact odd_factor
  have := prime.two_le
  exact ⟨n.minFac, by omega, odd_factor, by rw [← Nat.pow_two]; exact square, divides⟩

/-- On words, the primality test overflows exactly on the primes above `(2^32 - 1)^2`. -/
theorem isPrime_eq_error_iff {n : Nat} (small : n < wordLimit) {e : Overflow}
    : isPrime n = .error e ↔ e = .mul ∧ n.Prime ∧ trialBound < n := by
  unfold isPrime
  split
  · rename_i tiny
    refine ⟨fun h => (by cases h), fun h => ?_⟩
    have := h.2.1.two_le
    omega
  · split
    · -- an even number is prime only as two, far below the bound
      rename_i big even
      refine ⟨fun h => (by cases h), fun h => ?_⟩
      obtain ⟨-, prime, above⟩ := h
      rcases prime.eq_two_or_odd with two | odd
      · exact absurd (two ▸ above) (by decide)
      · omega
    · rename_i big odd
      rw [oddTrial_eq_error_iff]
      constructor
      · rintro ⟨rfl, passes⟩
        have last := passes (2 ^ 32 - 1) (by omega) (by omega) (by decide)
        have prime : n.Prime := by
          by_contra composite
          obtain ⟨k, three, odd_k, square, divides⟩ :=
            exists_odd_divisor (by omega) (by omega) composite
          exact (passes k three (by omega) (by omega)).2 divides
        refine ⟨rfl, prime, lt_of_le_of_ne (by unfold trialBound; rw [Nat.pow_two]; exact last.1) ?_⟩
        rintro rfl
        exact last.2 ⟨2 ^ 32 - 1, by unfold trialBound; ring⟩
      · rintro ⟨rfl, prime, above⟩
        refine ⟨rfl, fun k three _ fits => ⟨(square_le_trialBound fits).trans above.le, ?_⟩⟩
        intro divides
        rcases prime.eq_one_or_self_of_dvd k divides with one | self
        · omega
        · have := square_le_trialBound fits
          have := Nat.le_mul_self k
          omega

/-- The primality test confirms only primes below the bound. -/
theorem isPrime_true_lt {n : Nat} (h : isPrime n = .ok true) : n < trialBound := by
  have prime := isPrime_true h
  have small : n < wordLimit := by
    unfold isPrime at h
    split at h
    · cases h
    · split at h
      · have two : n = 2 := by simpa using h
        rw [two]
        decide
      · exact oddTrial_true_lt h
  have within : ¬ trialBound < n := fun above => by
    rw [(isPrime_eq_error_iff small).mpr ⟨rfl, prime, above⟩] at h
    cases h
  exact lt_of_le_of_ne (not_lt.mp within) fun same => trialBound_not_prime (same ▸ prime)

-----------------------------------------------------------------------------------------
-- The least prime from a start
-----------------------------------------------------------------------------------------

section Least

variable {m p : Nat}

/-- An even number above two is no prime. -/
theorem even_not_prime (even : m % 2 = 0) (big : 2 < m) : ¬ m.Prime :=
  Nat.not_prime_of_dvd_of_lt (Nat.dvd_of_mod_eq_zero even) le_rfl big

theorem isLeast_primesFrom_self (prime : m.Prime) : IsLeast (primesFrom m) m :=
  ⟨⟨prime, le_rfl⟩, fun _ ⟨_, above⟩ => above⟩

/-- A start that is no prime may be passed over. -/
theorem primesFrom_succ (composite : ¬ m.Prime) : primesFrom (m + 1) = primesFrom m := by
  ext q
  constructor
  · rintro ⟨prime, above⟩
    exact ⟨prime, by omega⟩
  · rintro ⟨prime, above⟩
    have other : q ≠ m := fun same => composite (same ▸ prime)
    exact ⟨prime, by omega⟩

theorem exists_isLeast_primesFrom (m : Nat) : ∃ p, IsLeast (primesFrom m) p := by
  have nonempty : (primesFrom m).Nonempty := by
    obtain ⟨p, above, prime⟩ := Nat.exists_infinite_primes m
    exact ⟨p, prime, above⟩
  exact ⟨sInf (primesFrom m), Nat.sInf_mem nonempty, fun _ mem => Nat.sInf_le mem⟩

end Least

/-- The odd search from an odd start from three on answers the least prime at least its start
exactly when that prime lies below the bound: it passes over the composite candidates and the
even numbers between them, confirms a prime below the bound, and overflows on one above it or
past the word. -/
theorem nextOddPrime_eq_ok_iff {n p : Nat} (big : 3 ≤ n) (odd : n % 2 = 1)
    : nextOddPrime n = .ok p ↔ IsLeast (primesFrom n) p ∧ p < trialBound := by
  fun_induction nextOddPrime n with
  | case1 n e failed =>
      refine ⟨fun h => (by cases h), fun h => ?_⟩
      obtain ⟨least, below⟩ := h
      -- the test overflows only on a prime above the bound, or on a start past the word
      have above : trialBound < n := by
        by_cases small : n < wordLimit
        · exact ((isPrime_eq_error_iff small).mp failed).2.2
        · have := trialBound_lt_wordLimit
          omega
      have := least.1.2
      omega
  | case2 n found =>
      have least := isLeast_primesFrom_self (isPrime_true found)
      constructor
      · rintro ⟨⟩
        exact ⟨least, isPrime_true_lt found⟩
      · rintro ⟨least', -⟩
        rw [least'.unique least]
  | case3 n composite far =>
      refine ⟨fun h => (by cases h), fun h => ?_⟩
      obtain ⟨least, below⟩ := h
      have skip : primesFrom (n + 2) = primesFrom n := by
        rw [primesFrom_succ (even_not_prime (by omega) (by omega)),
          primesFrom_succ (isPrime_false composite)]
      rw [← skip] at least
      have := least.1.2
      have := trialBound_lt_wordLimit
      omega
  | case4 n composite near ih =>
      have skip : primesFrom (n + 2) = primesFrom n := by
        rw [primesFrom_succ (even_not_prime (by omega) (by omega)),
          primesFrom_succ (isPrime_false composite)]
      rw [← skip]
      exact ih (by omega) (by omega)

/-- The search for the next prime answers the least prime at least its start exactly when that
prime lies below `(2^32 - 1)^2`. -/
theorem nextPrime_eq_ok_iff {m p : Nat}
    : nextPrime m = .ok p ↔ IsLeast (primesFrom m) p ∧ p < trialBound := by
  unfold nextPrime
  split
  · rename_i small
    have least : IsLeast (primesFrom m) 2 :=
      ⟨⟨Nat.prime_two, small⟩, fun _ ⟨prime, _⟩ => prime.two_le⟩
    constructor
    · rintro ⟨⟩
      exact ⟨least, by decide⟩
    · rintro ⟨least', -⟩
      rw [least'.unique least]
  · split
    · rename_i big even
      rw [nextOddPrime_eq_ok_iff (by omega) (by omega), primesFrom_succ (even_not_prime even (by omega))]
    · exact nextOddPrime_eq_ok_iff (by omega) (by omega)

/-- The search for the next prime overflows exactly when no prime at least its start lies below
`(2^32 - 1)^2`. -/
theorem nextPrime_fails_iff {m : Nat}
    : (∃ e, nextPrime m = .error e) ↔ ∀ q ∈ primesFrom m, trialBound < q := by
  constructor
  · rintro ⟨e, failed⟩ q mem
    by_contra within
    obtain ⟨p, least⟩ := exists_isLeast_primesFrom m
    have below : p < trialBound := by
      have := least.2 mem
      have other : p ≠ trialBound := fun same => trialBound_not_prime (same ▸ least.1.1)
      omega
    rw [nextPrime_eq_ok_iff.mpr ⟨least, below⟩] at failed
    cases failed
  · intro beyond
    cases found : nextPrime m with
    | error e => exact ⟨e, rfl⟩
    | ok p =>
        obtain ⟨least, below⟩ := nextPrime_eq_ok_iff.mp found
        exact absurd (beyond p least.1) (by omega)

-----------------------------------------------------------------------------------------
-- Capacities
-----------------------------------------------------------------------------------------

theorem capacityFor_eq_ok_iff {entries : Nat} {lf : Float} {p : Nat}
    : capacityFor entries lf = .ok p ↔ ceilQuotient entries lf < wordMax ∧
        IsLeast (primesFrom (max minCapacity (ceilQuotient entries lf + 1))) p ∧
        p < trialBound := by
  unfold capacityFor
  dsimp only
  split
  · rename_i overflow
    refine ⟨fun h => (by cases h), fun h => ?_⟩
    have below := h.1
    unfold wordLimit at overflow
    unfold wordMax at below
    omega
  · rename_i fits
    have below : ceilQuotient entries lf < wordMax := by
      unfold wordLimit at fits
      unfold wordMax
      omega
    rw [nextPrime_eq_ok_iff]
    exact ⟨fun found => ⟨below, found⟩, fun found => found.2⟩

theorem capacityFor_fails_iff {entries : Nat} {lf : Float}
    : (∃ e, capacityFor entries lf = .error e) ↔ wordMax ≤ ceilQuotient entries lf ∨
        ∀ q ∈ primesFrom (max minCapacity (ceilQuotient entries lf + 1)), trialBound < q := by
  unfold capacityFor
  dsimp only
  split
  · rename_i overflow
    refine ⟨fun _ => Or.inl ?_, fun _ => ⟨_, rfl⟩⟩
    unfold wordLimit at overflow
    unfold wordMax
    omega
  · rename_i fits
    rw [nextPrime_fails_iff]
    refine ⟨Or.inr, fun failed => failed.resolve_left ?_⟩
    unfold wordLimit at fits
    unfold wordMax
    omega

/-- The capacity computation returns when twice its start stays below the bound: a prime lies
between the start and its double (Bertrand's postulate). -/
theorem capacityFor_ok_of_small {entries : Nat} {lf : Float}
    (small : 2 * max minCapacity (ceilQuotient entries lf + 1) < trialBound)
    : ∃ c, capacityFor entries lf = .ok c := by
  obtain ⟨p, least⟩ := exists_isLeast_primesFrom (max minCapacity (ceilQuotient entries lf + 1))
  obtain ⟨r, prime, above, le⟩ :=
    Nat.exists_prime_lt_and_le_two_mul (max minCapacity (ceilQuotient entries lf + 1))
      (by unfold minCapacity; omega)
  have p_le : p ≤ r := least.2 ⟨prime, above.le⟩
  have fits : ceilQuotient entries lf < wordMax := by
    have := trialBound_lt_wordLimit
    unfold wordLimit at this
    unfold wordMax
    omega
  exact ⟨p, capacityFor_eq_ok_iff.mpr ⟨fits, least, by omega⟩⟩

/-- Capacities are the least admissible primes, with an exact overflow boundary. On words the
primality test overflows exactly on the primes above `(2^32 - 1)^2`. For every start the search
for the next prime answers the least prime at least the start whenever that prime lies below
`(2^32 - 1)^2`, and overflows exactly when none does. For every count and load factor, with `c`
the quotient rounded up and saturated to a word (NaN giving zero), the capacity is the least prime
at least `max 7 (c + 1)` whenever `c` is below the largest word and that prime below the bound,
and the computation overflows otherwise. -/
theorem capacityFor_least_prime :
    (∀ (n : UInt64) (e : Overflow),
        isPrime n.toNat = .error e ↔ e = .mul ∧ n.toNat.Prime ∧ trialBound < n.toNat) ∧
    (∀ m p : Nat, nextPrime m = .ok p ↔ IsLeast (primesFrom m) p ∧ p < trialBound) ∧
    (∀ m : Nat, (∃ e, nextPrime m = .error e) ↔ ∀ q ∈ primesFrom m, trialBound < q) ∧
    (∀ (entries : Nat) (lf : Float) (p : Nat), capacityFor entries lf = .ok p ↔
        ceilQuotient entries lf < wordMax ∧
        IsLeast (primesFrom (max minCapacity (ceilQuotient entries lf + 1))) p ∧
        p < trialBound) ∧
    (∀ (entries : Nat) (lf : Float), (∃ e, capacityFor entries lf = .error e) ↔
        wordMax ≤ ceilQuotient entries lf ∨
        ∀ q ∈ primesFrom (max minCapacity (ceilQuotient entries lf + 1)), trialBound < q) :=
  ⟨fun n _ => isPrime_eq_error_iff (by simpa [wordLimit] using n.toNat_lt),
    fun _ _ => nextPrime_eq_ok_iff, fun _ => nextPrime_fails_iff,
    fun _ _ _ => capacityFor_eq_ok_iff, fun _ _ => capacityFor_fails_iff⟩

end MetricRegistry.Table
