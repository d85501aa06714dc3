import MetricRegistry.Table.Rounding

/-! Prime table sizes: the least prime at least `max 7 (⌈entries / lf⌉ + 1)`, in 64-bit words,
with an overflow wherever a word would leave its range. -/

namespace MetricRegistry.Table

/-- A quantity that left the range of a 64-bit word. -/
inductive Overflow where
  /-- An addition overflowed. -/
  | add
  /-- A multiplication overflowed. -/
  | mul
  /-- A vector was asked for more bytes than the largest signed word. -/
  | capacity
  deriving DecidableEq, Repr

/-- The text of the panic an overflow raises. -/
def Overflow.message : Overflow → String
  | .add => "attempt to add with overflow"
  | .mul => "attempt to multiply with overflow"
  | .capacity => "capacity overflow"

/-- One more than the largest word. -/
def wordLimit : Nat := 2 ^ 64

/-- One more than the largest signed word, the most bytes a vector may hold. -/
def signedLimit : Nat := 2 ^ 63

/-- The smallest capacity a table takes. -/
def minCapacity : Nat := 7

/-- Trial division of odd `n` by the odd divisors from `d` on, while `d * d ≤ n`. -/
def oddTrial (n d : Nat) : Except Overflow Bool :=
  if d * d ≥ wordLimit then .error .mul
  else if d * d ≤ n then
    if n % d = 0 then .ok false else oddTrial n (d + 2)
  else .ok true
termination_by wordLimit - d
decreasing_by
  have : d * d < wordLimit := by omega
  have : d < wordLimit := by
    rcases Nat.lt_or_ge d 1 with h | h
    · omega
    · exact Nat.lt_of_le_of_lt (Nat.le_mul_of_pos_right d h) this
  omega

/-- Whether `n` is prime, by odd trial division. -/
def isPrime (n : Nat) : Except Overflow Bool :=
  if n < 2 then .ok false
  else if n % 2 = 0 then .ok (n = 2)
  else oddTrial n 3

/-- The first prime among the odd candidates `n, n + 2, …`. -/
def nextOddPrime (n : Nat) : Except Overflow Nat :=
  match isPrime n with
  | .error e => .error e
  | .ok true => .ok n
  | .ok false =>
    if n + 2 ≥ wordLimit then .error .add else nextOddPrime (n + 2)
termination_by wordLimit - n

/-- The least prime at least `n` (two for `n ≤ 2`), searching odd candidates. -/
def nextPrime (n : Nat) : Except Overflow Nat :=
  if n ≤ 2 then .ok 2
  else if n % 2 = 0 then nextOddPrime (n + 1)
  else nextOddPrime n

/-- The smallest prime capacity for `entries` keys at load factor `lf`. -/
def capacityFor (entries : Nat) (lf : Float) : Except Overflow Nat :=
  let needed := ceilQuotient entries lf
  if needed + 1 ≥ wordLimit then .error .add
  else nextPrime (max minCapacity (needed + 1))

/-- Slots that may be full or removed before a table grows: `⌊capacity · lf⌋`, kept within
`1` and `capacity - 1` so that a free slot always remains. -/
def maxFill (capacity : Nat) (lf : Float) : Nat :=
  let raw := floorProduct capacity lf
  min (max raw 1) (capacity - 1)

end MetricRegistry.Table
