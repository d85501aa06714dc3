import MetricRegistry.Bytes.Word

/-! The multiplicative word hash that places keys in tables: add a word, multiply by an odd
constant, rotate at the end; a byte string is first folded by a two-lane mix of its words. -/

namespace MetricRegistry.Hash

/-- The odd multiplier of the state update. -/
def multiplier : UInt64 := 0xf1357aea2e62a9c5

/-- First lane seed of the byte fold. -/
def seedLow : UInt64 := 0x243f6a8885a308d3

/-- Second lane seed of the byte fold. -/
def seedHigh : UInt64 := 0x13198a2e03707344

/-- Constant mixed into every second word of a block, so that zero blocks do not collapse. -/
def blockSalt : UInt64 := 0xa4093822299f31d0

/-- The state after adding one word. -/
def addWord (state word : UInt64) : UInt64 := (state + word) * multiplier

/-- The hash of a state: rotated left by 26 bits. -/
def finish (state : UInt64) : UInt64 := (state <<< 26) ||| (state >>> 38)

/-- The exclusive or of the low and high halves of the full 128-bit product. -/
def mix (a b : UInt64) : UInt64 :=
  let p := a.toNat * b.toNat
  (p % 2 ^ 64).toUInt64 ^^^ (p / 2 ^ 64).toUInt64

/-- The little-endian word of `width` bytes at `pos`. -/
def wordAt (bytes : ByteArray) (pos width : Nat) : UInt64 :=
  (Bytes.readLE bytes pos width).toUInt64

/-- Folds the 16-byte blocks starting at `pos` and before `stop` into the two lanes. -/
def foldBlocks (bytes : ByteArray) (stop : Nat) (pos : Nat) (low high : UInt64) :
    UInt64 × UInt64 :=
  if pos < stop then
    let t := mix (low ^^^ wordAt bytes pos 8) (blockSalt ^^^ wordAt bytes (pos + 8) 8)
    foldBlocks bytes stop (pos + 16) high t
  else (low, high)
termination_by stop - pos

/-- One word for a byte string: short strings are xor-ed into the two seeds, longer ones are
folded block by block and end with their last 16 bytes. -/
def foldBytes (bytes : ByteArray) : UInt64 :=
  let len := bytes.size
  let (low, high) :=
    if len ≤ 16 then
      if len ≥ 8 then (seedLow ^^^ wordAt bytes 0 8, seedHigh ^^^ wordAt bytes (len - 8) 8)
      else if len ≥ 4 then (seedLow ^^^ wordAt bytes 0 4, seedHigh ^^^ wordAt bytes (len - 4) 4)
      else if len > 0 then
        let first := (bytes[0]?.getD 0).toUInt64
        let middle := (bytes[len / 2]?.getD 0).toUInt64
        let last := (bytes[len - 1]?.getD 0).toUInt64
        (seedLow ^^^ first, seedHigh ^^^ ((last <<< 8) ||| middle))
      else (seedLow, seedHigh)
    else
      let (low, high) := foldBlocks bytes (len - 16) 0 seedLow seedHigh
      (low ^^^ wordAt bytes (len - 16) 8, high ^^^ wordAt bytes (len - 8) 8)
  mix low high ^^^ len.toUInt64

/-- The hash of a byte string: its folded word, then its length. -/
def hashBytes (bytes : ByteArray) : UInt64 :=
  finish (addWord (addWord 0 (foldBytes bytes)) bytes.size.toUInt64)

/-- The hash of a signed word: its two's complement bits added once. -/
def hashInt64 (n : Int64) : UInt64 :=
  finish (addWord 0 n.toUInt64)

end MetricRegistry.Hash
