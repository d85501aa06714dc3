import Mathlib
import MetricRegistry.Bytes.Word

/-! Byte strings read one position at a time. Every operation of the byte layer is described by
what it answers at each index (append, extract, resize, overwrite and the little-endian words), so
a field read out of a written record or header reduces to index arithmetic.
-/

namespace MetricRegistry.Bytes

-----------------------------------------------------------------------------------------
-- One byte at a time
-----------------------------------------------------------------------------------------

theorem getElem?_eq_data (b : ByteArray) (i : Nat) : b[i]? = b.data[i]? := by
  by_cases h : i < b.size
  · rw [getElem?_pos b i h, getElem?_pos b.data i h]
    rfl
  · rw [getElem?_neg b i h, getElem?_neg b.data i h]

/-- Two byte strings that answer alike at every index are equal. -/
theorem ext_getElem? {a b : ByteArray} (h : ∀ i : Nat, a[i]? = b[i]?) : a = b := by
  apply ByteArray.ext
  apply Array.ext_getElem?
  intro i
  rw [← getElem?_eq_data, ← getElem?_eq_data, h i]

@[simp] theorem size_mk (a : Array UInt8) : (ByteArray.mk a).size = a.size := rfl

@[simp] theorem getElem?_mk (a : Array UInt8) (i : Nat) : (ByteArray.mk a)[i]? = a[i]? :=
  getElem?_eq_data _ i

@[simp] theorem getElem?_toByteArray (l : List UInt8) (i : Nat) : l.toByteArray[i]? = l[i]? := by
  rw [getElem?_eq_data, List.data_toByteArray, List.getElem?_toArray]

theorem getElem?_append (a b : ByteArray) (i : Nat)
    : (a ++ b)[i]? = if i < a.size then a[i]? else b[i - a.size]? := by
  rw [getElem?_eq_data, getElem?_eq_data, getElem?_eq_data, ByteArray.data_append,
    Array.getElem?_append]
  rfl

theorem getElem?_extract (b : ByteArray) (start stop i : Nat)
    : (b.extract start stop)[i]? = if start + i < stop then b[start + i]? else none := by
  rw [getElem?_eq_data, ByteArray.data_extract, Array.getElem?_extract, getElem?_eq_data]
  by_cases hin : start + i < stop
  · by_cases hsz : start + i < b.data.size
    · rw [if_pos (by omega), if_pos hin]
    · rw [if_pos hin, getElem?_neg b.data (start + i) hsz]
      split <;> rfl
  · rw [if_neg (by omega), if_neg hin]

theorem getElem?_zeros (n i : Nat)
    : (ByteArray.mk (Array.replicate n 0))[i]? = if i < n then some 0 else none := by
  rw [getElem?_mk, Array.getElem?_replicate]

@[simp] theorem size_zeros (n : Nat) : (ByteArray.mk (Array.replicate n 0)).size = n :=
  Array.size_replicate

-----------------------------------------------------------------------------------------
-- Cutting, growing and overwriting
-----------------------------------------------------------------------------------------

theorem size_resize (b : ByteArray) (len : Nat) : (resize b len).size = len := by
  unfold resize
  split
  · rw [ByteArray.size_extract]
    omega
  · rw [ByteArray.size_append, size_zeros]
    omega

/-- A resized string keeps its bytes below the new length and reads zero past its old end. -/
theorem getElem?_resize (b : ByteArray) (len i : Nat)
    : (resize b len)[i]? = if i < len then some (b[i]?.getD 0) else none := by
  unfold resize
  split
  · rw [getElem?_extract, Nat.zero_add]
    by_cases hi : i < len
    · rw [if_pos hi, if_pos hi, getElem?_pos b i (by omega)]
      rfl
    · rw [if_neg hi, if_neg hi]
  · rw [getElem?_append, getElem?_zeros]
    by_cases hi : i < b.size
    · rw [if_pos hi, if_pos (by omega), getElem?_pos b i hi]
      rfl
    · rw [if_neg hi, getElem?_neg b i hi]
      by_cases hl : i < len
      · rw [if_pos (by omega), if_pos hl]
        rfl
      · rw [if_neg (by omega), if_neg hl]

theorem size_copySlice (src dest : ByteArray) (pos : Nat) (fits : pos + src.size ≤ dest.size)
    : (src.copySlice 0 dest pos src.size).size = dest.size := by
  simp only [ByteArray.copySlice, ByteArray.size, Array.size_append, Array.size_extract]
  simp only [ByteArray.size_data] at *
  omega

/-- Copying all of `src` into `dest` at `pos` answers `src` inside the copied range and `dest`
elsewhere, when `dest` is long enough. -/
theorem getElem?_copySlice (src dest : ByteArray) (pos i : Nat)
    (fits : pos + src.size ≤ dest.size)
    : (src.copySlice 0 dest pos src.size)[i]? =
        if pos ≤ i ∧ i < pos + src.size then src[i - pos]? else dest[i]? := by
  rw [getElem?_eq_data, getElem?_eq_data, getElem?_eq_data]
  simp only [ByteArray.copySlice, Array.getElem?_append, Array.getElem?_extract,
    Array.size_append, Array.size_extract, ByteArray.size_data, Nat.zero_add, Nat.sub_zero,
    Nat.min_self, Nat.min_eq_left (show pos ≤ dest.size by omega)]
  by_cases h1 : i < pos
  · simp [h1, Nat.lt_add_right _ h1, Nat.not_le_of_lt h1]
  · by_cases h2 : i < pos + src.size
    · simp [h1, h2, show i - pos < src.size by omega]
    · have key : pos + src.size + (i - (pos + src.size)) = i := by omega
      simp only [h2, if_false, key, and_false]
      by_cases h3 : i < dest.size
      · rw [if_pos (by omega)]
      · rw [if_neg (by omega), getElem?_neg dest.data i h3]

/-- An overwritten string answers the patch inside the written range, its old bytes elsewhere,
and zeros in the gap a write past the end opens. -/
theorem getElem?_overwrite (b : ByteArray) (pos : Nat) (patch : ByteArray) (i : Nat)
    : (overwrite b pos patch)[i]? =
        if pos ≤ i ∧ i < pos + patch.size then patch[i - pos]?
        else if i < b.size then b[i]?
        else if i < pos + patch.size then some 0 else none := by
  unfold overwrite
  generalize hg : (if b.size < pos + patch.size then
      b ++ ByteArray.mk (Array.replicate (pos + patch.size - b.size) 0) else b) = grown
  have fits : pos + patch.size ≤ grown.size := by
    subst hg
    split
    · rw [ByteArray.size_append, size_zeros]
      omega
    · omega
  have padded : ∀ j : Nat, grown[j]? =
      if j < b.size then b[j]? else if j < pos + patch.size then some 0 else none := by
    intro j
    subst hg
    split
    · rw [getElem?_append, getElem?_zeros]
      by_cases hj : j < b.size
      · rw [if_pos hj, if_pos hj]
      · rw [if_neg hj, if_neg hj]
        by_cases hp : j < pos + patch.size
        · rw [if_pos (by omega), if_pos hp]
        · rw [if_neg (by omega), if_neg hp]
    · by_cases hj : j < b.size
      · rw [if_pos hj]
      · rw [if_neg hj, getElem?_neg b j hj, if_neg (by omega)]
  rw [getElem?_copySlice patch grown pos i fits, padded]

theorem size_overwrite (b : ByteArray) (pos : Nat) (patch : ByteArray)
    : (overwrite b pos patch).size = max b.size (pos + patch.size) := by
  unfold overwrite
  split
  · rw [size_copySlice _ _ _ (by rw [ByteArray.size_append, size_zeros]; omega),
      ByteArray.size_append, size_zeros]
    omega
  · rw [size_copySlice _ _ _ (by omega)]
    omega

/-- Overwriting one byte inside a string changes that byte only. -/
theorem getElem?_overwrite_byte {b : ByteArray} {pos : Nat} (inside : pos < b.size) (x : UInt8)
    (i : Nat) : (overwrite b pos ⟨#[x]⟩)[i]? = if i = pos then some x else b[i]? := by
  rw [getElem?_overwrite]
  simp only [size_mk, List.size_toArray, List.length_singleton]
  by_cases here : i = pos
  · subst here
    simp only [Nat.le_refl, Nat.lt_add_one, and_self, if_true, Nat.sub_self, getElem?_mk]
    rfl
  · rw [if_neg (by omega), if_neg here]
    by_cases within : i < b.size
    · rw [if_pos within]
    · rw [if_neg within, if_neg (by omega), getElem?_neg b i within]

/-- Overwriting the first byte of a non-empty string changes that byte only. -/
theorem getElem?_overwrite_head {b : ByteArray} (nonempty : 0 < b.size) (x : UInt8) (i : Nat)
    : (overwrite b 0 ⟨#[x]⟩)[i]? = if i = 0 then some x else b[i]? :=
  getElem?_overwrite_byte nonempty x i

theorem size_overwrite_head {b : ByteArray} (nonempty : 0 < b.size) (x : UInt8)
    : (overwrite b 0 ⟨#[x]⟩).size = b.size := by
  rw [size_overwrite]
  simp only [size_mk, List.size_toArray, List.length_cons, List.length_nil, Nat.zero_add]
  omega

-----------------------------------------------------------------------------------------
-- Little-endian words
-----------------------------------------------------------------------------------------

theorem size_encodeLE (width n : Nat) : (encodeLE width n).size = width := by
  simp [encodeLE, ByteArray.size]
  induction width generalizing n with
  | zero => rfl
  | succ w ih => simp [toListLE, ih]

theorem getElem?_toListLE (width n i : Nat)
    : (toListLE width n)[i]? =
        if i < width then some (UInt8.ofNat (n / 256 ^ i % 256)) else none := by
  induction width generalizing n i with
  | zero => simp [toListLE]
  | succ w ih =>
      cases i with
      | zero => simp [toListLE]
      | succ i =>
          rw [toListLE, List.getElem?_cons_succ, ih]
          by_cases hi : i < w
          · rw [if_pos hi, if_pos (by omega), Nat.pow_succ', ← Nat.div_div_eq_div_mul]
          · rw [if_neg hi, if_neg (by omega)]

theorem getElem?_encodeLE (width n i : Nat)
    : (encodeLE width n)[i]? =
        if i < width then some (UInt8.ofNat (n / 256 ^ i % 256)) else none := by
  rw [encodeLE, getElem?_mk, List.getElem?_toArray, getElem?_toListLE]

/-- A word reads the same from two strings that agree on its bytes. -/
theorem readLE_congr {b b' : ByteArray} {pos pos' width : Nat}
    (same : ∀ j, j < width → b[pos + j]? = b'[pos' + j]?)
    : readLE b pos width = readLE b' pos' width := by
  induction width generalizing pos pos' with
  | zero => rfl
  | succ w ih =>
      have head := same 0 (Nat.succ_pos w)
      rw [Nat.add_zero, Nat.add_zero] at head
      have tail : readLE b (pos + 1) w = readLE b' (pos' + 1) w :=
        ih fun j hj => by
          have := same (j + 1) (by omega)
          rwa [← Nat.add_assoc, ← Nat.add_assoc, Nat.add_right_comm pos,
            Nat.add_right_comm pos'] at this
      rw [readLE, readLE, head, tail]

/-- A word whose bytes are those of `n` reads as `n` cut to its width. -/
theorem readLE_eq_of_bytes {b : ByteArray} {pos width n : Nat}
    (bytes : ∀ j, j < width → b[pos + j]? = some (UInt8.ofNat (n / 256 ^ j % 256)))
    : readLE b pos width = n % 256 ^ width := by
  induction width generalizing pos n with
  | zero => simp [readLE, Nat.mod_one]
  | succ w ih =>
      have head := bytes 0 (Nat.succ_pos w)
      have tail : readLE b (pos + 1) w = n / 256 % 256 ^ w :=
        ih fun j hj => by
          rw [Nat.add_assoc, Nat.add_comm 1 j, bytes (j + 1) (by omega), Nat.pow_succ',
            ← Nat.div_div_eq_div_mul]
      rw [Nat.add_zero, Nat.pow_zero, Nat.div_one] at head
      rw [readLE, head, tail, Option.getD_some,
        UInt8.toNat_ofNat_of_lt' (Nat.mod_lt _ (by decide)), Nat.pow_succ', Nat.mod_mul]

theorem readLE_encodeLE (width n : Nat) : readLE (encodeLE width n) 0 width = n % 256 ^ width :=
  readLE_eq_of_bytes fun j hj => by rw [Nat.zero_add, getElem?_encodeLE, if_pos hj]

theorem readLE_lt (b : ByteArray) (pos width : Nat) : readLE b pos width < 256 ^ width := by
  induction width generalizing pos with
  | zero => simp [readLE]
  | succ w ih =>
      have hb := (b[pos]?.getD 0).toNat_lt
      have := ih (pos + 1)
      rw [readLE, Nat.pow_succ']
      omega

/-- A word whose bytes are those of `encodeLE width n` reads as `n` cut to its width. -/
theorem readLE_of_encodeLE {b : ByteArray} {pos width n : Nat}
    (field : ∀ j, j < width → b[pos + j]? = (encodeLE width n)[j]?)
    : readLE b pos width = n % 256 ^ width :=
  readLE_eq_of_bytes fun j hj => by rw [field j hj, getElem?_encodeLE, if_pos hj]

theorem readI64_of_bytes {b : ByteArray} {pos : Nat} {n : Int64}
    (bytes : ∀ j, j < 8 → b[pos + j]? = (encodeI64 n)[j]?)
    : readI64 b pos = n := by
  have word : readLE b pos 8 = n.toUInt64.toNat :=
    (readLE_of_encodeLE bytes).trans (Nat.mod_eq_of_lt n.toUInt64.toNat_lt)
  simp only [readI64, readU64, word]
  exact (congrArg UInt64.toInt64 UInt64.ofNat_toNat).trans (Int64.toInt64_toUInt64 n)

theorem readI64_congr {b b' : ByteArray} {pos pos' : Nat}
    (same : ∀ j, j < 8 → b[pos + j]? = b'[pos' + j]?)
    : readI64 b pos = readI64 b' pos' := by
  simp only [readI64, readU64, readLE_congr same]

theorem readI64_encodeI64 (n : Int64) : readI64 (encodeI64 n) 0 = n :=
  readI64_of_bytes fun j _ => by rw [Nat.zero_add]

theorem size_encodeI64 (n : Int64) : (encodeI64 n).size = 8 := size_encodeLE 8 _

-----------------------------------------------------------------------------------------
-- Listing and folding
-----------------------------------------------------------------------------------------

/-- Listing a byte string gives its bytes in order. -/
theorem toList_eq (b : ByteArray) : b.toList = b.data.toList := by
  -- the loop has reversed the first `i` bytes onto `r`, and lists the rest in order
  have loop : ∀ i r, i ≤ b.size →
      ByteArray.toList.loop b i r = r.reverse ++ b.data.toList.drop i := by
    intro i r le
    fun_induction ByteArray.toList.loop b i r with
    | case1 i r lt ih =>
        rw [ih (by omega), List.reverse_cons, List.append_assoc,
          List.drop_eq_getElem_cons (show i < b.data.toList.length by simpa using lt)]
        simp [ByteArray.get!, getElem!_pos b.data i lt]
    | case2 i r ge =>
        rw [List.drop_of_length_le (by simp; omega), List.append_nil]
  unfold ByteArray.toList
  simpa using loop 0 [] (Nat.zero_le _)

/-- A left fold over a byte string is the fold over its bytes in order. -/
theorem foldl_eq {β : Type} (f : β → UInt8 → β) (init : β) (b : ByteArray)
    : b.foldl f init = b.data.toList.foldl f init := by
  -- the loop has `i` bytes left to fold from position `j`
  have loop : ∀ i j acc, i + j = b.size →
      @ByteArray.foldlM.loop β Id _ (fun acc x => pure (f acc x)) b b.size (Nat.le_refl _) i j
        acc = (b.data.toList.drop j).foldl f acc := by
    intro i
    induction i with
    | zero =>
        intro j acc sum
        rw [ByteArray.foldlM.loop, List.drop_of_length_le (by simp; omega)]
        simp
        rfl
    | succ i ih =>
        intro j acc sum
        have lt : j < b.size := by omega
        rw [ByteArray.foldlM.loop, dif_pos lt, List.drop_eq_getElem_cons (by simpa using lt),
          List.foldl_cons]
        simp only [bind]
        rw [ih (j + 1) _ (by omega)]
        rfl
  simp only [ByteArray.foldl, ByteArray.foldlM, dif_pos (Nat.le_refl _), Nat.sub_zero]
  exact loop b.size 0 _ (Nat.add_zero _)

end MetricRegistry.Bytes
