import MetricRegistry.Proofs.Bytes
import MetricRegistry.Text.Utf8

/-! The UTF-8 check accepts every text's own bytes. Each character's encoding passes the lead
byte table of RFC 3629 with its continuation bytes, so the check walks a text character by
character, and decoding a text's bytes gives the text back.
-/

namespace MetricRegistry.Text

theorem char_val_valid (c : Char)
    : c.val.toNat < 0xd800 ∨ (0xdfff < c.val.toNat ∧ c.val.toNat < 0x110000) := by
  simpa [UInt32.isValidChar, Nat.isValidChar] using c.valid

theorem toNat_ofNat_byte {n : Nat} (h : n < 256) : (UInt8.ofNat n).toNat = n :=
  UInt8.toNat_ofNat_of_lt' h

/-- Continuation bytes from `pos + i` on leave nothing to report. -/
theorem tailFault_eq_none {bytes : ByteArray} {pos i count : Nat}
    (tails : ∀ j, j < count → ∃ b, bytes[pos + i + j]? = some b ∧ isTail b = true)
    : tailFault bytes pos i count = none := by
  induction count generalizing i with
  | zero => rfl
  | succ n ih =>
      obtain ⟨b, hb, tail⟩ := tails 0 (Nat.succ_pos n)
      rw [Nat.add_zero] at hb
      rw [tailFault, hb]
      simp only [tail, if_true]
      exact ih fun j hj => by
        obtain ⟨b', hb', tail'⟩ := tails (j + 1) (by omega)
        have index : pos + (i + 1) + j = pos + i + (j + 1) := by omega
        exact ⟨b', by rw [index]; exact hb', tail'⟩

/-- A character of two to four bytes whose lead byte, second byte and continuation bytes all
pass hands the check on to the byte after it. -/
theorem validateFrom_multi {bytes : ByteArray} {pos : Nat} (extra lo hi : Nat) {lead second : UInt8}
    (hlead : bytes[pos]? = some lead) (big : 128 ≤ lead.toNat)
    (rule : leadRule lead.toNat = some (extra, lo, hi))
    (hsecond : bytes[pos + 1]? = some second) (range : lo ≤ second.toNat ∧ second.toNat ≤ hi)
    (tails : tailFault bytes pos 2 (extra - 1) = none)
    : validateFrom bytes pos = validateFrom bytes (pos + extra + 1) := by
  obtain ⟨hpos, e0⟩ := getElem?_eq_some_iff.mp hlead
  rw [validateFrom.eq_1, dif_pos hpos]
  simp only [e0, if_neg (Nat.not_lt_of_ge big), rule, hsecond, range, and_self, if_true, tails]

theorem isTail_ofNat {n : Nat} (h : n < 64) : isTail (UInt8.ofNat (n + 128)) = true := by
  simp only [isTail, toNat_ofNat_byte (show n + 128 < 256 by omega), decide_eq_true_eq]
  omega

/-- One encoded character passes the check and hands it on to the byte after it. -/
theorem validateFrom_char {bytes : ByteArray} {pos : Nat} {c : Char}
    (enc : ∀ j, j < (String.utf8EncodeChar c).length →
      bytes[pos + j]? = (String.utf8EncodeChar c)[j]?)
    : validateFrom bytes pos = validateFrom bytes (pos + (String.utf8EncodeChar c).length) := by
  have valid := char_val_valid c
  generalize hv : c.val.toNat = v at valid
  have byte : ∀ j (x : UInt8), (String.utf8EncodeChar c)[j]? = some x →
      bytes[pos + j]? = some x := by
    intro j x hx
    rw [enc j (List.getElem?_eq_some_iff.mp hx).1, hx]
  have at0 : ∀ x : UInt8, (String.utf8EncodeChar c)[0]? = some x → bytes[pos]? = some x :=
    fun x hx => by simpa only [Nat.add_zero] using byte 0 x hx
  unfold String.utf8EncodeChar at byte at0 ⊢
  rw [hv] at byte at0 ⊢
  -- the four widths of RFC 3629, each with the lead rule its code point selects
  by_cases h1 : v ≤ 0x7f
  · simp only [h1, if_true] at byte at0 ⊢
    obtain ⟨hpos, e0⟩ := getElem?_eq_some_iff.mp (at0 _ rfl)
    rw [validateFrom.eq_1, dif_pos hpos]
    simp only [e0, toNat_ofNat_byte (show v < 256 by omega), List.length_singleton]
    rw [if_pos (by omega)]
  by_cases h2 : v ≤ 0x7ff
  · simp only [h1, h2, if_true, if_false] at byte at0 ⊢
    have lead : (UInt8.ofNat (v / 64 % 32 + 192)).toNat = v / 64 + 192 := by
      rw [toNat_ofNat_byte (by omega)]
      omega
    refine validateFrom_multi 1 0x80 0xBF (at0 _ rfl) (by omega) ?_ (byte 1 _ rfl) ?_ rfl
    · rw [lead, leadRule, if_pos (by omega)]
    · rw [toNat_ofNat_byte (by omega)]
      omega
  by_cases h3 : v ≤ 0xffff
  · simp only [h1, h2, h3, if_true, if_false] at byte at0 ⊢
    have lead : (UInt8.ofNat (v / 4096 % 16 + 224)).toNat = v / 4096 + 224 := by
      rw [toNat_ofNat_byte (by omega)]
      omega
    have second : (UInt8.ofNat (v / 64 % 64 + 128)).toNat = v / 64 % 64 + 128 :=
      toNat_ofNat_byte (by omega)
    have tails : tailFault bytes pos 2 (2 - 1) = none :=
      tailFault_eq_none fun j hj => by
        obtain rfl : j = 0 := by omega
        exact ⟨_, byte 2 _ rfl, isTail_ofNat (Nat.mod_lt _ (by decide))⟩
    have third := byte 1 _ rfl
    simp only [List.length_cons, List.length_nil, Nat.reduceAdd]
    rw [show pos + 3 = pos + 2 + 1 by omega]
    -- E0 narrows the second byte from below, ED from above (no surrogates)
    by_cases e0 : v < 0x1000
    · refine validateFrom_multi 2 0xA0 0xBF (at0 _ rfl) (by omega) ?_ third ?_ tails
      · rw [lead, leadRule, if_neg (by omega), if_pos (by omega)]
      · rw [second]
        omega
    by_cases e1 : v < 0xD000
    · refine validateFrom_multi 2 0x80 0xBF (at0 _ rfl) (by omega) ?_ third ?_ tails
      · rw [lead, leadRule, if_neg (by omega), if_neg (by omega), if_pos (by omega)]
      · rw [second]
        omega
    by_cases e2 : v < 0xE000
    · refine validateFrom_multi 2 0x80 0x9F (at0 _ rfl) (by omega) ?_ third ?_ tails
      · rw [lead, leadRule, if_neg (by omega), if_neg (by omega), if_neg (by omega),
          if_pos (by omega)]
      · rw [second]
        omega
    · refine validateFrom_multi 2 0x80 0xBF (at0 _ rfl) (by omega) ?_ third ?_ tails
      · rw [lead, leadRule, if_neg (by omega), if_neg (by omega), if_neg (by omega),
          if_neg (by omega), if_pos (by omega)]
      · rw [second]
        omega
  · simp only [h1, h2, h3, if_false] at byte at0 ⊢
    have lead : (UInt8.ofNat (v / 262144 % 8 + 240)).toNat = v / 262144 + 240 := by
      rw [toNat_ofNat_byte (by omega)]
      omega
    have second : (UInt8.ofNat (v / 4096 % 64 + 128)).toNat = v / 4096 % 64 + 128 :=
      toNat_ofNat_byte (by omega)
    have tails : tailFault bytes pos 2 (3 - 1) = none :=
      tailFault_eq_none fun j hj => by
        rcases (show j = 0 ∨ j = 1 by omega) with rfl | rfl
        · exact ⟨_, byte 2 _ rfl, isTail_ofNat (Nat.mod_lt _ (by decide))⟩
        · exact ⟨_, byte 3 _ rfl, isTail_ofNat (Nat.mod_lt _ (by decide))⟩
    have third := byte 1 _ rfl
    simp only [List.length_cons, List.length_nil, Nat.reduceAdd]
    rw [show pos + 4 = pos + 3 + 1 by omega]
    by_cases f0 : v < 0x40000
    · refine validateFrom_multi 3 0x90 0xBF (at0 _ rfl) (by omega) ?_ third ?_ tails
      · rw [lead, leadRule, if_neg (by omega), if_neg (by omega), if_neg (by omega),
          if_neg (by omega), if_neg (by omega), if_pos (by omega)]
      · rw [second]
        omega
    by_cases f1 : v < 0x100000
    · refine validateFrom_multi 3 0x80 0xBF (at0 _ rfl) (by omega) ?_ third ?_ tails
      · rw [lead, leadRule, if_neg (by omega), if_neg (by omega), if_neg (by omega),
          if_neg (by omega), if_neg (by omega), if_neg (by omega), if_pos (by omega)]
      · rw [second]
        omega
    · refine validateFrom_multi 3 0x80 0x8F (at0 _ rfl) (by omega) ?_ third ?_ tails
      · rw [lead, leadRule, if_neg (by omega), if_neg (by omega), if_neg (by omega),
          if_neg (by omega), if_neg (by omega), if_neg (by omega), if_neg (by omega),
          if_pos (by omega)]
      · rw [second]
        omega

/-- The check walks the encoding of a list of characters to its end, by induction over the
characters. -/
theorem validateFrom_utf8Encode (pre : ByteArray) (cs : List Char)
    : validateFrom (pre ++ cs.utf8Encode) pre.size = .ok () := by
  induction cs generalizing pre with
  | nil =>
      rw [validateFrom.eq_1, dif_neg]
      rw [List.utf8Encode_nil, ByteArray.append_empty]
      exact Nat.lt_irrefl _
  | cons c cs ih =>
      rw [List.utf8Encode_cons, ← ByteArray.append_assoc]
      have step := @validateFrom_char (pre ++ [c].utf8Encode ++ cs.utf8Encode) pre.size c
        fun j hj => by
          rw [Bytes.getElem?_append, if_pos (by
              rw [ByteArray.size_append, List.utf8Encode_singleton, List.size_toByteArray]
              omega),
            Bytes.getElem?_append, if_neg (by omega), Nat.add_sub_cancel_left,
            List.utf8Encode_singleton, Bytes.getElem?_toByteArray]
      rw [step]
      have size : pre.size + (String.utf8EncodeChar c).length = (pre ++ [c].utf8Encode).size := by
        rw [ByteArray.size_append, List.utf8Encode_singleton, List.size_toByteArray]
      rw [size]
      exact ih _

theorem validateFrom_toUTF8 (s : String) : validateFrom s.toUTF8 0 = .ok () := by
  have := validateFrom_utf8Encode ByteArray.empty s.toList
  rwa [ByteArray.empty_append, String.utf8Encode_toList, ByteArray.size_empty] at this

/-- Decoding a text's own bytes gives the text back. -/
theorem decodeUtf8_toUTF8 (s : String) : decodeUtf8 s.toUTF8 = .ok s := by
  rw [decodeUtf8, validateFrom_toUTF8]
  simp [String.fromUTF8?, String.fromUTF8, s.isValidUTF8]

-----------------------------------------------------------------------------------------
-- Every byte string the check accepts is characters
-----------------------------------------------------------------------------------------

/-- Continuation bytes with nothing to report are there, each a continuation byte. -/
theorem tails_of_tailFault {bytes : ByteArray} {pos i count : Nat}
    (clean : tailFault bytes pos i count = none)
    : ∀ j, j < count → ∃ b, bytes[pos + i + j]? = some b ∧ isTail b = true := by
  induction count generalizing i with
  | zero => intro j hj; omega
  | succ n ih =>
      rw [tailFault] at clean
      cases hb : bytes[pos + i]? with
      | none => simp [hb] at clean
      | some b =>
          by_cases tail : isTail b = true
          · simp only [hb, tail, if_true] at clean
            intro j hj
            cases j with
            | zero => exact ⟨b, hb, tail⟩
            | succ j =>
                obtain ⟨b', hb', tail'⟩ := ih clean j (by omega)
                refine ⟨b', ?_, tail'⟩
                rw [show pos + i + (j + 1) = pos + (i + 1) + j by omega]
                exact hb'
          · simp [hb, tail] at clean

/-- What a lead byte with a rule, and a second byte in the rule's range, start: a character of
two, three or four bytes, the first two bytes in the ranges of RFC 3629 §4. -/
theorem leadRule_cases {lead extra lo hi s : Nat} (rule : leadRule lead = some (extra, lo, hi))
    (range : lo ≤ s ∧ s ≤ hi)
    : (extra = 1 ∧ 0xC2 ≤ lead ∧ lead ≤ 0xDF ∧ 0x80 ≤ s ∧ s ≤ 0xBF) ∨
      (extra = 2 ∧ 0xE0 ≤ lead ∧ lead ≤ 0xEF ∧ 0x80 ≤ s ∧ s ≤ 0xBF ∧
        (lead = 0xE0 → 0xA0 ≤ s) ∧ (lead = 0xED → s ≤ 0x9F)) ∨
      (extra = 3 ∧ 0xF0 ≤ lead ∧ lead ≤ 0xF4 ∧ 0x80 ≤ s ∧ s ≤ 0xBF ∧
        (lead = 0xF0 → 0x90 ≤ s) ∧ (lead = 0xF4 → s ≤ 0x8F)) := by
  unfold leadRule at rule
  split_ifs at rule <;> cases rule <;> omega

theorem val_ofNat {v : Nat} (valid : v.isValidChar) : (Char.ofNat v).val.toNat = v := by
  unfold Char.ofNat
  rw [dif_pos valid]
  simp [Char.ofNatAux]

/-- A lead byte `0xC2` to `0xDF` and a continuation byte encode one character. -/
theorem encodes_two {b0 b1 : Nat} (lead : 0xC2 ≤ b0 ∧ b0 ≤ 0xDF) (tail : 0x80 ≤ b1 ∧ b1 ≤ 0xBF)
    : ∃ c : Char, String.utf8EncodeChar c = [UInt8.ofNat b0, UInt8.ofNat b1] := by
  have valid : Nat.isValidChar ((b0 - 0xC0) * 64 + (b1 - 0x80)) := Or.inl (by omega)
  refine ⟨Char.ofNat ((b0 - 0xC0) * 64 + (b1 - 0x80)), ?_⟩
  unfold String.utf8EncodeChar
  rw [val_ofNat valid, if_neg (by omega), if_pos (by omega)]
  simp only [List.cons.injEq, and_true]
  exact ⟨congrArg UInt8.ofNat (by omega), congrArg UInt8.ofNat (by omega)⟩

/-- A lead byte `0xE0` to `0xEF`, a second byte that neither makes the code point too small for
three bytes nor a surrogate, and a continuation byte encode one character. -/
theorem encodes_three {b0 b1 b2 : Nat} (lead : 0xE0 ≤ b0 ∧ b0 ≤ 0xEF)
    (second : 0x80 ≤ b1 ∧ b1 ≤ 0xBF) (least : b0 = 0xE0 → 0xA0 ≤ b1)
    (surrogate : b0 = 0xED → b1 ≤ 0x9F) (tail : 0x80 ≤ b2 ∧ b2 ≤ 0xBF)
    : ∃ c : Char, String.utf8EncodeChar c = [UInt8.ofNat b0, UInt8.ofNat b1, UInt8.ofNat b2] := by
  have valid : Nat.isValidChar ((b0 - 0xE0) * 4096 + (b1 - 0x80) * 64 + (b2 - 0x80)) := by
    unfold Nat.isValidChar
    omega
  refine ⟨Char.ofNat ((b0 - 0xE0) * 4096 + (b1 - 0x80) * 64 + (b2 - 0x80)), ?_⟩
  unfold String.utf8EncodeChar
  rw [val_ofNat valid, if_neg (by omega), if_neg (by omega), if_pos (by omega)]
  simp only [List.cons.injEq, and_true]
  exact ⟨congrArg UInt8.ofNat (by omega), congrArg UInt8.ofNat (by omega),
    congrArg UInt8.ofNat (by omega)⟩

/-- A lead byte `0xF0` to `0xF4`, a second byte that keeps the code point between four-byte
size and U+10FFFF, and two continuation bytes encode one character. -/
theorem encodes_four {b0 b1 b2 b3 : Nat} (lead : 0xF0 ≤ b0 ∧ b0 ≤ 0xF4)
    (second : 0x80 ≤ b1 ∧ b1 ≤ 0xBF) (least : b0 = 0xF0 → 0x90 ≤ b1)
    (most : b0 = 0xF4 → b1 ≤ 0x8F) (third : 0x80 ≤ b2 ∧ b2 ≤ 0xBF)
    (fourth : 0x80 ≤ b3 ∧ b3 ≤ 0xBF)
    : ∃ c : Char, String.utf8EncodeChar c =
        [UInt8.ofNat b0, UInt8.ofNat b1, UInt8.ofNat b2, UInt8.ofNat b3] := by
  have valid : Nat.isValidChar
      ((b0 - 0xF0) * 262144 + (b1 - 0x80) * 4096 + (b2 - 0x80) * 64 + (b3 - 0x80)) := by
    unfold Nat.isValidChar
    omega
  refine ⟨Char.ofNat
    ((b0 - 0xF0) * 262144 + (b1 - 0x80) * 4096 + (b2 - 0x80) * 64 + (b3 - 0x80)), ?_⟩
  unfold String.utf8EncodeChar
  rw [val_ofNat valid, if_neg (by omega), if_neg (by omega), if_neg (by omega)]
  simp only [List.cons.injEq, and_true]
  exact ⟨congrArg UInt8.ofNat (by omega), congrArg UInt8.ofNat (by omega),
    congrArg UInt8.ofNat (by omega), congrArg UInt8.ofNat (by omega)⟩

/-- Bytes from `pos` on that start with one character's encoding and go on with the encoding of
`cs` are the encoding of that character followed by `cs`. -/
theorem extract_cons {bytes : ByteArray} {pos : Nat} {c : Char} {cs : List Char}
    (head : ∀ j, j < (String.utf8EncodeChar c).length →
      bytes[pos + j]? = (String.utf8EncodeChar c)[j]?)
    (rest : bytes.extract (pos + (String.utf8EncodeChar c).length) bytes.size = cs.utf8Encode)
    : bytes.extract pos bytes.size = (c :: cs).utf8Encode := by
  have inside : pos + (String.utf8EncodeChar c).length ≤ bytes.size := by
    have last := head _ (Nat.sub_lt (List.length_pos_iff.mpr String.utf8EncodeChar_ne_nil)
      Nat.one_pos)
    rw [List.getElem?_eq_getElem (Nat.sub_lt (List.length_pos_iff.mpr
      String.utf8EncodeChar_ne_nil) Nat.one_pos)] at last
    have := (getElem?_eq_some_iff.mp last).1
    have := List.length_pos_iff.mpr (@String.utf8EncodeChar_ne_nil c)
    omega
  apply Bytes.ext_getElem?
  intro i
  rw [List.utf8Encode_cons, List.utf8Encode_singleton, Bytes.getElem?_append,
    List.size_toByteArray, Bytes.getElem?_extract, Bytes.getElem?_toByteArray]
  by_cases first : i < (String.utf8EncodeChar c).length
  · rw [if_pos first, if_pos (by omega), head i first]
  · rw [if_neg first, ← rest, Bytes.getElem?_extract]
    rw [show pos + (String.utf8EncodeChar c).length + (i - (String.utf8EncodeChar c).length) =
      pos + i by omega]

/-- Every byte string the check accepts from `pos` on is the encoding of characters, by
recursion along the check: an ASCII byte is one character, and a lead byte with its accepted
second and continuation bytes is one more. -/
theorem utf8Encode_of_validateFrom {bytes : ByteArray} {pos : Nat}
    (ok : validateFrom bytes pos = .ok ())
    : ∃ cs : List Char, bytes.extract pos bytes.size = cs.utf8Encode := by
  by_cases here : pos < bytes.size
  · rw [validateFrom.eq_1, dif_pos here] at ok
    have first : bytes[pos]? = some bytes[pos] := getElem?_pos bytes pos here
    by_cases ascii : bytes[pos].toNat < 0x80
    · rw [if_pos ascii] at ok
      obtain ⟨cs, rest⟩ := utf8Encode_of_validateFrom ok
      have one : String.utf8EncodeChar (Char.ofNat bytes[pos].toNat) = [bytes[pos]] := by
        unfold String.utf8EncodeChar
        rw [val_ofNat (Or.inl (by omega)), if_pos (by omega), UInt8.ofNat_toNat]
      refine ⟨_ :: cs, extract_cons (fun j hj => ?_) (by rw [one]; exact rest)⟩
      rw [one] at hj ⊢
      obtain rfl : j = 0 := by simpa using hj
      exact first
    · rw [if_neg ascii] at ok
      cases rule : leadRule bytes[pos].toNat with
      | none => simp [rule] at ok
      | some r =>
          obtain ⟨extra, lo, hi⟩ := r
          cases hs : bytes[pos + 1]? with
          | none => simp [rule, hs] at ok
          | some b1 =>
              by_cases range : lo ≤ b1.toNat ∧ b1.toNat ≤ hi
              · cases ht : tailFault bytes pos 2 (extra - 1) with
                | some len => simp [rule, hs, range, ht] at ok
                | none =>
                    simp only [rule, hs, range, and_self, if_true, ht] at ok
                    obtain ⟨cs, rest⟩ := utf8Encode_of_validateFrom ok
                    have tails := tails_of_tailFault ht
                    rcases leadRule_cases rule range with
                      ⟨rfl, l1, l2, s1, s2⟩ | ⟨rfl, l1, l2, s1, s2, least, surrogate⟩ |
                      ⟨rfl, l1, l2, s1, s2, least, most⟩
                    · obtain ⟨c, enc⟩ := encodes_two ⟨l1, l2⟩ ⟨s1, s2⟩
                      rw [UInt8.ofNat_toNat, UInt8.ofNat_toNat] at enc
                      refine ⟨c :: cs, extract_cons (fun j hj => ?_) (by rw [enc]; exact rest)⟩
                      rw [enc] at hj ⊢
                      rcases (show j = 0 ∨ j = 1 by simp at hj; omega) with rfl | rfl
                      · exact first
                      · exact hs
                    · obtain ⟨b2, h2, t2⟩ := tails 0 (by decide)
                      have r2 : 0x80 ≤ b2.toNat ∧ b2.toNat ≤ 0xBF := by simpa [isTail] using t2
                      obtain ⟨c, enc⟩ := encodes_three ⟨l1, l2⟩ ⟨s1, s2⟩ least surrogate r2
                      rw [UInt8.ofNat_toNat, UInt8.ofNat_toNat, UInt8.ofNat_toNat] at enc
                      refine ⟨c :: cs, extract_cons (fun j hj => ?_) (by rw [enc]; exact rest)⟩
                      rw [enc] at hj ⊢
                      rcases (show j = 0 ∨ j = 1 ∨ j = 2 by simp at hj; omega) with
                        rfl | rfl | rfl
                      · exact first
                      · exact hs
                      · exact h2
                    · obtain ⟨b2, h2, t2⟩ := tails 0 (by decide)
                      obtain ⟨b3, h3, t3⟩ := tails 1 (by decide)
                      have r2 : 0x80 ≤ b2.toNat ∧ b2.toNat ≤ 0xBF := by simpa [isTail] using t2
                      have r3 : 0x80 ≤ b3.toNat ∧ b3.toNat ≤ 0xBF := by simpa [isTail] using t3
                      obtain ⟨c, enc⟩ := encodes_four ⟨l1, l2⟩ ⟨s1, s2⟩ least most r2 r3
                      rw [UInt8.ofNat_toNat, UInt8.ofNat_toNat, UInt8.ofNat_toNat,
                        UInt8.ofNat_toNat] at enc
                      refine ⟨c :: cs, extract_cons (fun j hj => ?_) (by rw [enc]; exact rest)⟩
                      rw [enc] at hj ⊢
                      rcases (show j = 0 ∨ j = 1 ∨ j = 2 ∨ j = 3 by simp at hj; omega) with
                        rfl | rfl | rfl | rfl
                      · exact first
                      · exact hs
                      · exact h2
                      · exact h3
              · simp [rule, hs, range] at ok
  · refine ⟨[], ?_⟩
    apply Bytes.ext_getElem?
    intro i
    rw [Bytes.getElem?_extract, if_neg (by omega), List.utf8Encode_nil]
    rfl
termination_by bytes.size - pos

/-- The check accepts exactly the UTF-8 byte strings. -/
theorem validateFrom_eq_ok_iff (bytes : ByteArray)
    : validateFrom bytes 0 = .ok () ↔ bytes.IsValidUTF8 := by
  constructor
  · intro ok
    obtain ⟨cs, enc⟩ := utf8Encode_of_validateFrom ok
    rw [ByteArray.extract_zero_size] at enc
    exact ⟨cs, enc⟩
  · rintro ⟨cs, rfl⟩
    have := validateFrom_utf8Encode ByteArray.empty cs
    rwa [ByteArray.empty_append, ByteArray.size_empty] at this

/-- Decoding gives a text exactly when the bytes are that text's encoding. -/
theorem decodeUtf8_eq_ok_iff {bytes : ByteArray} {s : String}
    : decodeUtf8 bytes = .ok s ↔ s.toUTF8 = bytes := by
  constructor
  · intro ok
    unfold decodeUtf8 at ok
    cases checked : validateFrom bytes 0 with
    | error e => simp [checked] at ok
    | ok u =>
        have valid := (validateFrom_eq_ok_iff bytes).mp checked
        simp only [checked, String.fromUTF8?, dif_pos valid, Option.getD_some,
          Except.ok.injEq] at ok
        rw [← ok]
        rfl
  · rintro rfl
    exact decodeUtf8_toUTF8 s

end MetricRegistry.Text
