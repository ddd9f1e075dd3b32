import Mini.Text.Utf8

/-!
# Reading what was written as UTF-8

The bytes of a text are read back as the text. A character is one byte, or a first byte and up to
three more; the reader is taken through these one by one, with the bits that it has so far.
-/

namespace Mini.Text.Utf8

/-! ## Single bytes -/

section Byte

variable {position : Nat} {rest : List UInt8}

theorem toNat_ofNat {b : Nat} (byte : b < 0x100) : (UInt8.ofNat b).toNat = b :=
  UInt8.toNat_ofNat_of_lt' byte

theorem decodeFrom_ascii {b : Nat} (small : b < 0x80) :
    decodeFrom position none (UInt8.ofNat b :: rest) =
      (Char.ofNat b :: ·) <$> decodeFrom (position + 1) none rest := by
  rw [decodeFrom, toNat_ofNat (Nat.lt_trans small (by decide))]
  exact if_pos small

/-- The first of several bytes. -/
theorem decodeFrom_first {b : Nat} {p : Pending} (large : 0x80 ≤ b) (byte : b < 0x100)
    (begun : Pending.ofByte? position b = some p) :
    decodeFrom position none (UInt8.ofNat b :: rest) = decodeFrom (position + 1) (some p) rest := by
  rw [decodeFrom, toNat_ofNat byte, if_neg (Nat.not_lt_of_le large), begun]

variable {byte start taken bits owed low high r : Nat}

theorem within_eq (least : low ≤ r + 128) (most : r + 128 ≤ high) :
    ¬(decide (r + 128 < low) || decide (high < r + 128)) = true := by
  rw [Bool.or_eq_true, decide_eq_true_eq, decide_eq_true_eq]
  omega

/-- A byte with six bits, behind which more are owed. -/
theorem decodeFrom_next (six : r < 64) (least : low ≤ r + 128) (most : r + 128 ≤ high) :
    decodeFrom position (some ⟨byte, start, taken, bits, owed + 2, low, high⟩)
        (UInt8.ofNat (r + 128) :: rest) =
      decodeFrom (position + 1)
        (some ⟨byte, start, taken + 1, bits * 64 + r, owed + 1, 0x80, 0xBF⟩) rest := by
  rw [decodeFrom, toNat_ofNat (by omega), if_neg (within_eq least most), if_neg (by simp),
    Nat.add_sub_cancel]
  rfl

/-- The last byte that is owed. -/
theorem decodeFrom_last (six : r < 64) (least : low ≤ r + 128) (most : r + 128 ≤ high) :
    decodeFrom position (some ⟨byte, start, taken, bits, 1, low, high⟩)
        (UInt8.ofNat (r + 128) :: rest) =
      (Char.ofNat (bits * 64 + r) :: ·) <$> decodeFrom (position + 1) none rest := by
  rw [decodeFrom, toNat_ofNat (by omega), if_neg (within_eq least most), if_pos rfl,
    Nat.add_sub_cancel]

end Byte

/-! ## Characters of several bytes -/

section Bytes

variable {position n : Nat} {rest : List UInt8}

theorem decodeFrom_two (low : 0x80 ≤ n) (high : n ≤ 0x7FF) :
    decodeFrom position none
        (UInt8.ofNat (n / 64 % 32 + 192) :: UInt8.ofNat (n % 64 + 128) :: rest) =
      (Char.ofNat n :: ·) <$> decodeFrom (position + 2) none rest := by
  have begun : Pending.ofByte? position (n / 64 % 32 + 192) =
      some ⟨n / 64 % 32 + 192, position, 1, n / 64 % 32, 1, 0x80, 0xBF⟩ := by
    rw [Pending.ofByte?, if_neg (by omega), if_pos (by omega), Nat.add_sub_cancel]
  have bits : n / 64 % 32 * 64 + n % 64 = n := by omega
  rw [decodeFrom_first (by omega) (by omega) begun,
    decodeFrom_last (by omega) (by omega) (by omega), bits]

/-- The bounds of the second byte leave out what is no character, and nothing else. -/
theorem decodeFrom_three (low : 0x800 ≤ n) (high : n ≤ 0xFFFF) (valid : n < 0xD800 ∨ 0xDFFF < n) :
    decodeFrom position none
        (UInt8.ofNat (n / 4096 % 16 + 224) :: UInt8.ofNat (n / 64 % 64 + 128) ::
          UInt8.ofNat (n % 64 + 128) :: rest) =
      (Char.ofNat n :: ·) <$> decodeFrom (position + 3) none rest := by
  have begun : Pending.ofByte? position (n / 4096 % 16 + 224) =
      some ⟨n / 4096 % 16 + 224, position, 1, n / 4096 % 16, 2,
        if n / 4096 % 16 + 224 = 0xE0 then 0xA0 else 0x80,
        if n / 4096 % 16 + 224 = 0xED then 0x9F else 0xBF⟩ := by
    rw [Pending.ofByte?, if_neg (by omega), if_neg (by omega), if_pos (by omega),
      Nat.add_sub_cancel]
  have bits : (n / 4096 % 16 * 64 + n / 64 % 64) * 64 + n % 64 = n := by omega
  rw [decodeFrom_first (by omega) (by omega) begun,
    decodeFrom_next (by omega) (by split <;> omega) (by split <;> omega),
    decodeFrom_last (by omega) (by omega) (by omega), bits]

theorem decodeFrom_four (low : 0x10000 ≤ n) (high : n < 0x110000) :
    decodeFrom position none
        (UInt8.ofNat (n / 262144 % 8 + 240) :: UInt8.ofNat (n / 4096 % 64 + 128) ::
          UInt8.ofNat (n / 64 % 64 + 128) :: UInt8.ofNat (n % 64 + 128) :: rest) =
      (Char.ofNat n :: ·) <$> decodeFrom (position + 4) none rest := by
  have begun : Pending.ofByte? position (n / 262144 % 8 + 240) =
      some ⟨n / 262144 % 8 + 240, position, 1, n / 262144 % 8, 3,
        if n / 262144 % 8 + 240 = 0xF0 then 0x90 else 0x80,
        if n / 262144 % 8 + 240 = 0xF4 then 0x8F else 0xBF⟩ := by
    rw [Pending.ofByte?, if_neg (by omega), if_neg (by omega), if_neg (by omega),
      if_pos (by omega), Nat.add_sub_cancel]
  have bits : ((n / 262144 % 8 * 64 + n / 4096 % 64) * 64 + n / 64 % 64) * 64 + n % 64 = n := by
    omega
  rw [decodeFrom_first (by omega) (by omega) begun,
    decodeFrom_next (by omega) (by split <;> omega) (by split <;> omega),
    decodeFrom_next (by omega) (by omega) (by omega),
    decodeFrom_last (by omega) (by omega) (by omega), bits]

end Bytes

/-! ## Texts -/

/-- The bytes of a character are read as the character, whatever follows. -/
theorem exists_decodeFrom_char (position : Nat) (c : Char) (rest : List UInt8) :
    ∃ later, decodeFrom position none (String.utf8EncodeChar c ++ rest) =
      (c :: ·) <$> decodeFrom later none rest := by
  have valid : c.toNat < 0xD800 ∨ 0xDFFF < c.toNat ∧ c.toNat < 0x110000 := c.valid
  have same : Char.ofNat c.toNat = c := Char.ofNat_toNat c
  have code : c.val.toNat = c.toNat := rfl
  rw [String.utf8EncodeChar, code]
  generalize c.toNat = n at valid same
  subst same
  split
  · exact ⟨_, decodeFrom_ascii (by omega)⟩
  · split
    · exact ⟨_, decodeFrom_two (by omega) (by omega)⟩
    · split
      · exact ⟨_, decodeFrom_three (by omega) (by omega) (by omega)⟩
      · exact ⟨_, decodeFrom_four (by omega) (by omega)⟩

theorem decodeFrom_chars : ∀ (cs : List Char) (position : Nat),
    decodeFrom position none (cs.flatMap String.utf8EncodeChar) = .ok cs
  | [], _ => rfl
  | c :: cs, position => by
      rw [List.flatMap_cons]
      obtain ⟨later, read⟩ := exists_decodeFrom_char position c (cs.flatMap String.utf8EncodeChar)
      rw [read, decodeFrom_chars cs later]
      rfl

/-- **The bytes of a text are read back as the text.** -/
theorem decode_toUTF8 (text : String) : decode text.toUTF8.data.toList = .ok text.toList := by
  have encoded : text.toUTF8 = text.toList.utf8Encode := by
    rw [String.toUTF8, ← String.toByteArray_ofList, String.ofList_toList]
  rw [encoded, List.utf8Encode, List.data_toByteArray]
  exact decodeFrom_chars text.toList 0

end Mini.Text.Utf8
