import ChangeReview.Text.Utf8

/-!
# Every text can be written as bytes

What is written is read back: the bytes of a text give the text
(`Text.Utf8.decode_encode`). The reader meets the bytes one by one, and what
has to be seen is that none of them is refused. The bytes behind the first one
of a character carry six bits each and are never out of the usual bounds. Only
the second byte of a character can be out of narrower ones, those that its
first byte sets: they keep out a character that could have been written with
fewer bytes, the surrogates, and what lies behind the last code point. A
character is none of these.
-/

namespace ChangeReview.Text.Utf8

variable {position : Nat} {rest : List UInt8}

/-! ## The bytes of a character -/

/-- A byte behind the first one carries six bits. -/
theorem toNat_trailing {bits : Nat} (h : bits < 64) : (UInt8.ofNat (bits + 128)).toNat = bits + 128 :=
  UInt8.toNat_ofNat_of_lt' (by simp only [UInt8.size]; omega)

/-- A first byte opens its character. -/
theorem decodeFrom_lead {b : Nat} {p : Pending} (hb : 128 ≤ b) (hsize : b < 256)
    (h : lead? b = some p) :
    decodeFrom position none (UInt8.ofNat b :: rest) = decodeFrom (position + 1) (some p) rest := by
  have hnat : (UInt8.ofNat b).toNat = b := UInt8.toNat_ofNat_of_lt' hsize
  rw [decodeFrom, hnat, if_neg (by omega), h]

/-- A byte within the bounds goes on with its character, -/
theorem decodeFrom_trailing {byte taken owed low high code bits : Nat} (hbits : bits < 64)
    (hlow : low ≤ bits + 128) (hhigh : bits + 128 ≤ high) :
    decodeFrom position (some ⟨byte, taken, owed + 2, low, high, code⟩)
        (UInt8.ofNat (bits + 128) :: rest)
      = decodeFrom (position + 1)
        (some ⟨byte, taken + 1, owed + 1, 0x80, 0xBF, 64 * code + bits⟩) rest := by
  have hfits : ¬ (bits + 128 < low ∨ high < bits + 128) := by omega
  have howed : ¬ owed + 2 ≤ 1 := by omega
  rw [decodeFrom, toNat_trailing hbits, if_neg hfits, if_neg howed, Nat.add_sub_cancel]
  rfl

/-- and the last one that is owed ends it. -/
theorem decodeFrom_last {byte taken low high code bits : Nat} (hbits : bits < 64)
    (hlow : low ≤ bits + 128) (hhigh : bits + 128 ≤ high) :
    decodeFrom position (some ⟨byte, taken, 1, low, high, code⟩) (UInt8.ofNat (bits + 128) :: rest)
      = (Char.ofNat (64 * code + bits) :: ·) <$> decodeFrom (position + 1) none rest := by
  have hfits : ¬ (bits + 128 < low ∨ high < bits + 128) := by omega
  rw [decodeFrom, toNat_trailing hbits, if_neg hfits, if_pos (Nat.le_refl 1), Nat.add_sub_cancel]

/-! ## First bytes -/

/-- The first of two bytes. -/
theorem lead?_two {v : Nat} (hlow : 128 ≤ v) (hhigh : v < 2048) :
    lead? (v / 64 + 192) = some ⟨v / 64 + 192, 1, 1, 0x80, 0xBF, v / 64⟩ := by
  rw [lead?, if_pos (by omega)]
  simp only [Nat.add_sub_cancel]

/-- The first of three bytes: the second one is not refused, since the code
point is neither low nor a surrogate. -/
theorem lead?_three {v : Nat} (hlow : 2048 ≤ v) (hhigh : v < 65536)
    (hvalid : v < 0xD800 ∨ 0xDFFF < v) :
    ∃ low high, lead? (v / 4096 + 224) = some ⟨v / 4096 + 224, 1, 2, low, high, v / 4096⟩ ∧
      low ≤ v / 64 % 64 + 128 ∧ v / 64 % 64 + 128 ≤ high := by
  have hcases : v / 4096 = 0 ∨ v / 4096 = 13 ∨ v / 4096 ≠ 0 ∧ v / 4096 ≠ 13 := by omega
  rcases hcases with h | h | ⟨h, h'⟩
  · exact ⟨0xA0, 0xBF, by rw [h]; rfl, by omega, by omega⟩
  · exact ⟨0x80, 0x9F, by rw [h]; rfl, by omega, by omega⟩
  · refine ⟨0x80, 0xBF, ?_, by omega, by omega⟩
    rw [lead?, if_neg (by omega), if_neg (by omega), if_neg (by omega), if_pos (by omega)]
    simp only [Nat.add_sub_cancel]

/-- The first of four bytes: the second one is not refused, since the code
point is neither low nor behind the last one. -/
theorem lead?_four {v : Nat} (hlow : 65536 ≤ v) (hhigh : v < 0x110000) :
    ∃ low high, lead? (v / 262144 + 240) = some ⟨v / 262144 + 240, 1, 3, low, high, v / 262144⟩ ∧
      low ≤ v / 4096 % 64 + 128 ∧ v / 4096 % 64 + 128 ≤ high := by
  have hcases : v / 262144 = 0 ∨ v / 262144 = 4 ∨ v / 262144 ≠ 0 ∧ v / 262144 ≠ 4 := by omega
  rcases hcases with h | h | ⟨h, h'⟩
  · exact ⟨0x90, 0xBF, by rw [h]; rfl, by omega, by omega⟩
  · exact ⟨0x80, 0x8F, by rw [h]; rfl, by omega, by omega⟩
  · refine ⟨0x80, 0xBF, ?_, by omega, by omega⟩
    rw [lead?, if_neg (by omega), if_neg (by omega), if_neg (by omega), if_neg (by omega),
      if_neg (by omega), if_pos (by omega)]
    simp only [Nat.add_sub_cancel]

/-! ## Characters and texts -/

theorem decodeFrom_one {v : Nat} (h : v < 128) :
    decodeFrom position none (UInt8.ofNat v :: rest)
      = (Char.ofNat v :: ·) <$> decodeFrom (position + 1) none rest := by
  have hnat : (UInt8.ofNat v).toNat = v :=
    UInt8.toNat_ofNat_of_lt' (by simp only [UInt8.size]; omega)
  rw [decodeFrom, hnat, if_pos h]

theorem decodeFrom_two {v : Nat} (hlow : 128 ≤ v) (hhigh : v < 2048) :
    decodeFrom position none
        (UInt8.ofNat (v / 64 % 32 + 192) :: UInt8.ofNat (v % 64 + 128) :: rest)
      = (Char.ofNat v :: ·) <$> decodeFrom (position + 2) none rest := by
  have hcode : 64 * (v / 64) + v % 64 = v := by omega
  rw [Nat.mod_eq_of_lt (by omega), decodeFrom_lead (by omega) (by omega) (lead?_two hlow hhigh),
    decodeFrom_last (by omega) (by omega) (by omega), hcode]

theorem decodeFrom_three {v : Nat} (hlow : 2048 ≤ v) (hhigh : v < 65536)
    (hvalid : v < 0xD800 ∨ 0xDFFF < v) :
    decodeFrom position none (UInt8.ofNat (v / 4096 % 16 + 224) ::
        UInt8.ofNat (v / 64 % 64 + 128) :: UInt8.ofNat (v % 64 + 128) :: rest)
      = (Char.ofNat v :: ·) <$> decodeFrom (position + 3) none rest := by
  have hcode : 64 * (64 * (v / 4096) + v / 64 % 64) + v % 64 = v := by omega
  obtain ⟨low, high, hlead, hl, hh⟩ := lead?_three hlow hhigh hvalid
  rw [Nat.mod_eq_of_lt (by omega), decodeFrom_lead (by omega) (by omega) hlead,
    decodeFrom_trailing (by omega) hl hh, decodeFrom_last (by omega) (by omega) (by omega), hcode]

theorem decodeFrom_four {v : Nat} (hlow : 65536 ≤ v) (hhigh : v < 0x110000) :
    decodeFrom position none (UInt8.ofNat (v / 262144 % 8 + 240) ::
        UInt8.ofNat (v / 4096 % 64 + 128) :: UInt8.ofNat (v / 64 % 64 + 128) ::
        UInt8.ofNat (v % 64 + 128) :: rest)
      = (Char.ofNat v :: ·) <$> decodeFrom (position + 4) none rest := by
  have hcode : 64 * (64 * (64 * (v / 262144) + v / 4096 % 64) + v / 64 % 64) + v % 64 = v := by
    omega
  obtain ⟨low, high, hlead, hl, hh⟩ := lead?_four hlow hhigh
  rw [Nat.mod_eq_of_lt (by omega), decodeFrom_lead (by omega) (by omega) hlead,
    decodeFrom_trailing (by omega) hl hh, decodeFrom_trailing (by omega) (by omega) (by omega),
    decodeFrom_last (by omega) (by omega) (by omega), hcode]

/-- **The bytes of a character give the character**, wherever they stand. -/
theorem decodeFrom_utf8EncodeChar (position : Nat) (c : Char) (rest : List UInt8) :
    decodeFrom position none (String.utf8EncodeChar c ++ rest)
      = (c :: ·) <$> decodeFrom (position + (String.utf8EncodeChar c).length) none rest := by
  have hvalid : c.val.toNat < 0xD800 ∨ 0xDFFF < c.val.toNat ∧ c.val.toNat < 0x110000 := c.valid
  have hchar : Char.ofNat c.val.toNat = c := Char.ofNat_toNat c
  unfold String.utf8EncodeChar
  generalize c.val.toNat = v at hvalid hchar
  subst hchar
  dsimp only
  split
  · exact decodeFrom_one (by omega)
  split
  · exact decodeFrom_two (by omega) (by omega)
  split
  · exact decodeFrom_three (by omega) (by omega) (by omega)
  · exact decodeFrom_four (by omega) (by omega)

/-- **The bytes of a text give the text.** -/
theorem decode_encode (cs : List Char) : decode (encode cs) = .ok cs := by
  have hfrom (position : Nat) : decodeFrom position none (encode cs) = .ok cs := by
    induction cs generalizing position with
    | nil => rfl
    | cons c cs ih =>
      show decodeFrom position none (String.utf8EncodeChar c ++ encode cs) = _
      rw [decodeFrom_utf8EncodeChar, ih]
      rfl
  exact hfrom 0

end ChangeReview.Text.Utf8
