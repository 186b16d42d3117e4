import SignIn.Proofs.Text.Utf8
import SignIn.Text.Percent

/-!
# Escaped bytes are read back

Reading escapes does not depend on what was escaped, so one fact about a single byte serves every
set of escaped bytes: the escape of a byte is read as that byte, and a byte that is no `%` as
itself.

## Main results

* `Percent.decode_escapeByte` — the escape of a byte
* `Percent.decode_encode` — a text with any bytes escaped, `%` among them
-/

namespace SignIn.Percent

/-! ### Digits -/

/-- A digit is an ASCII character that is read as its value, and no mark of any format. -/
theorem hexDigit_spec {n : Nat} (h : n < 16) :
    (hexDigit n).toNat < 0x80 ∧ hexValue? (UInt8.ofNat (hexDigit n).toNat) = some n ∧
      isAlphanumeric (UInt8.ofNat (hexDigit n).toNat) := by
  revert n
  decide

/-- The bytes of an escape. -/
theorem flatMap_escapeByte (b : UInt8) :
    (escapeByte b).flatMap String.utf8EncodeChar =
      [0x25, UInt8.ofNat (hexDigit (b.toNat / 16)).toNat,
        UInt8.ofNat (hexDigit (b.toNat % 16)).toNat] := by
  have hhi : b.toNat / 16 < 16 := by have := b.toNat_lt; omega
  have hlo : b.toNat % 16 < 16 := by omega
  rw [escapeByte, List.flatMap_cons, List.flatMap_cons, List.flatMap_singleton,
    Utf8.utf8EncodeChar_of_lt (hexDigit_spec hhi).1,
    Utf8.utf8EncodeChar_of_lt (hexDigit_spec hlo).1]
  rfl

/-- The escape of a byte is read as that byte. -/
theorem decode_escapeByte (b : UInt8) (rest : Bytes) :
    decode ((escapeByte b).flatMap String.utf8EncodeChar ++ rest) = b :: decode rest := by
  have hhi : b.toNat / 16 < 16 := by have := b.toNat_lt; omega
  have hlo : b.toNat % 16 < 16 := by omega
  have hbyte : UInt8.ofNat (16 * (b.toNat / 16) + b.toNat % 16) = b := by
    rw [Nat.div_add_mod, UInt8.ofNat_toNat]
  rw [flatMap_escapeByte]
  exact (decode_escape (hexDigit_spec hhi).2.1 (hexDigit_spec hlo).2.1 rest).trans (by rw [hbyte])

/-! ### Texts -/

/-- Bytes that are written in any way that is read as themselves are read back. -/
theorem decode_flatMap {write : UInt8 → Bytes}
    (h : ∀ b rest, decode (write b ++ rest) = b :: decode rest) (bs rest : Bytes) :
    decode (bs.flatMap write ++ rest) = bs ++ decode rest := by
  induction bs with
  | nil => rfl
  | cons b bs ih => rw [List.flatMap_cons, List.append_assoc, h, ih, List.cons_append]

/-- How a byte is written that stands for itself if `keep` holds of it. -/
def writtenByte (keep : UInt8 → Bool) (b : UInt8) : Bytes :=
  (if keep b then [Char.ofNat b.toNat] else escapeByte b).flatMap String.utf8EncodeChar

theorem encode_encode (keep : UInt8 → Bool) (s : String) :
    Utf8.encode (encode keep s) = (Utf8.encode s).flatMap (writtenByte keep) := by
  rw [encode, Utf8.encode_ofList, encodeBytes, List.flatMap_assoc]
  rfl

/-- A text does not get shorter when bytes of it are escaped. -/
theorem length_le_encode (keep : UInt8 → Bool) (s : String) :
    (Utf8.encode s).length ≤ (Utf8.encode (encode keep s)).length := by
  rw [encode_encode]
  refine Utf8.length_le_flatMap (fun b => ?_) _
  rw [writtenByte]
  split
  · rw [List.flatMap_singleton]
    exact String.utf8EncodeChar_ne_nil
  · rw [flatMap_escapeByte]
    exact List.cons_ne_nil _ _

/-- A byte that is kept is an ASCII character. -/
def KeepsAscii (keep : UInt8 → Bool) : Prop := ∀ b, keep b → b.toNat < 0x80

theorem keepsAscii_isUnreserved : KeepsAscii isUnreserved := by
  intro b h
  simp only [isUnreserved, isAlphanumeric, Bool.or_eq_true, Bool.and_eq_true, decide_eq_true_eq,
    beq_iff_eq, UInt8.le_iff_toNat_le, ← UInt8.toNat_inj, UInt8.reduceToNat] at h
  omega

theorem writtenByte_of_keep {keep : UInt8 → Bool} (hkeep : KeepsAscii keep) {b : UInt8}
    (h : keep b) : writtenByte keep b = [b] := by
  rw [writtenByte, if_pos h, List.flatMap_singleton, Utf8.utf8EncodeChar_ofNat (hkeep b h)]

/-- An escape has three bytes. -/
theorem length_writtenByte_le {keep : UInt8 → Bool} (hkeep : KeepsAscii keep) (b : UInt8) :
    (writtenByte keep b).length ≤ 3 := by
  by_cases hb : keep b
  · rw [writtenByte_of_keep hkeep hb]
    exact Nat.le_add_left 1 2
  · rw [writtenByte, if_neg hb, flatMap_escapeByte]
    exact Nat.le_refl 3

/-- A text becomes three times as long at most. -/
theorem length_encode_le {keep : UInt8 → Bool} (hkeep : KeepsAscii keep) (s : String) :
    (Utf8.encode (encode keep s)).length ≤ 3 * (Utf8.encode s).length := by
  rw [encode_encode]
  exact Utf8.length_flatMap_le (length_writtenByte_le hkeep) _

theorem mem_writtenByte {keep : UInt8 → Bool} (hkeep : KeepsAscii keep) {b x : UInt8}
    (h : x ∈ writtenByte keep b) : x = 0x25 ∨ isAlphanumeric x ∨ keep x := by
  by_cases hb : keep b
  · rw [writtenByte_of_keep hkeep hb, List.mem_singleton] at h
    exact .inr (.inr (h ▸ hb))
  · have hhi : b.toNat / 16 < 16 := by have := b.toNat_lt; omega
    have hlo : b.toNat % 16 < 16 := by omega
    rw [writtenByte, if_neg hb, flatMap_escapeByte] at h
    simp only [List.mem_cons, List.not_mem_nil, or_false] at h
    obtain rfl | rfl | rfl := h
    · exact .inl rfl
    · exact .inr (.inl (hexDigit_spec hhi).2.2)
    · exact .inr (.inl (hexDigit_spec hlo).2.2)

theorem decode_writtenByte {keep : UInt8 → Bool} (hkeep : KeepsAscii keep)
    (hpercent : keep 0x25 = false) (b : UInt8) (rest : Bytes) :
    decode (writtenByte keep b ++ rest) = b :: decode rest := by
  by_cases h : keep b
  · have hb : b ≠ 0x25 := by
      rintro rfl
      rw [hpercent] at h
      contradiction
    rw [writtenByte_of_keep hkeep h, List.singleton_append, decode_cons hb]
  · rw [writtenByte, if_neg h, decode_escapeByte]

/-- A text is read back whichever bytes were escaped, if `%` is one of them. -/
theorem decode_encode {keep : UInt8 → Bool} (hkeep : KeepsAscii keep)
    (hpercent : keep 0x25 = false) (s : String) :
    decode (Utf8.encode (encode keep s)) = Utf8.encode s := by
  have h := decode_flatMap (decode_writtenByte hkeep hpercent) (Utf8.encode s) []
  rwa [List.append_nil, decode_nil, List.append_nil, ← encode_encode] at h

/-- An escape brings in only percent signs and hexadecimal digits. -/
theorem mem_of_mem_encode {keep : UInt8 → Bool} (hkeep : KeepsAscii keep) {s : String} {c : Char}
    (h : c ∈ (encode keep s).toList) (hpercent : c ≠ '%') (hdigit : ∀ n < 16, hexDigit n ≠ c) :
    c ∈ s.toList := by
  rw [encode, String.toList_ofList, encodeBytes, List.mem_flatMap] at h
  obtain ⟨b, hb, hc⟩ := h
  split at hc
  · next hkept =>
    have hsmall := hkeep b hkept
    rw [List.mem_singleton] at hc
    rw [Utf8.encode_eq, List.mem_flatMap] at hb
    obtain ⟨d, hd, hb⟩ := hb
    by_cases hd' : d.toNat < 0x80
    · rw [Utf8.utf8EncodeChar_of_lt hd', List.mem_singleton] at hb
      rw [hb, Utf8.ofNat_toNat_ofNat hd'] at hc
      exact hc ▸ hd
    · exact absurd (Utf8.le_of_mem_utf8EncodeChar (Nat.le_of_not_lt hd') hb) (Nat.not_le.2 hsmall)
  · have hhi : b.toNat / 16 < 16 := by have := b.toNat_lt; omega
    have hlo : b.toNat % 16 < 16 := by omega
    simp only [escapeByte, List.mem_cons, List.not_mem_nil, or_false] at hc
    obtain rfl | rfl | rfl := hc
    · exact absurd rfl hpercent
    · exact absurd rfl (hdigit _ hhi)
    · exact absurd rfl (hdigit _ hlo)

/-- Only from an empty text nothing is left. -/
theorem eq_empty_of_encode {keep : UInt8 → Bool} {s : String} (h : encode keep s = "") :
    s = "" := by
  have hchars : encodeBytes keep (Utf8.encode s) = [] := String.ofList_injective h
  have hbytes : Utf8.encode s = [] := by
    refine List.eq_nil_iff_forall_not_mem.2 fun b hb => ?_
    have hwritten := List.flatMap_eq_nil_iff.1 hchars b hb
    split at hwritten
    · exact List.cons_ne_nil _ _ hwritten
    · exact List.cons_ne_nil _ _ hwritten
  exact Utf8.encode_injective (hbytes.trans Utf8.encode_empty.symm)

/-- Nothing is escaped if everything is kept. -/
theorem encode_of_forall_keep {keep : UInt8 → Bool} (hkeep : KeepsAscii keep) {s : String}
    (h : ∀ b ∈ Utf8.encode s, keep b) : encode keep s = s := by
  refine Utf8.encode_injective ?_
  rw [encode_encode]
  generalize Utf8.encode s = bs at h
  induction bs with
  | nil => rfl
  | cons b bs ih =>
    rw [List.flatMap_cons, writtenByte_of_keep hkeep (h b List.mem_cons_self),
      ih fun b hb => h b (List.mem_cons_of_mem _ hb)]
    rfl

end SignIn.Percent
