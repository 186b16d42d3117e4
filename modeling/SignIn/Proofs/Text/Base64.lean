import SignIn.Proofs.Except
import SignIn.Proofs.Text.Utf8
import SignIn.Text.Base64

/-!
# Bytes survive base64

Every byte string is read back from its written form. Reading treats the last group of digits
separately, and takes up to four digits for the last group; so a written text whose length is a
multiple of three is one in which the last group happens to be full, and it is this case that the
induction over the groups has to tell apart.

## Main results

* `Base64.decode_encode` — a byte string is read back
* `Base64.digit_of_mem_encode` — a written text consists of digits
* `Base64.of_decodeGroups_eq_ok` — whatever can be read consists of digits
-/

namespace SignIn.Base64

/-- The byte of a digit. -/
def digitByte (n : Nat) : UInt8 := UInt8.ofNat (digit n).toNat

/-- A digit is an ASCII character that is read as its value, and none that has a meaning in a token,
a form or a URL. -/
theorem digit_spec {n : Nat} (h : n < 64) :
    (digit n).toNat < 0x80 ∧ digitValue? (digitByte n) = some n ∧ digitByte n ≠ pad ∧
      digit n ≠ '.' := by
  revert n
  decide

/-- A digit is a letter, a numeral, a hyphen or an underscore. -/
theorem digit_plain {n : Nat} (h : n < 64) :
    (digit n).isAlphanum = true ∨ digit n = '-' ∨ digit n = '_' := by
  revert n
  decide

theorem expectDigit_digitByte {n : Nat} (h : n < 64) (offset : Nat) :
    expectDigit (digitByte n) offset = .ok n := by
  rw [expectDigit, (digit_spec h).2.1]

/-! ### The digits of a byte string -/

theorem encodeBytes_eq_nil {bs : Bytes} (h : encodeBytes bs = []) : bs = [] := by
  unfold encodeBytes at h
  split at h
  · rfl
  · contradiction
  · contradiction
  · contradiction

/-- Every character of a written byte string is a digit. -/
theorem digit_of_mem_encodeBytes {bs : Bytes} {c : Char} (h : c ∈ encodeBytes bs) :
    ∃ n < 64, c = digit n := by
  fun_induction encodeBytes bs with
  | case1 => exact absurd h List.not_mem_nil
  | case2 a =>
    have := a.toNat_lt
    simp only [List.mem_cons, List.not_mem_nil, or_false] at h
    obtain rfl | rfl := h
    · exact ⟨_, by omega, rfl⟩
    · exact ⟨_, by omega, rfl⟩
  | case3 a b =>
    have := a.toNat_lt
    have := b.toNat_lt
    simp only [List.mem_cons, List.not_mem_nil, or_false] at h
    obtain rfl | rfl | rfl := h
    · exact ⟨_, by omega, rfl⟩
    · exact ⟨_, by omega, rfl⟩
    · exact ⟨_, by omega, rfl⟩
  | case4 a b c rest ih =>
    have := a.toNat_lt
    have := b.toNat_lt
    have := c.toNat_lt
    simp only [List.mem_cons] at h
    obtain rfl | rfl | rfl | rfl | h := h
    · exact ⟨_, by omega, rfl⟩
    · exact ⟨_, by omega, rfl⟩
    · exact ⟨_, by omega, rfl⟩
    · exact ⟨_, by omega, rfl⟩
    · exact ih h

theorem digit_of_mem_encode {bs : Bytes} {c : Char} (h : c ∈ (encode bs).toList) :
    ∃ n < 64, c = digit n := by
  rw [encode, String.toList_ofList] at h
  exact digit_of_mem_encodeBytes h

/-- A written text consists of letters, numerals, hyphens and underscores. -/
theorem plain_of_mem_encode {bs : Bytes} {c : Char} (h : c ∈ (encode bs).toList) :
    c.isAlphanum = true ∨ c = '-' ∨ c = '_' := by
  obtain ⟨n, hn, rfl⟩ := digit_of_mem_encode h
  exact digit_plain hn

theorem encode_encode (bs : Bytes) :
    Utf8.encode (encode bs) = (encodeBytes bs).map fun c => UInt8.ofNat c.toNat := by
  refine Utf8.encode_ofList_of_lt fun c hc => ?_
  obtain ⟨n, hn, rfl⟩ := digit_of_mem_encodeBytes hc
  exact (digit_spec hn).1

/-- Each byte becomes a digit at least. -/
theorem length_le_encode (bs : Bytes) : bs.length ≤ (Utf8.encode (encode bs)).length := by
  rw [encode_encode, List.length_map]
  fun_induction encodeBytes bs with
  | case4 a b c rest ih =>
    simp only [List.length_cons]
    omega
  | _ => simp

/-- Three bytes become four digits, and a single one becomes two. -/
theorem length_encode_le (bs : Bytes) : (Utf8.encode (encode bs)).length ≤ 2 * bs.length := by
  rw [encode_encode, List.length_map]
  fun_induction encodeBytes bs with
  | case4 a b c rest ih =>
    simp only [List.length_cons]
    omega
  | _ => simp

/-! ### Reading -/

theorem lastDigits_map (digits : List Nat) (h : ∀ n ∈ digits, n < 64) (offset i : Nat) :
    lastDigits offset i none (digits.map digitByte) = .ok (digits, false) := by
  induction digits generalizing i with
  | nil => rfl
  | cons n digits ih =>
    have hn := h n List.mem_cons_self
    rw [List.map_cons, lastDigits, if_neg (digit_spec hn).2.2.1]
    simp only [expectDigit_digitByte hn, ih fun n hn => h n (List.mem_cons_of_mem _ hn)]
    rfl

/-- The byte of two neighbouring digits that were made of it and another one. -/
theorem ofNat_eq {n : Nat} {b : UInt8} (h : n = b.toNat) : UInt8.ofNat n = b := by
  rw [h, UInt8.ofNat_toNat]

theorem groupBytes_eq (a b c : UInt8) :
    groupBytes (a.toNat / 4) (a.toNat % 4 * 16 + b.toNat / 16) (b.toNat % 16 * 4 + c.toNat / 64)
      (c.toNat % 64) = [a, b, c] := by
  have := a.toNat_lt
  have := b.toNat_lt
  have := c.toNat_lt
  rw [groupBytes, ofNat_eq (b := a) (by omega), ofNat_eq (b := b) (by omega),
    ofNat_eq (b := c) (by omega)]

/-- A last group of two digits. -/
theorem decodeLast_two {a b : Nat} (ha : a < 64) (hb : b < 64) (hlast : b % 16 = 0) (offset : Nat) :
    decodeLast offset [digitByte a, digitByte b] = .ok [UInt8.ofNat (a * 4 + b / 16)] := by
  have hdigits : lastDigits offset 0 none [digitByte a, digitByte b] = .ok ([a, b], false) :=
    lastDigits_map [a, b] (by simp [ha, hb]) offset 0
  rw [decodeLast, hdigits]
  simp [bind, Except.bind, pure, Except.pure, hlast]

/-- A last group of three digits. -/
theorem decodeLast_three {a b c : Nat} (ha : a < 64) (hb : b < 64) (hc : c < 64)
    (hlast : c % 4 = 0) (offset : Nat) :
    decodeLast offset [digitByte a, digitByte b, digitByte c] =
      .ok [UInt8.ofNat (a * 4 + b / 16), UInt8.ofNat (b % 16 * 16 + c / 4)] := by
  have hdigits : lastDigits offset 0 none [digitByte a, digitByte b, digitByte c] =
      .ok ([a, b, c], false) := lastDigits_map [a, b, c] (by simp [ha, hb, hc]) offset 0
  rw [decodeLast, hdigits]
  simp [bind, Except.bind, pure, Except.pure, hlast]

/-- A last group of four digits, which is a full one. -/
theorem decodeLast_four {a b c d : Nat} (ha : a < 64) (hb : b < 64) (hc : c < 64) (hd : d < 64)
    (offset : Nat) :
    decodeLast offset [digitByte a, digitByte b, digitByte c, digitByte d] =
      .ok (groupBytes a b c d) := by
  have hdigits : lastDigits offset 0 none [digitByte a, digitByte b, digitByte c, digitByte d] =
      .ok ([a, b, c, d], false) := lastDigits_map [a, b, c, d] (by simp [ha, hb, hc, hd]) offset 0
  rw [decodeLast, hdigits]
  simp [bind, Except.bind, pure, Except.pure]

/-- A full group with more digits behind it. -/
theorem decodeGroups_full {a b c d : Nat} (ha : a < 64) (hb : b < 64) (hc : c < 64) (hd : d < 64)
    (offset : Nat) {rest bs : Bytes} (hrest : rest ≠ [])
    (h : decodeGroups (offset + 4) rest = .ok bs) :
    decodeGroups offset (digitByte a :: digitByte b :: digitByte c :: digitByte d :: rest) =
      .ok (groupBytes a b c d ++ bs) := by
  obtain ⟨e, rest, rfl⟩ := List.exists_cons_of_ne_nil hrest
  rw [decodeGroups, expectDigit_digitByte ha, expectDigit_digitByte hb, expectDigit_digitByte hc,
    expectDigit_digitByte hd, h]
  rfl

/-- The digits of whole groups and of the rest are read back. -/
theorem decodeGroups_encodeBytes (bs : Bytes) (offset : Nat) :
    decodeGroups offset ((encodeBytes bs).map fun c => UInt8.ofNat c.toNat) = .ok bs := by
  fun_induction encodeBytes bs generalizing offset with
  | case1 => rfl
  | case2 a =>
    have := a.toNat_lt
    refine (decodeLast_two (by omega) (by omega) (by omega) offset).trans ?_
    rw [ofNat_eq (b := a) (by omega)]
  | case3 a b =>
    have := a.toNat_lt
    have := b.toNat_lt
    refine (decodeLast_three (by omega) (by omega) (by omega) (by omega) offset).trans ?_
    rw [ofNat_eq (b := a) (by omega), ofNat_eq (b := b) (by omega)]
  | case4 a b c rest ih =>
    have := a.toNat_lt
    have := b.toNat_lt
    have := c.toNat_lt
    cases rest with
    | nil =>
      refine (decodeLast_four (by omega) (by omega) (by omega) (by omega) offset).trans ?_
      rw [groupBytes_eq]
    | cons d rest =>
      have hrest : (encodeBytes (d :: rest)).map (fun c => UInt8.ofNat c.toNat) ≠ [] := by
        intro hnil
        exact List.cons_ne_nil d rest (encodeBytes_eq_nil (List.map_eq_nil_iff.1 hnil))
      refine (decodeGroups_full (by omega) (by omega) (by omega) (by omega) offset hrest
        (ih (offset + 4))).trans ?_
      rw [groupBytes_eq]
      rfl

/-- A byte string is read back. -/
@[simp]
theorem decode_encode (bs : Bytes) : decode (encode bs) = .ok bs := by
  rw [decode, encode_encode, decodeBytes]
  split
  · next b hb =>
    obtain ⟨c, hc, rfl⟩ := List.mem_map.1 (List.mem_of_getLast? hb)
    obtain ⟨n, hn, rfl⟩ := digit_of_mem_encodeBytes hc
    have hdigit : digitValue? (UInt8.ofNat (digit n).toNat) = some n := (digit_spec hn).2.1
    rw [if_neg (by simp [hdigit])]
    exact decodeGroups_encodeBytes bs 0
  · next hnone =>
    rw [List.getLast?_eq_none_iff, List.map_eq_nil_iff] at hnone
    rw [encodeBytes_eq_nil hnone]

/-! ### What can be read -/

theorem of_expectDigit_eq_ok {b : UInt8} {offset v : Nat} (h : expectDigit b offset = .ok v) :
    (digitValue? b).isSome := by
  rw [expectDigit] at h
  split at h
  · next hdigit =>
    rw [hdigit]
    rfl
  · cases h

/-- A last group that is not padded consists of digits. -/
theorem of_lastDigits_eq_ok {group : Bytes} {offset i : Nat} {padAt : Option Nat}
    {digits : List Nat} (h : lastDigits offset i padAt group = .ok (digits, false)) :
    padAt = none ∧ ∀ b ∈ group, (digitValue? b).isSome := by
  induction group generalizing i padAt digits with
  | nil =>
    cases padAt with
    | none => exact ⟨rfl, fun b hb => absurd hb List.not_mem_nil⟩
    | some j => cases h
  | cons b group ih =>
    unfold lastDigits at h
    split at h
    · split at h
      · cases h
      · -- Behind a byte that pads, the group is padded.
        obtain ⟨hpad, -⟩ := ih h
        cases padAt with
        | none => cases hpad
        | some j => cases hpad
    · cases padAt with
      | some j => cases h
      | none =>
        obtain ⟨v, hdigit, h⟩ := of_bind_eq_ok h
        obtain ⟨⟨digits, padded⟩, hlast, h⟩ := of_bind_eq_ok h
        obtain ⟨-, rfl⟩ := Prod.mk.inj (Except.ok.inj h)
        obtain ⟨-, hgroup⟩ := ih hlast
        exact ⟨rfl, List.forall_mem_cons.2 ⟨of_expectDigit_eq_ok hdigit, hgroup⟩⟩

theorem of_decodeLast_eq_ok {group bs : Bytes} {offset : Nat}
    (h : decodeLast offset group = .ok bs) : ∀ b ∈ group, (digitValue? b).isSome := by
  obtain ⟨⟨digits, padded⟩, hdigits, h⟩ := of_bind_eq_ok h
  cases padded with
  | false => exact (of_lastDigits_eq_ok hdigits).2
  | true =>
    dsimp only at h
    split at h
    · cases h
    · rw [if_pos rfl] at h
      cases h

/-- Whatever can be read consists of digits. -/
theorem of_decodeGroups_eq_ok {text bs : Bytes} {offset : Nat}
    (h : decodeGroups offset text = .ok bs) : ∀ b ∈ text, (digitValue? b).isSome := by
  fun_induction decodeGroups offset text generalizing bs with
  | case1 offset a b c d e rest ih =>
    obtain ⟨_, ha, h⟩ := of_bind_eq_ok h
    obtain ⟨_, hb, h⟩ := of_bind_eq_ok h
    obtain ⟨_, hc, h⟩ := of_bind_eq_ok h
    obtain ⟨_, hd, h⟩ := of_bind_eq_ok h
    obtain ⟨_, hrest, -⟩ := of_bind_eq_ok h
    simp only [List.forall_mem_cons]
    exact ⟨of_expectDigit_eq_ok ha, of_expectDigit_eq_ok hb, of_expectDigit_eq_ok hc,
      of_expectDigit_eq_ok hd, List.forall_mem_cons.1 (ih hrest)⟩
  | case2 offset group _ => exact of_decodeLast_eq_ok h

/-- A text that can be read has no dot. -/
theorem not_mem_of_decode_eq_ok {s : String} {bs : Bytes} (h : decode s = .ok bs) :
    '.' ∉ s.toList := by
  intro hdot
  have hbyte : 0x2E ∈ Utf8.encode s := by
    rw [Utf8.encode_eq]
    exact List.mem_flatMap.2 ⟨'.', hdot, by decide⟩
  have hdigit : (digitValue? 0x2E).isSome := by
    rw [decode, decodeBytes] at h
    split at h
    · split at h
      · cases h
      · exact of_decodeGroups_eq_ok h _ hbyte
    · next hnone =>
      rw [List.getLast?_eq_none_iff.1 hnone] at hbyte
      exact absurd hbyte List.not_mem_nil
  contradiction

end SignIn.Base64
