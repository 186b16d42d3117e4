import SignIn.Proofs.Text.Utf8

/-!
# Reading bytes that may be no text

A reader that only looks for ASCII characters goes through a text byte by byte, and it does so as
well if the bytes are no text. What it has read is then a text in the lossy way alone, where each
ill-formed stretch is one character. The two ways to go through the bytes, byte by byte and stretch
by stretch, meet at every ASCII character, because no stretch and no longer character has an ASCII
byte in it.

## Main definitions

* `Utf8.lossy` — the characters of a byte string, read in the lossy way

## Main results

* `Utf8.lossy_cons_of_lt` — an ASCII byte is a character, whatever stands behind it
* `Utf8.lossy_cons_of_le` — any other byte begins a character of bytes like it
-/

namespace SignIn.Utf8

/-- The characters of a byte string, with U+FFFD for each ill-formed stretch. -/
def lossy (bs : Bytes) : List Char := (chars bs).map (·.getD '\uFFFD')

theorem toList_decodeLossy (bs : Bytes) : (decodeLossy bs).toList = lossy bs :=
  String.toList_ofList

@[simp]
theorem lossy_encode (s : String) : lossy (encode s) = s.toList := by
  rw [← toList_decodeLossy, decodeLossy_encode]

@[simp]
theorem lossy_nil : lossy [] = [] := by rw [lossy, chars_nil, List.map_nil]

/-- The bytes of characters are read as these, whatever stands behind them. -/
theorem lossy_bytes_append (cs : List Char) (rest : Bytes) :
    lossy (bytes cs ++ rest) = cs ++ lossy rest := by
  have hget : (fun c : Option Char => c.getD '\uFFFD') ∘ some = id := rfl
  rw [lossy, bytes, chars_flatMap_append, List.map_append, List.map_map, hget, List.map_id]
  rfl

/-- An ASCII byte is a character. -/
theorem lossy_cons_of_lt {b : UInt8} (h : b.toNat < 0x80) (rest : Bytes) :
    lossy (b :: rest) = Char.ofNat b.toNat :: lossy rest := by
  have hread := lossy_bytes_append [Char.ofNat b.toNat] rest
  rwa [bytes_ofNat h] at hread

/-! ### Bytes that are not ASCII -/

/-- One more byte of a character. -/
theorem of_takeTail_succ {n acc lo hi code : Nat} {bs : Bytes}
    (h : (takeTail (n + 1) acc lo hi bs).1 = some code) :
    ∃ b bs', bs = b :: bs' ∧ lo ≤ b.toNat ∧ b.toNat ≤ hi ∧
      (takeTail n (acc * 64 + b.toNat % 64) 0x80 0xBF bs').1 = some code := by
  cases bs with
  | nil => cases h
  | cons b bs =>
    rw [takeTail] at h
    split at h
    · next hb => exact ⟨b, bs, rfl, hb.1, hb.2, h⟩
    · cases h

/-- The bytes of an ill-formed stretch behind its first one are continuation bytes, and so are
those of a character. -/
theorem le_of_mem_take {n acc lo hi : Nat} {bs : Bytes} (hlo : 0x80 ≤ lo) :
    ∀ b ∈ bs.take (takeTail n acc lo hi bs).2, 0x80 ≤ b.toNat := by
  induction n generalizing acc lo hi bs with
  | zero => simp [takeTail]
  | succ n ih =>
    cases bs with
    | nil => simp
    | cons b bs =>
      rw [takeTail]
      split
      · next hb =>
        rw [List.take_succ_cons]
        exact List.forall_mem_cons.2 ⟨Nat.le_trans hlo hb.1, ih (Nat.le_refl _)⟩
      · simp

theorem le_secondRange (lead : Nat) : 0x80 ≤ (secondRange lead).1 := by
  rw [secondRange]
  split_ifs <;> simp

/-- The code point of several bytes is none of ASCII, and it is no surrogate. -/
theorem code_of_takeTail {lead n code : Nat} {bs : Bytes} (hlead : 0x80 ≤ lead)
    (hn : tailLength lead = some n)
    (h : (takeTail n (lead % (1 <<< (6 - n))) (secondRange lead).1 (secondRange lead).2 bs).1 =
      some code) :
    0x80 ≤ code ∧ (code < 0xD800 ∨ 0xDFFF < code ∧ code < 0x110000) := by
  rw [tailLength] at hn
  split_ifs at hn with hascii htwo hthree hfour
  · omega
  · obtain rfl := Option.some.inj hn
    obtain ⟨b, _, -, -, -, h⟩ := of_takeTail_succ h
    obtain rfl := Option.some.inj h
    simp only [Nat.reduceSub, Nat.reduceShiftLeft]
    omega
  · obtain rfl := Option.some.inj hn
    obtain ⟨b, bs', -, hlo, hhi, h⟩ := of_takeTail_succ h
    obtain ⟨b', _, -, -, -, h⟩ := of_takeTail_succ h
    obtain rfl := Option.some.inj h
    simp only [Nat.reduceSub, Nat.reduceShiftLeft]
    rw [secondRange] at hlo hhi
    split_ifs at hlo hhi <;> simp only at hlo hhi <;> omega
  · obtain rfl := Option.some.inj hn
    obtain ⟨b, bs', -, hlo, hhi, h⟩ := of_takeTail_succ h
    obtain ⟨b', bs'', -, -, -, h⟩ := of_takeTail_succ h
    obtain ⟨b'', _, -, -, -, h⟩ := of_takeTail_succ h
    obtain rfl := Option.some.inj h
    simp only [Nat.reduceSub, Nat.reduceShiftLeft]
    rw [secondRange] at hlo hhi
    split_ifs at hlo hhi <;> simp only at hlo hhi <;> omega

/-- What stands for a byte that is not ASCII is no ASCII character, and it takes only bytes like
it. -/
theorem headChar_of_le {b : UInt8} (h : 0x80 ≤ b.toNat) (rest : Bytes) :
    0x80 ≤ ((headChar b rest).1.getD '\uFFFD').toNat ∧
      ∀ x ∈ rest.take (headChar b rest).2, 0x80 ≤ x.toNat := by
  rw [headChar]
  split
  · simp
  · next n hn =>
    have hzero : n ≠ 0 := by
      rintro rfl
      rw [tailLength] at hn
      split_ifs at hn
      · omega
      all_goals cases hn
    simp only [hzero, if_false]
    refine ⟨?_, le_of_mem_take (le_secondRange _)⟩
    cases hcode : (takeTail n (b.toNat % (1 <<< (6 - n))) (secondRange b.toNat).1
        (secondRange b.toNat).2 rest).1 with
    | none => simp
    | some code =>
      obtain ⟨hlarge, hvalid⟩ := code_of_takeTail h hn hcode
      rw [Option.map_some, Option.getD_some, toNat_ofNat_of_valid hvalid]
      exact hlarge

/-- A byte that is not ASCII begins a character that is not either, and it takes only bytes like
it. -/
theorem lossy_cons_of_le {b : UInt8} (h : 0x80 ≤ b.toNat) (rest : Bytes) :
    ∃ x taken rest', rest = taken ++ rest' ∧ (∀ b ∈ taken, 0x80 ≤ b.toNat) ∧ 0x80 ≤ x.toNat ∧
      lossy (b :: rest) = x :: lossy rest' := by
  obtain ⟨hchar, htaken⟩ := headChar_of_le h rest
  refine ⟨_, _, _, (List.take_append_drop (headChar b rest).2 rest).symm, htaken, hchar, ?_⟩
  rw [lossy, chars_cons, List.map_cons, lossy]

end SignIn.Utf8
