import Mathlib.Tactic.SplitIfs
import SignIn.Text.Utf8

/-!
# Texts survive their bytes

A text that was written as bytes is the text that is read back, in the strict and in the lossy way
alike. Nothing is assumed about the text.

The bytes of a character are given by ranges of code points, and a reader tells the ranges apart by
the lead byte. So the proof goes through the four lengths of a character once, in
`Utf8.headChar_utf8EncodeChar`; everything else is an induction over the characters.

## Main results

* `Utf8.encode_eq` — the bytes of a text are those of its characters
* `Utf8.decodeLossy_encode`, `Utf8.decode?_encode` — a text is read back
-/

namespace SignIn.Utf8

/-! ### The bytes of a text -/

theorem toList_loop (bs : ByteArray) (i : Nat) (acc : Bytes) :
    ByteArray.toList.loop bs i acc = acc.reverse ++ bs.data.toList.drop i := by
  fun_induction ByteArray.toList.loop bs i acc with
  | case1 i acc hi ih =>
    have hlen : i < bs.data.toList.length := hi
    have hget : bs.get! i = bs.data.toList[i] := by
      simp [ByteArray.get!, getElem!_pos bs.data i hi]
    rw [ih, List.drop_eq_getElem_cons hlen, hget]
    simp
  | case2 i acc hi =>
    have hlen : bs.data.toList.length ≤ i := Nat.le_of_not_lt hi
    rw [List.drop_eq_nil_of_le hlen, List.append_nil]

theorem toList_eq (bs : ByteArray) : bs.toList = bs.data.toList := by
  rw [ByteArray.toList, toList_loop]
  rfl

/-- The bytes of a text are those of its characters, one character behind the other. -/
theorem encode_eq (s : String) : encode s = s.toList.flatMap String.utf8EncodeChar := by
  rw [encode, toList_eq, ← String.utf8Encode_toList, List.utf8Encode, List.toList_data_toByteArray]

theorem encode_ofList (cs : List Char) :
    encode (String.ofList cs) = cs.flatMap String.utf8EncodeChar := by
  rw [encode_eq, String.toList_ofList]

@[simp]
theorem encode_empty : encode "" = [] := by simp [encode_eq]

@[simp]
theorem encode_singleton (c : Char) : encode (String.singleton c) = String.utf8EncodeChar c := by
  simp [encode_eq]

@[simp]
theorem encode_append (s t : String) : encode (s ++ t) = encode s ++ encode t := by
  simp [encode_eq]

/-- The bytes of a list of characters. -/
def bytes (cs : List Char) : Bytes := cs.flatMap String.utf8EncodeChar

theorem encode_eq_bytes (s : String) : encode s = bytes s.toList := encode_eq s

@[simp]
theorem bytes_nil : bytes [] = [] := rfl

theorem bytes_cons (c : Char) (cs : List Char) :
    bytes (c :: cs) = String.utf8EncodeChar c ++ bytes cs := rfl

@[simp]
theorem bytes_append (cs ds : List Char) : bytes (cs ++ ds) = bytes cs ++ bytes ds :=
  List.flatMap_append

/-- A number that is no surrogate is the code point of a character. -/
theorem toNat_ofNat_of_valid {n : Nat} (h : n < 0xD800 ∨ 0xDFFF < n ∧ n < 0x110000) :
    (Char.ofNat n).toNat = n := by
  have hvalid : n.isValidChar := h
  rw [Char.ofNat, dif_pos hvalid]
  rfl

theorem toNat_ofNat {n : Nat} (h : n < 0xD800) : (Char.ofNat n).toNat = n :=
  toNat_ofNat_of_valid (.inl h)

/-- The character of a byte has the number of the byte. -/
theorem toNat_ofNat_toNat (b : UInt8) : (Char.ofNat b.toNat).toNat = b.toNat :=
  toNat_ofNat (by have := b.toNat_lt; omega)

/-- A byte is compared with a character by its number. -/
theorem ofNat_toNat_eq_iff {b : UInt8} {c : Char} : Char.ofNat b.toNat = c ↔ b.toNat = c.toNat := by
  constructor
  · rintro rfl
    exact (toNat_ofNat_toNat b).symm
  · intro h
    rw [h, Char.ofNat_toNat]

/-- A byte is known from its character. -/
theorem eq_of_char {b : UInt8} {c : Char} (h : Char.ofNat b.toNat = c) :
    b = UInt8.ofNat c.toNat := by
  rw [← h, toNat_ofNat_toNat, UInt8.ofNat_toNat]

theorem ofNat_toNat_ofNat {c : Char} (h : c.toNat < 0x80) :
    Char.ofNat (UInt8.ofNat c.toNat).toNat = c := by
  rw [ofNat_toNat_eq_iff, UInt8.toNat_ofNat']
  omega

/-- The only byte of an ASCII character is its code point. -/
theorem utf8EncodeChar_of_lt {c : Char} (h : c.toNat < 0x80) :
    String.utf8EncodeChar c = [UInt8.ofNat c.toNat] :=
  if_pos (show c.val.toNat ≤ 0x7f from Nat.le_of_lt_succ h)

theorem bytes_cons_of_lt {c : Char} (h : c.toNat < 0x80) (cs : List Char) :
    bytes (c :: cs) = UInt8.ofNat c.toNat :: bytes cs := by
  rw [bytes_cons, utf8EncodeChar_of_lt h]
  rfl

/-- A byte below 0x80 is the only byte of its character. -/
theorem utf8EncodeChar_ofNat {b : UInt8} (h : b.toNat < 0x80) :
    String.utf8EncodeChar (Char.ofNat b.toNat) = [b] := by
  rw [utf8EncodeChar_of_lt (by rwa [toNat_ofNat_toNat]), toNat_ofNat_toNat, UInt8.ofNat_toNat]

theorem bytes_ofNat {b : UInt8} (h : b.toNat < 0x80) (cs : List Char) :
    bytes (Char.ofNat b.toNat :: cs) = b :: bytes cs := by
  rw [bytes_cons, utf8EncodeChar_ofNat h]
  rfl

/-- No byte of another character is one of an ASCII character. -/
theorem le_of_mem_utf8EncodeChar {c : Char} (h : 0x80 ≤ c.toNat) {b : UInt8}
    (hb : b ∈ String.utf8EncodeChar c) : 0x80 ≤ b.toNat := by
  have hvalid : c.val.toNat < 0xD800 ∨ 0xDFFF < c.val.toNat ∧ c.val.toNat < 0x110000 := c.valid
  have hlarge : 0x80 ≤ c.val.toNat := h
  unfold String.utf8EncodeChar at hb
  generalize c.val.toNat = v at *
  simp only at hb
  split_ifs at hb with h1 h2 h3
  · omega
  all_goals
    simp only [List.mem_cons, List.not_mem_nil, or_false] at hb
    rcases hb with rfl | rfl | rfl | rfl
  all_goals
    rw [UInt8.toNat_ofNat']
    omega

/-- Whether a byte stands behind the first one of a character can be seen from the byte. -/
theorem exists_lead (c : Char) : ∃ lead tail, String.utf8EncodeChar c = lead :: tail ∧
    (lead.toNat < 0x80 ∨ 0xC0 ≤ lead.toNat) ∧ ∀ b ∈ tail, 0x80 ≤ b.toNat ∧ b.toNat < 0xC0 := by
  have hvalid : c.val.toNat < 0xD800 ∨ 0xDFFF < c.val.toNat ∧ c.val.toNat < 0x110000 := c.valid
  unfold String.utf8EncodeChar
  generalize c.val.toNat = v at *
  simp only
  refine ⟨_, _, (List.cons_head_tail (by split_ifs <;> simp)).symm, ?_, ?_⟩
  · split_ifs <;> (simp only [List.head_cons, UInt8.toNat_ofNat']; omega)
  · split_ifs <;>
      simp only [List.tail_cons, List.forall_mem_cons, List.not_mem_nil, false_implies,
        implies_true, and_true, UInt8.toNat_ofNat']
    all_goals omega

/-! ### Lengths -/

/-- If something is written for each of some things, there are as many bytes as things at least. -/
theorem length_le_flatMap {α : Type} {write : α → Bytes} (h : ∀ a, write a ≠ []) (as : List α) :
    as.length ≤ (as.flatMap write).length := by
  induction as with
  | nil => exact Nat.le_refl 0
  | cons a as ih =>
    have ha := List.length_pos_iff.2 (h a)
    rw [List.flatMap_cons, List.length_append, List.length_cons]
    omega

/-- A text has a byte for each character at least. -/
theorem length_le_encode_ofList (cs : List Char) :
    cs.length ≤ (encode (String.ofList cs)).length := by
  rw [encode_ofList]
  exact length_le_flatMap (fun _ => String.utf8EncodeChar_ne_nil) cs

/-- If at most `n` bytes are written for each byte, there are `n` times as many at most. -/
theorem length_flatMap_le {write : UInt8 → Bytes} {n : Nat} (h : ∀ b, (write b).length ≤ n)
    (bs : Bytes) : (bs.flatMap write).length ≤ n * bs.length := by
  induction bs with
  | nil => exact Nat.le_refl _
  | cons b bs ih =>
    rw [List.flatMap_cons, List.length_append, List.length_cons, Nat.mul_succ, Nat.add_comm]
    exact Nat.add_le_add ih (h b)

/-- Texts that are joined are as long as each of them at least. -/
theorem length_le_intercalate {separator text : String} {texts : List String} (h : text ∈ texts) :
    (encode text).length ≤ (encode (String.intercalate separator texts)).length := by
  induction texts with
  | nil => exact absurd h List.not_mem_nil
  | cons first texts ih =>
    cases texts with
    | nil =>
      obtain rfl := List.mem_singleton.1 h
      exact Nat.le_of_eq (by rw [String.intercalate_singleton])
    | cons second texts =>
      simp only [String.intercalate_cons_cons, encode_append, List.length_append]
      rcases List.mem_cons.1 h with rfl | h
      · omega
      · exact Nat.le_add_left_of_le (ih h)

/-- A text of ASCII characters has one byte for each of them. -/
theorem encode_ofList_of_lt {cs : List Char} (h : ∀ c ∈ cs, c.toNat < 0x80) :
    encode (String.ofList cs) = cs.map fun c => UInt8.ofNat c.toNat := by
  rw [encode_ofList]
  induction cs with
  | nil => rfl
  | cons c cs ih =>
    rw [List.flatMap_cons, utf8EncodeChar_of_lt (h c List.mem_cons_self),
      ih fun c hc => h c (List.mem_cons_of_mem _ hc)]
    rfl

/-- An ASCII character takes one byte each time. -/
theorem length_encode_replicate {c : Char} (h : c.toNat < 0x80) (n : Nat) :
    (encode (String.ofList (List.replicate n c))).length = n := by
  have hascii : ∀ x ∈ List.replicate n c, x.toNat < 0x80 := by
    intro x hx
    rw [(List.mem_replicate.1 hx).2]
    exact h
  rw [encode_ofList_of_lt hascii, List.length_map, List.length_replicate]

/-! ### One character -/

/-- A continuation byte gives six bits to the code point. -/
theorem takeTail_continuation {n acc lo hi code : Nat} {bs : Bytes}
    (hlo : lo ≤ code % 0x40 + 0x80) (hhi : code % 0x40 + 0x80 ≤ hi) :
    takeTail (n + 1) acc lo hi (UInt8.ofNat (code % 0x40 + 0x80) :: bs) =
      ((takeTail n (acc * 0x40 + code % 0x40) 0x80 0xBF bs).1,
        (takeTail n (acc * 0x40 + code % 0x40) 0x80 0xBF bs).2 + 1) := by
  have hbyte : (UInt8.ofNat (code % 0x40 + 0x80)).toNat = code % 0x40 + 0x80 := by
    rw [UInt8.toNat_ofNat']
    omega
  have hbits : (code % 0x40 + 0x80) % 0x40 = code % 0x40 := by omega
  rw [takeTail, hbyte, if_pos ⟨hlo, hhi⟩, hbits]

/-- The lead byte of a longer character gives its lowest bits to the code point. -/
theorem headChar_lead {lead n size : Nat} (hlead : lead < 0x100)
    (hn : tailLength lead = some (n + 1)) (hsize : 1 <<< (5 - n) = size) (rest : Bytes) :
    headChar (UInt8.ofNat lead) rest =
      ((takeTail (n + 1) (lead % size) (secondRange lead).1 (secondRange lead).2 rest).1.map
          Char.ofNat,
        (takeTail (n + 1) (lead % size) (secondRange lead).1 (secondRange lead).2 rest).2) := by
  have hbyte : (UInt8.ofNat lead).toNat = lead := by
    rw [UInt8.toNat_ofNat']
    omega
  have hbits : 6 - (n + 1) = 5 - n := by omega
  simp only [headChar, hbyte, hn, Nat.succ_ne_zero, if_false, hbits, hsize]

/-- The byte behind the lead byte of a character with three bytes is in its range. -/
theorem secondRange_three {v : Nat} (h : 0x800 ≤ v) (h' : v < 0x10000)
    (hvalid : v < 0xD800 ∨ 0xDFFF < v) :
    (secondRange (v / 4096 % 0x10 + 0xe0)).1 ≤ v / 64 % 0x40 + 0x80 ∧
      v / 64 % 0x40 + 0x80 ≤ (secondRange (v / 4096 % 0x10 + 0xe0)).2 := by
  rw [secondRange]
  split_ifs <;> simp only <;> omega

/-- The byte behind the lead byte of a character with four bytes is in its range. -/
theorem secondRange_four {v : Nat} (h : 0x10000 ≤ v) (h' : v < 0x110000) :
    (secondRange (v / 262144 % 0x08 + 0xf0)).1 ≤ v / 4096 % 0x40 + 0x80 ∧
      v / 4096 % 0x40 + 0x80 ≤ (secondRange (v / 262144 % 0x08 + 0xf0)).2 := by
  rw [secondRange]
  split_ifs <;> simp only <;> omega

/-- The bytes of a character are read back as that character, whatever stands behind them. -/
theorem headChar_utf8EncodeChar (c : Char) (rest : Bytes) :
    ∃ lead tail, String.utf8EncodeChar c = lead :: tail ∧
      headChar lead (tail ++ rest) = (some c, tail.length) := by
  have hvalid : c.val.toNat < 0xD800 ∨ 0xDFFF < c.val.toNat ∧ c.val.toNat < 0x110000 := c.valid
  have hchar : Char.ofNat c.val.toNat = c := Char.ofNat_toNat c
  unfold String.utf8EncodeChar
  generalize c.val.toNat = v at *
  simp only
  refine ⟨_, _, (List.cons_head_tail (by split_ifs <;> simp)).symm, ?_⟩
  -- One case for each of the four lengths.
  split_ifs with h1 h2 h3
  · have hbyte : (UInt8.ofNat v).toNat = v := by
      rw [UInt8.toNat_ofNat']
      omega
    have hlength : tailLength v = some 0 := if_pos (by omega)
    simp only [headChar, List.head_cons, hbyte, hlength]
    simp [takeTail, hchar]
  · have hlength : tailLength (v / 64 % 0x20 + 0xc0) = some 1 := by
      rw [tailLength, if_neg (by omega), if_pos (by omega)]
    have hrange : secondRange (v / 64 % 0x20 + 0xc0) = (0x80, 0xBF) := by
      rw [secondRange]
      split_ifs <;> first | rfl | omega
    have hcode : (v / 64 % 0x20 + 0xc0) % 0x20 * 0x40 + v % 0x40 = v := by omega
    rw [List.head_cons, List.tail_cons, List.cons_append,
      headChar_lead (by omega) hlength (rfl : _ = 0x20), hrange,
      takeTail_continuation (by omega) (by omega), takeTail, hcode,
      Option.map_some, hchar]
    rfl
  · have hlength : tailLength (v / 4096 % 0x10 + 0xe0) = some 2 := by
      rw [tailLength, if_neg (by omega), if_neg (by omega), if_pos (by omega)]
    obtain ⟨hlo, hhi⟩ := secondRange_three (v := v) (by omega) (by omega) (by omega)
    have hcode :
        ((v / 4096 % 0x10 + 0xe0) % 0x10 * 0x40 + v / 64 % 0x40) * 0x40 + v % 0x40 = v := by
      omega
    rw [List.head_cons, List.tail_cons, List.cons_append,
      headChar_lead (by omega) hlength (rfl : _ = 0x10),
      takeTail_continuation hlo hhi, List.cons_append,
      takeTail_continuation (by omega) (by omega), takeTail, hcode,
      Option.map_some, hchar]
    rfl
  · have hlength : tailLength (v / 262144 % 0x08 + 0xf0) = some 3 := by
      rw [tailLength, if_neg (by omega), if_neg (by omega), if_neg (by omega), if_pos (by omega)]
    obtain ⟨hlo, hhi⟩ := secondRange_four (v := v) (by omega) (by omega)
    have hcode : (((v / 262144 % 0x08 + 0xf0) % 0x08 * 0x40 + v / 4096 % 0x40) * 0x40 +
        v / 64 % 0x40) * 0x40 + v % 0x40 = v := by omega
    rw [List.head_cons, List.tail_cons, List.cons_append,
      headChar_lead (by omega) hlength (rfl : _ = 0x08),
      takeTail_continuation hlo hhi, List.cons_append,
      takeTail_continuation (by omega) (by omega), List.cons_append,
      takeTail_continuation (by omega) (by omega), takeTail, hcode,
      Option.map_some, hchar]
    rfl

/-! ### Reading texts -/

/-- The bytes of characters are read back as these characters, whatever stands behind them. -/
theorem chars_flatMap_append (cs : List Char) (rest : Bytes) :
    chars (cs.flatMap String.utf8EncodeChar ++ rest) = cs.map some ++ chars rest := by
  induction cs with
  | nil => rfl
  | cons c cs ih =>
    obtain ⟨lead, tail, hbytes, hhead⟩ :=
      headChar_utf8EncodeChar c (cs.flatMap String.utf8EncodeChar ++ rest)
    rw [List.flatMap_cons, hbytes, List.append_assoc, List.cons_append, chars_cons, hhead,
      List.drop_left, ih]
    rfl

theorem chars_encode_append (s : String) (rest : Bytes) :
    chars (encode s ++ rest) = s.toList.map some ++ chars rest := by
  rw [encode_eq, chars_flatMap_append]

/-- A text is read back in the lossy way. -/
@[simp]
theorem decodeLossy_encode (s : String) : decodeLossy (encode s) = s := by
  have hchars := chars_encode_append s []
  rw [List.append_nil, chars_nil, List.append_nil] at hchars
  have hget : (fun c : Option Char => c.getD '\uFFFD') ∘ some = id := rfl
  rw [decodeLossy, hchars, List.map_map, hget, List.map_id, String.ofList_toList]

/-- A text is read back in the strict way. -/
@[simp]
theorem decode?_encode (s : String) : decode? (encode s) = some s := by
  have hbytes : (⟨(encode s).toArray⟩ : ByteArray) = s.toByteArray := by
    rw [encode, toList_eq]
  rw [decode?, hbytes, String.fromUTF8?, dif_pos s.isValidUTF8]
  rfl

/-- What is read in the strict way has these bytes. -/
theorem eq_encode_of_decode? {bs : Bytes} {s : String} (h : decode? bs = some s) :
    bs = encode s := by
  rw [decode?, String.fromUTF8?] at h
  split at h
  · obtain rfl := Option.some.inj h
    rw [encode, toList_eq]
    rfl
  · cases h

/-- Where a character ends can be seen from its bytes. -/
theorem utf8EncodeChar_append_inj {c d : Char} {bs ds : Bytes}
    (h : String.utf8EncodeChar c ++ bs = String.utf8EncodeChar d ++ ds) : c = d ∧ bs = ds := by
  obtain ⟨lead, tail, hc, hread⟩ := headChar_utf8EncodeChar c bs
  obtain ⟨lead', tail', hd, hread'⟩ := headChar_utf8EncodeChar d ds
  rw [hc, hd, List.cons_append, List.cons_append] at h
  obtain ⟨rfl, htail⟩ := List.cons.inj h
  rw [htail, hread'] at hread
  obtain ⟨hchar, -⟩ := Prod.mk.inj hread
  obtain rfl := Option.some.inj hchar
  rw [hc] at hd
  obtain ⟨-, rfl⟩ := List.cons.inj hd
  exact ⟨rfl, List.append_cancel_left htail⟩

theorem encode_injective {s t : String} (h : encode s = encode t) : s = t := by
  rw [← decodeLossy_encode s, h, decodeLossy_encode]

end SignIn.Utf8
