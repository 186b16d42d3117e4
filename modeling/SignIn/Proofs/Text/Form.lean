import Mathlib.Algebra.GroupWithZero.Nat
import Mathlib.Data.Bool.AllAny
import SignIn.Proofs.Text.Percent
import SignIn.Text.Form

/-!
# Forms are read back

A form is read as the pairs that were written, whatever its names and values are. There are two ways
to write a name or value, the one of forms and the one of URIs, and both occur in queries. What
reading needs to know about them is the same, and is `Form.Writes`.

## Main definitions

* `Form.Writes` — how a text can stand in a form

## Main results

* `Form.ofText_append` — reading goes on behind `&`
* `Form.ofText_intercalate` — pairs that are written in any of these ways are read back
* `Form.ofText_encode` — written forms are read back
-/

namespace SignIn.Form

/-! ### Names and values -/

/-- A `+` is read as a space. -/
def unplus (b : UInt8) : UInt8 := if b = 0x2B then 0x20 else b

theorem decodeText_eq (bs : Bytes) :
    decodeText bs = Utf8.decodeLossy (Percent.decode (bs.map unplus)) := rfl

theorem map_unplus {bs : Bytes} (h : 0x2B ∉ bs) : bs.map unplus = bs := by
  have hid : ∀ b ∈ bs, unplus b = id b := by
    intro b hb
    exact if_neg (fun e : b = 0x2B => h (e ▸ hb))
  rw [List.map_congr_left hid, List.map_id]

/-- `written` stands for `text`, as a name or value of a form. -/
structure Writes (written text : String) : Prop where
  reads : decodeText (Utf8.encode written) = text
  noAmpersand : 0x26 ∉ Utf8.encode written
  noEquals : 0x3D ∉ Utf8.encode written

/-- The bytes that have a meaning in a form, but for `%`. -/
def marks : Bytes := [0x26, 0x2B, 0x3D]

/-- An escape or a kept byte is none of the marks. -/
theorem not_mem_writtenByte {keep : UInt8 → Bool} (hkeep : Percent.KeepsAscii keep)
    (hmarks : ∀ x ∈ marks, keep x = false) {x : UInt8} (hx : x ∈ marks) (b : UInt8) :
    x ∉ Percent.writtenByte keep b := by
  intro hmem
  have hplain : ∀ x ∈ marks, x ≠ 0x25 ∧ Percent.isAlphanumeric x = false :=
    List.all_iff_forall_prop.1 (by decide)
  obtain h | h | h := Percent.mem_writtenByte hkeep hmem
  · exact (hplain x hx).1 h
  · simp [(hplain x hx).2] at h
  · simp [hmarks x hx] at h

/-- A text can be written with escapes for all bytes that have a meaning in a form. -/
theorem writes_encode {keep : UInt8 → Bool} (hkeep : Percent.KeepsAscii keep)
    (hpercent : keep 0x25 = false) (hmarks : ∀ x ∈ marks, keep x = false) (s : String) :
    Writes (Percent.encode keep s) s := by
  have hbytes : ∀ x ∈ marks, x ∉ Utf8.encode (Percent.encode keep s) := by
    intro x hx hmem
    rw [Percent.encode_encode, List.mem_flatMap] at hmem
    obtain ⟨b, -, hb⟩ := hmem
    exact not_mem_writtenByte hkeep hmarks hx b hb
  refine ⟨?_, hbytes 0x26 (by decide), hbytes 0x3D (by decide)⟩
  rw [decodeText_eq, map_unplus (hbytes 0x2B (by decide)), Percent.decode_encode hkeep hpercent,
    Utf8.decodeLossy_encode]

/-- A component of a URI is read as the text that it was made of. -/
theorem writes_component (s : String) : Writes (Percent.component s) s :=
  writes_encode Percent.keepsAscii_isUnreserved (by decide)
    (List.all_iff_forall_prop.1 (by decide)) s

/-- A text of unreserved characters stands for itself. -/
theorem writes_self {s : String} (h : ∀ b ∈ Utf8.encode s, Percent.isUnreserved b) :
    Writes s s := by
  have hcomponent := writes_component s
  rwa [Percent.component, Percent.encode_of_forall_keep Percent.keepsAscii_isUnreserved h]
    at hcomponent

theorem keepsAscii_isKept : Percent.KeepsAscii isKept := by
  intro b h
  simp only [isKept, Percent.isAlphanumeric, Bool.or_eq_true, Bool.and_eq_true, decide_eq_true_eq,
    beq_iff_eq, UInt8.le_iff_toNat_le, ← UInt8.toNat_inj, UInt8.reduceToNat] at h
  omega

/-- How one byte of a name or value is written, as bytes. A space has a mark of its own; every other
byte is escaped or kept. -/
theorem flatMap_encodeByte (b : UInt8) :
    (encodeByte b).flatMap String.utf8EncodeChar =
      if b = 0x20 then [0x2B] else Percent.writtenByte isKept b := by
  rw [encodeByte]
  split
  · rfl
  · rfl

theorem encode_encodeText (s : String) :
    Utf8.encode (encodeText s) =
      (Utf8.encode s).flatMap fun b =>
        if b = 0x20 then [0x2B] else Percent.writtenByte isKept b := by
  rw [encodeText, Utf8.encode_ofList, List.flatMap_assoc]
  simp only [flatMap_encodeByte]

/-- A name or value of bytes that are kept is written as it is. -/
theorem encodeText_of_isKept {s : String} (h : ∀ b ∈ Utf8.encode s, isKept b) :
    encodeText s = s := by
  have hspace : ∀ b ∈ Utf8.encode s,
      encodeByte b = if isKept b then [Char.ofNat b.toNat] else Percent.escapeByte b := by
    intro b hb
    refine if_neg ?_
    rintro rfl
    exact absurd (h _ hb) (by decide)
  have hwritten : encodeText s = Percent.encode isKept s := by
    rw [encodeText, Percent.encode, Percent.encodeBytes, List.flatMap_def, List.flatMap_def,
      List.map_congr_left hspace]
  rw [hwritten, Percent.encode_of_forall_keep keepsAscii_isKept h]

/-- A written byte of a name or value is read as that byte. -/
theorem decode_map_unplus (b : UInt8) (rest : Bytes) :
    Percent.decode
        ((if b = 0x20 then [0x2B] else Percent.writtenByte isKept b).map unplus ++ rest) =
      b :: Percent.decode rest := by
  have hplus : 0x2B ∉ Percent.writtenByte isKept b :=
    not_mem_writtenByte keepsAscii_isKept (List.all_iff_forall_prop.1 (by decide)) (by decide) b
  split
  · next h =>
    rw [h]
    exact Percent.decode_cons (by decide) rest
  · rw [map_unplus hplus, Percent.decode_writtenByte keepsAscii_isKept (by decide)]

/-- A name or value is read as the text that it was made of. -/
theorem writes_encodeText (s : String) : Writes (encodeText s) s := by
  have hbytes : ∀ x ∈ [0x26, 0x3D], x ∉ Utf8.encode (encodeText s) := by
    intro x hx hmem
    rw [encode_encodeText, List.mem_flatMap] at hmem
    obtain ⟨b, -, hb⟩ := hmem
    have hmarks : ∀ x ∈ [0x26, 0x3D], x ∈ marks ∧ x ≠ 0x2B := List.all_iff_forall_prop.1 (by decide)
    split at hb
    · exact (hmarks x hx).2 (List.mem_singleton.1 hb)
    · exact not_mem_writtenByte keepsAscii_isKept (List.all_iff_forall_prop.1 (by decide))
        (hmarks x hx).1 b hb
  refine ⟨?_, hbytes 0x26 (by decide), hbytes 0x3D (by decide)⟩
  have hread := Percent.decode_flatMap decode_map_unplus (Utf8.encode s) []
  rw [List.append_nil, Percent.decode_nil, List.append_nil] at hread
  rw [decodeText_eq, encode_encodeText, List.map_flatMap, hread, Utf8.decodeLossy_encode]

/-! ### Pairs -/

/-- One pair is read back, however its name and value are written. -/
theorem decodePair_encode {name value : String} {p : String × String} (hname : Writes name p.1)
    (hvalue : Writes value p.2) : decodePair (Utf8.encode (name ++ "=" ++ value)) = p := by
  have hequals : Utf8.encode "=" = [0x3D] := Utf8.encode_ofList ['=']
  have hsplit : ∀ b ∈ Utf8.encode name, decide (b ≠ 0x3D) = true := by
    intro b hb
    exact decide_eq_true fun h => hname.noEquals (h ▸ hb)
  rw [Utf8.encode_append, Utf8.encode_append, hequals, decodePair, List.append_assoc,
    List.takeWhile_append_of_pos hsplit, List.dropWhile_append_of_pos hsplit]
  simp [hname.reads, hvalue.reads]

/-! ### Forms -/

/-- Splitting goes on behind a separator. -/
theorem splitBytes_append_cons (sep : UInt8) (bs rest : Bytes) :
    splitBytes sep (bs ++ sep :: rest) = splitBytes sep bs ++ splitBytes sep rest := by
  suffices h : ∀ piece, splitOnto sep piece [] (bs ++ sep :: rest) =
      splitOnto sep piece [] bs ++ splitBytes sep rest from h []
  induction bs with
  | nil =>
    intro piece
    rw [List.nil_append, splitOnto, splitOnto, if_pos rfl, splitOnto_eq]
    rfl
  | cons b bs ih =>
    intro piece
    rw [List.cons_append, splitOnto, splitOnto]
    split
    · rw [splitOnto_eq, splitOnto_eq sep [] [_] bs, ih, List.append_assoc]
    · exact ih _

/-- Reading goes on behind `&`. -/
theorem decode_append_cons (bs rest : Bytes) :
    decode (bs ++ 0x26 :: rest) = decode bs ++ decode rest := by
  rw [decode, splitBytes_append_cons, List.filter_append, List.map_append]
  rfl

theorem ofText_append (s t : String) : ofText (s ++ "&" ++ t) = ofText s ++ ofText t := by
  have hampersand : Utf8.encode "&" = [0x26] := Utf8.encode_ofList ['&']
  rw [ofText, Utf8.encode_append, Utf8.encode_append, hampersand, List.append_assoc,
    List.singleton_append, decode_append_cons]
  rfl

@[simp]
theorem ofText_empty : ofText "" = [] := by simp [ofText, decode, splitBytes, splitOnto]

/-- One written pair is read back. -/
theorem ofText_pair {name value : String} {p : String × String} (hname : Writes name p.1)
    (hvalue : Writes value p.2) : ofText (name ++ "=" ++ value) = [p] := by
  have hequals : Utf8.encode "=" = [0x3D] := Utf8.encode_ofList ['=']
  have hbytes : 0x26 ∉ Utf8.encode (name ++ "=" ++ value) := by
    simp only [Utf8.encode_append, hequals, List.mem_append, not_or]
    exact ⟨⟨hname.noAmpersand, by decide⟩, hvalue.noAmpersand⟩
  have hkept : (!(Utf8.encode (name ++ "=" ++ value)).isEmpty) = true := by simp [hequals]
  rw [ofText, decode, splitBytes_of_not_mem hbytes, List.filter_cons, if_pos hkept, List.filter_nil,
    List.map_cons, List.map_nil, decodePair_encode hname hvalue]

/-- Pairs are read back, however their names and values are written. -/
theorem ofText_intercalate {name value : String → String} (form : Form)
    (hname : ∀ p ∈ form, Writes (name p.1) p.1) (hvalue : ∀ p ∈ form, Writes (value p.2) p.2) :
    ofText (String.intercalate "&" (form.map fun p => name p.1 ++ "=" ++ value p.2)) = form := by
  induction form with
  | nil => simp
  | cons p form ih =>
    have hhead := ofText_pair (hname p List.mem_cons_self) (hvalue p List.mem_cons_self)
    have hrest := ih (fun q hq => hname q (List.mem_cons_of_mem _ hq))
      fun q hq => hvalue q (List.mem_cons_of_mem _ hq)
    cases form with
    | nil => rw [List.map_cons, List.map_nil, String.intercalate_singleton, hhead]
    | cons q form =>
      rw [List.map_cons, List.map_cons, String.intercalate_cons_cons, ofText_append, hhead,
        ← List.map_cons (f := fun p : String × String => name p.1 ++ "=" ++ value p.2), hrest]
      rfl

/-- A written form is read back. -/
@[simp]
theorem ofText_encode (form : Form) : ofText (encode form) = form :=
  ofText_intercalate form (fun p _ => writes_encodeText p.1) fun p _ => writes_encodeText p.2

/-! ### Lengths -/

/-- A name or value does not get shorter when it is written. -/
theorem length_le_encodeText (s : String) :
    (Utf8.encode s).length ≤ (Utf8.encode (encodeText s)).length := by
  rw [encode_encodeText]
  refine Utf8.length_le_flatMap (fun b h => ?_) _
  have hread := decode_map_unplus b []
  rw [h] at hread
  contradiction

/-- Nor does it become more than three times as long. -/
theorem length_encodeText_le (s : String) :
    (Utf8.encode (encodeText s)).length ≤ 3 * (Utf8.encode s).length := by
  rw [encode_encodeText]
  refine Utf8.length_flatMap_le (fun b => ?_) _
  split
  · exact Nat.le_add_left 1 2
  · exact Percent.length_writtenByte_le keepsAscii_isKept b

/-- If values do not get shorter when they are written, pairs are as long as each value at least. -/
theorem length_le_intercalate {name value : String → String}
    (hvalue : ∀ s, (Utf8.encode s).length ≤ (Utf8.encode (value s)).length) {form : Form}
    {p : String × String} (h : p ∈ form) :
    (Utf8.encode p.2).length ≤ (Utf8.encode
      (String.intercalate "&" (form.map fun p => name p.1 ++ "=" ++ value p.2))).length := by
  have hpair : (Utf8.encode p.2).length ≤ (Utf8.encode (name p.1 ++ "=" ++ value p.2)).length := by
    rw [Utf8.encode_append, List.length_append]
    exact Nat.le_add_left_of_le (hvalue p.2)
  exact Nat.le_trans hpair (Utf8.length_le_intercalate (List.mem_map_of_mem h))

/-- A written form is as long as each of its values at least. -/
theorem length_le_encode {form : Form} {p : String × String} (h : p ∈ form) :
    (Utf8.encode p.2).length ≤ (Utf8.encode form.encode).length :=
  length_le_intercalate length_le_encodeText h

/-- It is at most three times as long as what it says, with two signs for each pair. -/
theorem length_encode_le (form : Form) :
    (Utf8.encode form.encode).length ≤
      (form.map fun p => 3 * ((Utf8.encode p.1).length + (Utf8.encode p.2).length) + 2).sum := by
  have hequals : (Utf8.encode "=").length = 1 := by decide +kernel
  have hand : (Utf8.encode "&").length = 1 := by decide +kernel
  have hpair (p : String × String) : (Utf8.encode (encodePair p)).length ≤
      3 * ((Utf8.encode p.1).length + (Utf8.encode p.2).length) + 1 := by
    have hname := length_encodeText_le p.1
    have hvalue := length_encodeText_le p.2
    simp only [encodePair, Utf8.encode_append, List.length_append, hequals]
    omega
  induction form with
  | nil => simp [encode]
  | cons p form ih =>
    have hp := hpair p
    rw [List.map_cons, List.sum_cons]
    cases form with
    | nil =>
      rw [encode, List.map_singleton, String.intercalate_singleton]
      omega
    | cons q form =>
      have hform : encode (p :: q :: form) = encodePair p ++ "&" ++ encode (q :: form) := by
        simp only [encode, List.map_cons, String.intercalate_cons_cons]
      rw [hform, Utf8.encode_append, Utf8.encode_append, List.length_append, List.length_append,
        hand]
      omega

/-! ### Looking up -/

/-- The pairs of a name stand at as many places as the name. -/
theorem length_filter (form : Form) (name : String) :
    (form.filter (·.1 == name)).length = (form.map Prod.fst).count name := by
  rw [← List.countP_eq_length_filter, List.count, List.countP_map]
  rfl

/-- The last pair of a name is the one that counts. -/
theorem lookup_eq (form : Form) (name : String) :
    lookup form name = (form.filter (·.1 == name)).getLast?.map Prod.snd := by
  rw [lookup, ← List.head?_filter, List.filter_reverse, List.head?_reverse]

/-- Later pairs win. -/
theorem lookup_append (form added : Form) (name : String) :
    lookup (form ++ added) name = (lookup added name).or (lookup form name) := by
  unfold lookup
  rw [List.reverse_append, List.find?_append]
  cases added.reverse.find? fun p => p.1 == name <;> rfl

theorem lookup_singleton (p : String × String) (name : String) :
    lookup [p] name = if p.1 = name then some p.2 else none := by
  by_cases h : p.1 = name <;> simp [lookup, h]

/-- A name has the value of its last pair. -/
theorem lookup_eq_some_iff (form : Form) (name value : String) :
    lookup form name = some value ↔
      ∃ before behind, form = before ++ (name, value) :: behind ∧ ∀ p ∈ behind, p.1 ≠ name := by
  rw [lookup, Option.map_eq_some_iff]
  constructor
  · rintro ⟨⟨n, v⟩, hfind, rfl⟩
    obtain ⟨hname, behind, before, hform, hbehind⟩ := List.find?_eq_some_iff_append.1 hfind
    obtain rfl : n = name := beq_iff_eq.1 hname
    refine ⟨before.reverse, behind.reverse, ?_, fun p hp => ?_⟩
    · rw [← List.reverse_reverse form, hform]
      simp
    · simpa using hbehind p (List.mem_reverse.1 hp)
  · rintro ⟨before, behind, rfl, hbehind⟩
    refine ⟨(name, value), List.find?_eq_some_iff_append.2 ⟨beq_self_eq_true name, ?_⟩, rfl⟩
    refine ⟨behind.reverse, before.reverse, by simp, fun p hp => ?_⟩
    simpa using hbehind p (List.mem_reverse.1 hp)

theorem lookup_eq_none_iff (form : Form) (name : String) :
    lookup form name = none ↔ ∀ p ∈ form, p.1 ≠ name := by
  simp [lookup]

/-- Names that are left out do not change what other names have. -/
theorem lookup_filter (form : Form) (keep : String → Bool) {name : String} (h : keep name) :
    lookup (form.filter fun p => keep p.1) name = lookup form name := by
  have hkept : ∀ p : String × String, (p.1 == name && keep p.1) = (p.1 == name) := by
    intro p
    by_cases hname : p.1 = name
    · rw [hname, h, Bool.and_true]
    · rw [beq_false_of_ne hname, Bool.false_and]
  rw [lookup_eq, lookup_eq, List.filter_filter]
  simp only [hkept]

end SignIn.Form
