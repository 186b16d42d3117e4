import SignIn.Proofs.Text.Percent
import SignIn.Url.Parse

/-!
# What a part of a URL holds

A part of a URL that was read holds only what its place may hold, because everything else was
escaped. Escaping such a text again changes nothing: that is why URLs can be written and read again.

## Main definitions

* `Url.IsGraphic` — printable ASCII without the space
* `Url.Escaped` — a text of such characters, without those that the place escapes

## Main results

* `Url.escaped_escapePart` — a text with its escapes is escaped
* `Url.escapePart_of_escaped` — escaping it again changes nothing
-/

namespace SignIn.Url

/-- Printable ASCII without the space. -/
def IsGraphic (c : Char) : Prop := 0x20 < c.toNat ∧ c.toNat < 0x7F

instance IsGraphic.decidable : DecidablePred IsGraphic := fun c =>
  inferInstanceAs (Decidable (0x20 < c.toNat ∧ c.toNat < 0x7F))

/-- A text of graphic characters without those that its place escapes. -/
def Escaped (escapes : List Char) (text : List Char) : Prop :=
  ∀ c ∈ text, IsGraphic c ∧ c ∉ escapes

instance Escaped.decidable (escapes text : List Char) : Decidable (Escaped escapes text) :=
  List.decidableBAll (fun c => IsGraphic c ∧ c ∉ escapes) text

theorem Escaped.append {escapes : List Char} {s t : String} (hs : Escaped escapes s.toList)
    (ht : Escaped escapes t.toList) : Escaped escapes (s ++ t).toList := by
  intro c hc
  rw [String.toList_append, List.mem_append] at hc
  exact hc.elim (hs c) (ht c)

/-- The escapes of a place: the space is one of them, and nothing that an escape consists of is. -/
structure Escapes (escapes : List Char) : Prop where
  space : ' ' ∈ escapes
  percent : '%' ∉ escapes
  digit : ∀ n < 16, Percent.hexDigit n ∉ escapes

theorem escapes_path : Escapes pathEscapes := ⟨by decide, by decide, by decide⟩

theorem escapes_userinfo : Escapes userinfoEscapes := ⟨by decide, by decide, by decide⟩

theorem escapes_query : Escapes (queryEscapes true) := ⟨by decide, by decide, by decide⟩

theorem escapes_fragment : Escapes fragmentEscapes := ⟨by decide, by decide, by decide⟩

variable {escapes : List Char}

theorem isGraphic_hexDigit {n : Nat} (h : n < 16) : IsGraphic (Percent.hexDigit n) := by
  revert n
  decide

/-- A text with its escapes is escaped. -/
theorem escaped_escapePart (h : Escapes escapes) (text : List Char) :
    Escaped escapes (escapePart escapes text).toList := by
  intro c hc
  rw [escapePart, Percent.encode, String.toList_ofList, Percent.encodeBytes, List.mem_flatMap] at hc
  obtain ⟨b, -, hc⟩ := hc
  split at hc
  · next hkeep =>
    rw [List.mem_singleton] at hc
    simp only [Bool.and_eq_true, decide_eq_true_eq, Bool.not_eq_true', List.contains_eq_mem,
      decide_eq_false_iff_not, UInt8.le_iff_toNat_le, UInt8.lt_iff_toNat_lt,
      UInt8.reduceToNat] at hkeep
    obtain ⟨⟨hlow, hhigh⟩, hnot⟩ := hkeep
    rw [← hc] at hnot
    have hchar : c.toNat = b.toNat := by rw [hc, Utf8.toNat_ofNat (by omega)]
    have hspace : c.toNat ≠ 0x20 := by
      intro e
      have hc' : c = ' ' := Char.toNat_inj.1 e
      exact hnot (hc' ▸ h.space)
    exact ⟨⟨by omega, by omega⟩, hnot⟩
  · have hhi : b.toNat / 16 < 16 := by have := b.toNat_lt; omega
    have hlo : b.toNat % 16 < 16 := by omega
    simp only [Percent.escapeByte, List.mem_cons, List.not_mem_nil, or_false] at hc
    obtain rfl | rfl | rfl := hc
    · exact ⟨by decide, h.percent⟩
    · exact ⟨isGraphic_hexDigit hhi, h.digit _ hhi⟩
    · exact ⟨isGraphic_hexDigit hlo, h.digit _ hlo⟩

/-- What a place keeps as it is are ASCII characters. -/
theorem keepsAscii_escapePart (escapes : List Char) : Percent.KeepsAscii fun b =>
    0x20 ≤ b && b < 0x7F && !escapes.contains (Char.ofNat b.toNat) := by
  intro b hb
  simp only [Bool.and_eq_true, decide_eq_true_eq, UInt8.lt_iff_toNat_lt, UInt8.reduceToNat] at hb
  exact Nat.lt_trans hb.1.2 (by decide)

/-- An escape brings in only percent signs and hexadecimal digits. -/
theorem mem_of_mem_escapePart {text : List Char} {c : Char}
    (h : c ∈ (escapePart escapes text).toList) (hpercent : c ≠ '%')
    (hdigit : ∀ n < 16, Percent.hexDigit n ≠ c) : c ∈ text := by
  have hmem := Percent.mem_of_mem_encode (keepsAscii_escapePart escapes) h hpercent hdigit
  rwa [String.toList_ofList] at hmem

theorem IsGraphic.lt {c : Char} (h : IsGraphic c) : c.toNat < 0x80 :=
  Nat.lt_trans h.2 (by decide)

/-- Escaping again changes nothing. -/
theorem escapePart_of_escaped {text : List Char} (h : Escaped escapes text) :
    escapePart escapes text = String.ofList text := by
  refine Percent.encode_of_forall_keep (keepsAscii_escapePart escapes) fun b hb => ?_
  rw [Utf8.encode_ofList_of_lt fun c hc => (h c hc).1.lt, List.mem_map] at hb
  obtain ⟨c, hc, rfl⟩ := hb
  obtain ⟨⟨hlow, hhigh⟩, hnot⟩ := h c hc
  have hbyte : (UInt8.ofNat c.toNat).toNat = c.toNat := by
    rw [UInt8.toNat_ofNat']
    omega
  simp only [hbyte, Char.ofNat_toNat, Bool.and_eq_true, decide_eq_true_eq, Bool.not_eq_true',
    List.contains_eq_mem, decide_eq_false_iff_not, UInt8.le_iff_toNat_le, UInt8.lt_iff_toNat_lt,
    UInt8.reduceToNat]
  exact ⟨⟨Nat.le_of_lt hlow, hhigh⟩, hnot⟩

theorem escapePart_nil (escapes : List Char) : escapePart escapes [] = "" :=
  escapePart_of_escaped fun _ hc => absurd hc List.not_mem_nil

end SignIn.Url
