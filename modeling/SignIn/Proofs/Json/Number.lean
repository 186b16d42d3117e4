import SignIn.Json.Write
import SignIn.Proofs.Json.Grammar
import SignIn.Proofs.Text.Digits
import SignIn.Proofs.Text.Utf8

/-!
# Numbers of a JSON text

A number has no mark at its end, so what stands behind it matters. Behind a value of any kind stands
nothing, a blank, a comma or a closing bracket, and all of these end a number.

Whole numbers that were written are read back. Every number that the grammar knows can be passed
over, however long it is, and whatever number can be read can be passed over as well, up to the same
place. Passing over asks for less: it does not keep the value, so there is none that is out of
range.

## Main definitions

* `Json.Delimited` — what may stand behind a value

## Main results

* `Json.scanNumber_toDigits` — a written whole number is read back
* `Json.skipNumber_of_isUnsigned` — a number is passed over
* `Json.skipNumber_of_scanNumber` — what can be read can be passed over
-/

namespace SignIn.Json

open Digits

/-! ### Cursors -/

namespace Cursor

variable {c : Cursor} {b : UInt8} {rest : Bytes}

theorem rest_after (c : Cursor) (b : UInt8) (rest : Bytes) : (c.after b rest).rest = rest := by
  rw [after]
  split <;> rfl

theorem rest_advance (h : c.rest = b :: rest) : c.advance.rest = rest := by
  rw [advance, h]
  exact rest_after c b rest

theorem peek_of_cons (h : c.rest = b :: rest) : c.peek = some (Char.ofNat b.toNat) := by
  rw [peek, h]
  rfl

theorem peek_of_nil (h : c.rest = []) : c.peek = none := by
  rw [peek, h]
  rfl

theorem rest_ne_nil_of_peek {x : Char} (h : c.peek = some x) : c.rest ≠ [] := by
  intro hnil
  rw [peek, hnil] at h
  cases h

/-- An ASCII character comes next. -/
theorem of_char {x : Char} {text : List Char} (hx : x.toNat < 0x80)
    (h : c.rest = Utf8.bytes (x :: text) ++ rest) :
    c.peek = some x ∧ c.advance.rest = Utf8.bytes text ++ rest := by
  rw [Utf8.bytes_cons_of_lt hx, List.cons_append] at h
  exact ⟨by rw [peek_of_cons h, Utf8.ofNat_toNat_ofNat hx], rest_advance h⟩

/-- A byte that is no blank. -/
theorem skipBlanks_of_cons (h : c.rest = b :: rest)
    (hb : b ≠ 0x0A ∧ b ≠ 0x20 ∧ b ≠ 0x09 ∧ b ≠ 0x0D) : c.skipBlanks = c := by
  obtain ⟨rest', line, column⟩ := c
  obtain rfl : rest' = b :: rest := h
  simp [skipBlanks, skipBlanks.go, hb]

theorem skipBlanks_of_nil (h : c.rest = []) : c.skipBlanks = c := by
  obtain ⟨rest', line, column⟩ := c
  obtain rfl : rest' = [] := h
  rfl

end Cursor

/-! ### What stands behind a value -/

/-- No value goes on with what comes next: it is a blank, a comma or a closing bracket, or the text
ends. -/
def Delimited (rest : Bytes) : Prop :=
  ∀ b ∈ rest.head?, b ∈ ([0x20, 0x09, 0x0A, 0x0D, 0x2C, 0x5D, 0x7D] : Bytes)

/-- The next byte is no digit. -/
def NoDigit (rest : Bytes) : Prop :=
  ∀ b ∈ rest.head?, digitValue? (Char.ofNat b.toNat) = none

theorem Delimited.noDigit {rest : Bytes} (h : Delimited rest) : NoDigit rest := by
  intro b hb
  have hmem := h b hb
  simp only [List.mem_cons, List.not_mem_nil, or_false] at hmem
  rcases hmem with rfl | rfl | rfl | rfl | rfl | rfl | rfl
  all_goals rfl

/-- A character that is no digit. -/
theorem noDigit_of_char {x : Char} {text : List Char} (hx : x.toNat < 0x80)
    (hdigit : x.isDigit = false) (rest : Bytes) : NoDigit (Utf8.bytes (x :: text) ++ rest) := by
  intro b hb
  have hnot : ¬x.isDigit = true := Bool.eq_false_iff.1 hdigit
  rw [Utf8.bytes_cons_of_lt hx, List.cons_append, List.head?_cons, Option.mem_some_iff] at hb
  rw [← hb, Utf8.ofNat_toNat_ofNat hx, digitValue?, if_neg hnot]

variable {c : Cursor} {rest : Bytes}

theorem isDigit_of_noDigit (h : NoDigit c.rest) {x : Char} (hpeek : c.peek = some x) :
    x.isDigit = false := by
  cases hrest : c.rest with
  | nil =>
    rw [Cursor.peek_of_nil hrest] at hpeek
    contradiction
  | cons b tail =>
    rw [Cursor.peek_of_cons hrest] at hpeek
    obtain rfl := Option.some.inj hpeek
    have hnone := h b (by rw [hrest]; rfl)
    rw [digitValue?] at hnone
    split at hnone
    · contradiction
    · next hdigit => exact Bool.eq_false_iff.2 hdigit

/-- Nothing that belongs to a number comes behind a value. -/
theorem peek_of_delimited (h : Delimited c.rest) :
    c.peek ≠ some '.' ∧ c.peek ≠ some 'e' ∧ c.peek ≠ some 'E' := by
  cases hrest : c.rest with
  | nil =>
    rw [Cursor.peek_of_nil hrest]
    exact ⟨nofun, nofun, nofun⟩
  | cons b tail =>
    have hmem := h b (by rw [hrest]; rfl)
    rw [Cursor.peek_of_cons hrest]
    simp only [List.mem_cons, List.not_mem_nil, or_false] at hmem
    rcases hmem with rfl | rfl | rfl | rfl | rfl | rfl | rfl
    all_goals decide

/-! ### Digits -/

theorem digitValue?_of_isDigit {d : Char} (h : d.isDigit) : digitValue? d = some (d.toNat - 48) :=
  if_pos h

theorem spanDigits_go {digits : List Char} (hdigits : ∀ d ∈ digits, d.isDigit)
    (hrest : NoDigit rest) (line column : Nat) :
    ∃ c, spanDigits.go (Utf8.bytes digits ++ rest) line column =
      (digits.map fun d => d.toNat - 48, c) ∧ c.rest = rest := by
  induction digits generalizing column with
  | nil =>
    rw [Utf8.bytes_nil, List.nil_append]
    cases rest with
    | nil => exact ⟨_, rfl, rfl⟩
    | cons b tail =>
      refine ⟨⟨b :: tail, line, column⟩, ?_, rfl⟩
      rw [spanDigits.go, hrest b rfl]
      rfl
  | cons d digits ih =>
    have hd := hdigits d List.mem_cons_self
    obtain ⟨c, hc, hcrest⟩ := ih (fun d hd => hdigits d (List.mem_cons_of_mem _ hd)) (column + 1)
    refine ⟨c, ?_, hcrest⟩
    rw [Utf8.bytes_cons_of_lt (toNat_lt_of_isDigit hd), List.cons_append, spanDigits.go,
      Utf8.ofNat_toNat_ofNat (toNat_lt_of_isDigit hd), digitValue?_of_isDigit hd, hc]
    rfl

/-- The digits that come next, up to what is no digit. -/
theorem spanDigits_digits {digits : List Char} (hdigits : ∀ d ∈ digits, d.isDigit)
    (h : c.rest = Utf8.bytes digits ++ rest) (hrest : NoDigit rest) :
    ∃ c', spanDigits c = (digits.map fun d => d.toNat - 48, c') ∧ c'.rest = rest := by
  rw [spanDigits, h]
  exact spanDigits_go hdigits hrest c.line c.column

/-- A digit comes next. -/
theorem peek_of_isDigits {digits : List Char} (hdigits : IsDigits digits)
    (h : c.rest = Utf8.bytes digits ++ rest) : ∃ d, c.peek = some d ∧ d.isDigit = true := by
  obtain ⟨hne, hdigits⟩ := hdigits
  obtain ⟨d, ds, rfl⟩ := List.exists_cons_of_ne_nil hne
  have hd := hdigits d List.mem_cons_self
  exact ⟨d, (Cursor.of_char (toNat_lt_of_isDigit hd) h).1, hd⟩

/-- Digits are all kept if their number is small enough. -/
theorem takeSignificand_map {digits : List Char} {n : Nat}
    (h : Nat.ofDigitChars 10 digits n ≤ significandLimit) :
    takeSignificand n (digits.map fun d => d.toNat - 48) =
      (Nat.ofDigitChars 10 digits n, digits.length, 0) := by
  induction digits generalizing n with
  | nil => rfl
  | cons d digits ih =>
    have hzero : '0'.toNat = 48 := rfl
    rw [Nat.ofDigitChars_cons, hzero] at h ⊢
    have hle : 10 * n + (d.toNat - 48) ≤ significandLimit :=
      Nat.le_trans (le_ofDigitChars digits _) h
    rw [List.map_cons, takeSignificand, if_pos hle, ih h]
    rfl

/-- The whole part of a number comes next: a zero, or digits of which the first is none. -/
theorem whole_cases {whole : List Char} (hwhole : IsWhole whole)
    (h : c.rest = Utf8.bytes whole ++ rest) (hrest : NoDigit rest) :
    (whole = ['0'] ∧ c.peek = some '0' ∧ c.advance.rest = rest) ∨
      (∃ d, c.peek = some d ∧ d.isDigit ∧ d ≠ '0') ∧
        ∃ c', spanDigits c = (whole.map fun d => d.toNat - 48, c') ∧ c'.rest = rest := by
  cases hwhole with
  | zero =>
    obtain ⟨hpeek, hadvance⟩ := Cursor.of_char (by decide) h
    exact .inl ⟨rfl, hpeek, hadvance⟩
  | @digits d ds hzero hdigits =>
    have hd := hdigits.2 d List.mem_cons_self
    obtain ⟨hpeek, -⟩ := Cursor.of_char (toNat_lt_of_isDigit hd) h
    exact .inr ⟨⟨d, hpeek, hd, hzero⟩, spanDigits_digits hdigits.2 h hrest⟩

/-- A written whole number is the whole part of one. -/
theorem isWhole_toDigits (n : Nat) : IsWhole (Nat.toDigits 10 n) := by
  by_cases hn : n = 0
  · rw [hn, Nat.toDigits_zero]
    exact .zero
  · have hhead := head?_toDigits hn
    have hdigits := isDigit_toDigits n
    obtain ⟨d, ds, htoDigits⟩ :=
      List.exists_cons_of_ne_nil (Nat.toDigits_ne_nil (b := 10) (n := n))
    rw [htoDigits] at hhead hdigits ⊢
    refine .digits ?_ ⟨List.cons_ne_nil _ _, hdigits⟩
    rintro rfl
    exact hhead rfl

/-! ### Reading numbers -/

theorem scanAfterWhole_of_delimited (h : Delimited c.rest) (n : Nat) :
    scanAfterWhole c false n 0 = .ok (.integer n, c) := by
  obtain ⟨hpoint, he, hE⟩ := peek_of_delimited h
  rw [scanAfterWhole]
  split
  · contradiction
  · contradiction
  · contradiction
  · rfl

/-- A zero is the whole part of a number by itself. -/
theorem scanNumber_of_zero (hpeek : c.peek = some '0') (hnext : NoDigit c.advance.rest)
    (negative : Bool) : scanNumber negative c = scanAfterWhole c.advance negative 0 0 := by
  rw [scanNumber]
  cases hbehind : c.advance.peek with
  | none => simp only [hpeek, hbehind]
  | some x =>
    simp only [hpeek, hbehind, isDigit_of_noDigit hnext hbehind, Bool.false_eq_true, if_false]

theorem skipNumber_of_zero (hpeek : c.peek = some '0') (hnext : NoDigit c.advance.rest) :
    skipNumber c = skipAfterWhole c.advance := by
  rw [skipNumber]
  cases hbehind : c.advance.peek with
  | none => simp only [hpeek, hbehind]
  | some x =>
    simp only [hpeek, hbehind, isDigit_of_noDigit hnext hbehind, Bool.false_eq_true, if_false]

/-- A written whole number is read back. -/
theorem scanNumber_toDigits {n : Nat} (h : c.rest = Utf8.bytes (Nat.toDigits 10 n) ++ rest)
    (hrest : Delimited rest) (hn : n ≤ significandLimit) :
    ∃ c', scanNumber false c = .ok (.integer n, c') ∧ c'.rest = rest := by
  have hvalue : Nat.ofDigitChars 10 (Nat.toDigits 10 n) 0 = n := Nat.ofDigitChars_ten_toDigits
  obtain ⟨hdigits, hpeek, hadvance⟩ | ⟨⟨d, hpeek, hd, hzero⟩, c', hspan, hc'⟩ :=
    whole_cases (isWhole_toDigits n) h hrest.noDigit
  · have hn : n = 0 := by
      rw [← hvalue, hdigits]
      rfl
    have hbehind : Delimited c.advance.rest := by rwa [hadvance]
    refine ⟨c.advance, ?_, hadvance⟩
    rw [scanNumber_of_zero hpeek hbehind.noDigit, hn]
    exact scanAfterWhole_of_delimited hbehind 0
  · refine ⟨c', ?_, hc'⟩
    have hsignificand := takeSignificand_map (Nat.le_trans (Nat.le_of_eq hvalue) hn)
    have hwhole := scanAfterWhole_of_delimited (c := c') (by rwa [hc']) n
    rw [hvalue] at hsignificand
    rw [scanNumber]
    simp [hpeek, hd, hspan, hsignificand, hwhole]

/-! ### Passing over numbers -/

theorem noDigit_exponent {exponent : List Char} (h : IsExponent exponent) (hrest : Delimited rest) :
    NoDigit (Utf8.bytes exponent ++ rest) := by
  cases h with
  | none => exact hrest.noDigit
  | some he hsign hdigits =>
    obtain rfl | rfl := he
    · exact noDigit_of_char (by decide) rfl rest
    · exact noDigit_of_char (by decide) rfl rest

theorem noDigit_fraction {fraction exponent : List Char} (h : IsFraction fraction)
    (h' : IsExponent exponent) (hrest : Delimited rest) :
    NoDigit (Utf8.bytes (fraction ++ exponent) ++ rest) := by
  cases h with
  | none => exact noDigit_exponent h' hrest
  | some hdigits => exact noDigit_of_char (by decide) rfl rest

theorem takeSign_of_sign {sign digits : List Char} (hsign : sign ∈ [[], ['+'], ['-']])
    (hdigits : IsDigits digits) (h : c.rest = Utf8.bytes (sign ++ digits) ++ rest) :
    (takeSign c).2.rest = Utf8.bytes digits ++ rest := by
  simp only [List.mem_cons, List.not_mem_nil, or_false] at hsign
  rcases hsign with rfl | rfl | rfl
  · obtain ⟨d, hpeek, hd⟩ := peek_of_isDigits hdigits h
    have hplus : d ≠ '+' := by
      rintro rfl
      contradiction
    have hminus : d ≠ '-' := by
      rintro rfl
      contradiction
    rw [takeSign, hpeek]
    split
    · next hsome => exact absurd (Option.some.inj hsome) hplus
    · next hsome => exact absurd (Option.some.inj hsome) hminus
    · exact h
  · obtain ⟨hpeek, hadvance⟩ := Cursor.of_char (by decide) h
    rw [takeSign, hpeek]
    exact hadvance
  · obtain ⟨hpeek, hadvance⟩ := Cursor.of_char (by decide) h
    rw [takeSign, hpeek]
    exact hadvance

theorem skipExponent_of_digits {e : Char} {sign digits : List Char} (he : e.toNat < 0x80)
    (hsign : sign ∈ [[], ['+'], ['-']]) (hdigits : IsDigits digits)
    (h : c.rest = Utf8.bytes (e :: (sign ++ digits)) ++ rest) (hrest : NoDigit rest) :
    ∃ c', skipExponent c = .ok c' ∧ c'.rest = rest := by
  have hbehind := takeSign_of_sign hsign hdigits (Cursor.of_char he h).2
  obtain ⟨d, hpeek, hd⟩ := peek_of_isDigits hdigits hbehind
  obtain ⟨c', hspan, hc'⟩ := spanDigits_digits hdigits.2 hbehind hrest
  refine ⟨c', ?_, hc'⟩
  rw [skipExponent]
  simp only [hpeek, hd, if_true, hspan]

/-- What may follow the whole part of a number is passed over if there is no fraction. -/
theorem skipAfterWhole_of_exponent {exponent : List Char} (hexponent : IsExponent exponent)
    (h : c.rest = Utf8.bytes exponent ++ rest) (hrest : Delimited rest) :
    ∃ c', (match c.peek with
      | some 'e' | some 'E' => skipExponent c
      | _ => .ok c) = .ok c' ∧ c'.rest = rest := by
  cases hexponent with
  | none =>
    have hdelimited : Delimited c.rest := by rwa [h]
    obtain ⟨-, he, hE⟩ := peek_of_delimited hdelimited
    refine ⟨c, ?_, h⟩
    split
    · contradiction
    · contradiction
    · rfl
  | some he hsign hdigits =>
    obtain rfl | rfl := he
    · rw [(Cursor.of_char (by decide) h).1]
      exact skipExponent_of_digits (by decide) hsign hdigits h hrest.noDigit
    · rw [(Cursor.of_char (by decide) h).1]
      exact skipExponent_of_digits (by decide) hsign hdigits h hrest.noDigit

/-- What may follow the whole part of a number is passed over. -/
theorem skipAfterWhole_of_fraction {fraction exponent : List Char} (hfraction : IsFraction fraction)
    (hexponent : IsExponent exponent) (h : c.rest = Utf8.bytes (fraction ++ exponent) ++ rest)
    (hrest : Delimited rest) : ∃ c', skipAfterWhole c = .ok c' ∧ c'.rest = rest := by
  cases hfraction with
  | none =>
    obtain ⟨c', hskip, hc'⟩ := skipAfterWhole_of_exponent hexponent h hrest
    refine ⟨c', ?_, hc'⟩
    have hpoint : c.peek ≠ some '.' := by
      cases hexponent with
      | none =>
        have hdelimited : Delimited c.rest := by rwa [h]
        exact (peek_of_delimited hdelimited).1
      | some he hsign hdigits =>
        obtain rfl | rfl := he
        · rw [(Cursor.of_char (by decide) h).1]
          decide
        · rw [(Cursor.of_char (by decide) h).1]
          decide
    rw [← hskip, skipAfterWhole]
    split
    · contradiction
    · next he => simp only [he]
    · next hE => simp only [hE]
    · next he hE _ =>
      split
      · contradiction
      · contradiction
      · rfl
  | @some ds hdigits =>
    rw [List.cons_append] at h
    obtain ⟨hpeek, hadvance⟩ := Cursor.of_char (by decide) h
    rw [Utf8.bytes_append, List.append_assoc] at hadvance
    obtain ⟨c₁, hspan, hc₁⟩ :=
      spanDigits_digits hdigits.2 hadvance (noDigit_exponent hexponent hrest)
    obtain ⟨c', hskip, hc'⟩ := skipAfterWhole_of_exponent hexponent hc₁ hrest
    refine ⟨c', ?_, hc'⟩
    have hne : (ds.map fun d => d.toNat - 48).isEmpty = false := by
      rw [List.isEmpty_eq_false_iff, ne_eq, List.map_eq_nil_iff]
      exact hdigits.1
    rw [skipAfterWhole, hpeek]
    simp only [hspan, hne, Bool.false_eq_true, if_false]
    exact hskip

/-- A number without its sign is passed over. -/
theorem skipNumber_of_isUnsigned {text : List Char} (htext : IsUnsigned text)
    (h : c.rest = Utf8.bytes text ++ rest) (hrest : Delimited rest) :
    ∃ c', skipNumber c = .ok c' ∧ c'.rest = rest := by
  obtain @⟨whole, fraction, exponent, hwhole, hfraction, hexponent⟩ := htext
  rw [Utf8.bytes_append, List.append_assoc] at h
  have hnoDigit := noDigit_fraction hfraction hexponent hrest
  obtain ⟨-, hpeek, hadvance⟩ | ⟨⟨d, hpeek, hd, hzero⟩, c₁, hspan, hc₁⟩ :=
    whole_cases hwhole h hnoDigit
  · obtain ⟨c', hskip, hc'⟩ := skipAfterWhole_of_fraction hfraction hexponent hadvance hrest
    refine ⟨c', ?_, hc'⟩
    rw [skipNumber_of_zero hpeek (by rwa [hadvance])]
    exact hskip
  · obtain ⟨c', hskip, hc'⟩ := skipAfterWhole_of_fraction hfraction hexponent hc₁ hrest
    refine ⟨c', ?_, hc'⟩
    rw [skipNumber]
    simp [hpeek, hd, hspan, hskip]

/-! ### What can be read can be passed over -/

variable {c' : Cursor} {negative : Bool} {significand : Nat} {exponent : Int} {found : Found}

theorem isDigit_of_digitValue? {x : Char} {d : Nat} (h : digitValue? x = some d) :
    x.isDigit = true := by
  unfold digitValue? at h
  split at h
  · assumption
  · cases h

/-- Behind the digits that come next is behind the rest of them. -/
theorem spanDigits_advance {x : Char} (hpeek : c.peek = some x) (hx : x.isDigit = true) :
    (spanDigits c).2 = (spanDigits c.advance).2 := by
  obtain ⟨rest, line, column⟩ := c
  cases rest with
  | nil => cases hpeek
  | cons b rest =>
    obtain rfl : Char.ofNat b.toNat = x := Option.some.inj hpeek
    have hb : b ≠ 0x0A := by
      rintro rfl
      exact absurd hx (by decide)
    simp only [spanDigits, spanDigits.go, digitValue?, hx, if_true, Cursor.advance, Cursor.after,
      hb, if_false]

theorem of_decimalAt_eq_ok (h : decimalAt c negative significand exponent = .ok (found, c')) :
    c' = c := by
  unfold decimalAt at h
  split at h
  · cases h
    rfl
  · cases h

/-- An exponent that is read can be passed over. -/
theorem skipExponent_of_scanExponent
    (h : scanExponent c negative significand exponent = .ok (found, c')) :
    skipExponent c = .ok c' := by
  rw [scanExponent] at h
  rw [skipExponent]
  dsimp only at h ⊢
  split at h
  · cases h
  · next x hpeek =>
    split at h
    · cases h
    · next d hdigit =>
      have hx := isDigit_of_digitValue? hdigit
      rw [hpeek]
      dsimp only
      rw [if_pos hx, spanDigits_advance hpeek hx]
      split at h
      · rw [of_decimalAt_eq_ok h]
      · split at h
        · cases h
        · cases h
          rfl

/-- What may follow the whole part of a number can be passed over if it is read. -/
theorem skipAfterWhole_of_scanAfterWhole {left : Nat}
    (h : scanAfterWhole c negative significand left = .ok (found, c')) :
    skipAfterWhole c = .ok c' := by
  rw [scanAfterWhole] at h
  rw [skipAfterWhole]
  split at h
  · rw [scanFraction] at h
    dsimp only at h ⊢
    split at h
    · split at h
      · cases h
      · cases h
    · next hds =>
      rw [if_neg hds]
      split at h
      · exact skipExponent_of_scanExponent h
      · exact skipExponent_of_scanExponent h
      · rw [of_decimalAt_eq_ok h]
  · exact skipExponent_of_scanExponent h
  · exact skipExponent_of_scanExponent h
  · split_ifs at h
    · rw [of_decimalAt_eq_ok h]
    · rw [of_decimalAt_eq_ok h]
    · cases h
      rfl
    · cases h
      rfl

/-- What can be read can be passed over. -/
theorem skipNumber_of_scanNumber (h : scanNumber negative c = .ok (found, c')) :
    skipNumber c = .ok c' := by
  rw [scanNumber] at h
  rw [skipNumber]
  dsimp only at h ⊢
  split at h
  · cases h
  · next hpeek =>
    rw [hpeek]
    split at h
    · split at h
      · cases h
      · next hx =>
        rw [if_neg hx]
        exact skipAfterWhole_of_scanAfterWhole h
    · exact skipAfterWhole_of_scanAfterWhole h
  · next x hzero hpeek =>
    split at h
    · next hx =>
      simp only [hpeek, hx, if_true]
      exact skipAfterWhole_of_scanAfterWhole h
    · cases h

end SignIn.Json
