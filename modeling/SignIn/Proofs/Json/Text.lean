import SignIn.Json.Write
import SignIn.Proofs.Json.Grammar
import SignIn.Proofs.Text.Utf8

/-!
# Strings of a JSON text are read back

A string is read byte by byte by a small machine. What matters about a stretch of bytes is from
which state to which it leads and which bytes of the string it stands for; where the stretch stands
in the text matters only for faults, of which there are none here. That is `Json.Leads`, and
stretches that lead on from each other can be joined.

What is written for a character leads from `plain` back to `plain` and stands for the bytes of that
character. A reader that passes over strings has fewer states to tell apart, and whatever can be
read it can pass over.

## Main definitions

* `Json.Leads` — what a stretch of bytes does to the reader of a string

## Main results

* `Json.scanText_inner` — a written string is read back
* `Json.skipText_of_scanText` — what can be read can be passed over
-/

namespace SignIn.Json

/-! ### Stretches of bytes -/

/-- The bytes `read` lead from `state` to `next`, and `out` is added to the string. -/
def Leads (state : TextState) (read out : Bytes) (next : TextState) : Prop :=
  ∀ seen line column rest, ∃ line' column',
    scanTextFrom state seen line column (read ++ rest) =
      scanTextFrom next (out.reverse ++ seen) line' column' rest

theorem Leads.refl (state : TextState) : Leads state [] [] state :=
  fun _ line column _ => ⟨line, column, rfl⟩

theorem Leads.trans {state middle next : TextState} {read read' out out' : Bytes}
    (h : Leads state read out middle) (h' : Leads middle read' out' next) :
    Leads state (read ++ read') (out ++ out') next := by
  intro seen line column rest
  obtain ⟨line₁, column₁, h₁⟩ := h seen line column (read' ++ rest)
  obtain ⟨line₂, column₂, h₂⟩ := h' (out.reverse ++ seen) line₁ column₁ rest
  refine ⟨line₂, column₂, ?_⟩
  rw [List.append_assoc, h₁, h₂, List.reverse_append, List.append_assoc]

theorem Leads.cons {state middle next : TextState} {b : UInt8} {read out out' : Bytes}
    (h : textStep state b = .more middle out) (h' : Leads middle read out' next) :
    Leads state (b :: read) (out ++ out') next := by
  have hstep : Leads state [b] out middle := by
    intro seen line column rest
    let here : Cursor := Cursor.after ⟨[], line, column⟩ b rest
    refine ⟨here.line, here.column, ?_⟩
    rw [List.singleton_append, scanTextFrom, h]
  exact hstep.trans h'

theorem Leads.last {state next : TextState} {b : UInt8} {out : Bytes}
    (h : textStep state b = .more next out) : Leads state [b] out next := by
  have hcons := Leads.cons h (.refl next)
  rwa [List.append_nil] at hcons

/-- A byte that adds nothing to the string. -/
theorem Leads.silent {state middle next : TextState} {b : UInt8} {read out : Bytes}
    (h : textStep state b = .more middle []) (h' : Leads middle read out next) :
    Leads state (b :: read) out next :=
  .cons h h'

/-- A byte without a meaning in a string. -/
theorem textStep_plain {b : UInt8} (hspace : 0x20 ≤ b.toNat) (hquote : b ≠ 0x22)
    (hslash : b ≠ 0x5C) : textStep .plain b = .more .plain [b] := by
  have hquote' : Char.ofNat b.toNat ≠ '"' := fun h => hquote (Utf8.eq_of_char h)
  have hslash' : Char.ofNat b.toNat ≠ '\\' := fun h => hslash (Utf8.eq_of_char h)
  have hspace' : ¬b < 0x20 := by
    rw [UInt8.lt_iff_toNat_lt]
    exact Nat.not_lt.2 hspace
  simp only [textStep, hquote', hslash', hspace', if_false]

/-- Bytes without a meaning in a string are read as they are. -/
theorem leads_plain {bs : Bytes} (h : ∀ b ∈ bs, 0x20 ≤ b.toNat ∧ b ≠ 0x22 ∧ b ≠ 0x5C) :
    Leads .plain bs bs .plain := by
  induction bs with
  | nil => exact .refl _
  | cons b bs ih =>
    obtain ⟨hspace, hquote, hslash⟩ := h b List.mem_cons_self
    exact .cons (textStep_plain hspace hquote hslash)
      (ih fun b hb => h b (List.mem_cons_of_mem _ hb))

/-! ### Characters -/

/-- Only ASCII bytes have a meaning in a string. -/
theorem plain_of_le {b : UInt8} (h : 0x80 ≤ b.toNat) : 0x20 ≤ b.toNat ∧ b ≠ 0x22 ∧ b ≠ 0x5C := by
  refine ⟨by omega, ?_, ?_⟩
  · rintro rfl
    contradiction
  · rintro rfl
    contradiction

theorem isOrdinary_of_le {x : Char} (h : 0x80 ≤ x.toNat) : IsOrdinary x := by
  refine ⟨by omega, ?_, ?_⟩
  · rintro rfl
    contradiction
  · rintro rfl
    contradiction

/-- The bytes of a character that is written as itself have no meaning in a string. -/
theorem plain_of_mem_utf8EncodeChar {x : Char} (hx : IsOrdinary x) {b : UInt8}
    (hb : b ∈ String.utf8EncodeChar x) : 0x20 ≤ b.toNat ∧ b ≠ 0x22 ∧ b ≠ 0x5C := by
  obtain ⟨hspace, hquote, hslash⟩ := hx
  by_cases hsmall : x.toNat < 0x80
  · rw [Utf8.utf8EncodeChar_of_lt hsmall, List.mem_singleton] at hb
    have hbyte : b.toNat = x.toNat := by
      rw [hb, UInt8.toNat_ofNat']
      omega
    have hchar : Char.ofNat b.toNat = x := Utf8.ofNat_toNat_eq_iff.2 hbyte
    refine ⟨by omega, ?_, ?_⟩
    · rintro rfl
      exact hquote hchar.symm
    · rintro rfl
      exact hslash hchar.symm
  · exact plain_of_le (Utf8.le_of_mem_utf8EncodeChar (by omega) hb)

/-- A character that stands for itself. -/
theorem leads_ordinary {x : Char} (hx : IsOrdinary x) :
    Leads .plain (String.utf8EncodeChar x) (String.utf8EncodeChar x) .plain :=
  leads_plain fun _ hb => plain_of_mem_utf8EncodeChar hx hb

theorem shortEscape?_of_mem {x y : Char} (h : (x, y) ∈ shortEscapes) :
    x.toNat < 0x80 ∧ y.toNat < 0x80 ∧ x ≠ 'u' ∧ shortEscape? x = some (UInt8.ofNat y.toNat) := by
  simp only [shortEscapes, List.mem_cons, Prod.mk.injEq, List.not_mem_nil, or_false] at h
  rcases h with ⟨rfl, rfl⟩ | ⟨rfl, rfl⟩ | ⟨rfl, rfl⟩ | ⟨rfl, rfl⟩ | ⟨rfl, rfl⟩ | ⟨rfl, rfl⟩ |
    ⟨rfl, rfl⟩ | ⟨rfl, rfl⟩
  all_goals decide

/-- The state behind the backslash and the letter of a short escape. -/
theorem textStep_short {x y : Char} (h : (x, y) ∈ shortEscapes) :
    textStep .escape (UInt8.ofNat x.toNat) = .more .plain (String.utf8EncodeChar y) := by
  obtain ⟨hx, hy, hlong, hshort⟩ := shortEscape?_of_mem h
  rw [textStep, Utf8.ofNat_toNat_ofNat hx, if_neg hlong, hshort, Utf8.utf8EncodeChar_of_lt hy]

theorem hexValue?_of_isHexDigit {x : Char} {n : Nat} (h : IsHexDigit x n) :
    x.toNat < 0x80 ∧ hexValue? (UInt8.ofNat x.toNat) = some n := by
  obtain ⟨hn, rfl | rfl⟩ := h
  · revert n
    decide
  · revert n
    decide

/-- The number that four hexadecimal digits write. -/
theorem hexNumber?_of_isHexDigit {x y z w : Char} {a b c d : Nat} (hx : IsHexDigit x a)
    (hy : IsHexDigit y b) (hz : IsHexDigit z c) (hw : IsHexDigit w d) :
    hexNumber? [UInt8.ofNat x.toNat, UInt8.ofNat y.toNat, UInt8.ofNat z.toNat,
      UInt8.ofNat w.toNat] = some (16 * (16 * (16 * a + b) + c) + d) := by
  simp [hexNumber?, hexValue?_of_isHexDigit hx, hexValue?_of_isHexDigit hy,
    hexValue?_of_isHexDigit hz, hexValue?_of_isHexDigit hw]

/-- The bytes of a long escape: a backslash, the letter and four digits of this number. -/
theorem bytes_of_isLongEscape {escape : List Char} {n : Nat} (h : IsLongEscape escape n) :
    ∃ x y z w, Utf8.bytes escape = [0x5C, 0x75, x, y, z, w] ∧ hexNumber? [x, y, z, w] = some n := by
  obtain @⟨x, y, z, w, a, b, c, d, hx, hy, hz, hw⟩ := h
  refine ⟨_, _, _, _, ?_, hexNumber?_of_isHexDigit hx hy hz hw⟩
  rw [Utf8.bytes_cons_of_lt (by decide), Utf8.bytes_cons_of_lt (by decide),
    Utf8.bytes_cons_of_lt (hexValue?_of_isHexDigit hx).1,
    Utf8.bytes_cons_of_lt (hexValue?_of_isHexDigit hy).1,
    Utf8.bytes_cons_of_lt (hexValue?_of_isHexDigit hz).1,
    Utf8.bytes_cons_of_lt (hexValue?_of_isHexDigit hw).1]
  rfl

/-- The digits of a long escape lead to where their number does. -/
theorem leads_digits {lead : Option Nat} {x y z w : UInt8} {n : Nat} {next : TextState}
    {out : Bytes} (hn : hexNumber? [x, y, z, w] = some n) (hstep : hexStep lead n = .more next out) :
    Leads (.hex lead []) [x, y, z, w] out next := by
  have hlast : textStep (.hex lead [x, y, z]) w = .more next out := by
    simp only [textStep, List.length_cons, List.length_nil, Nat.lt_irrefl, if_false,
      List.cons_append, List.nil_append, hn, hstep]
  exact .silent rfl (.silent rfl (.silent rfl (.last hlast)))

/-- A long escape. -/
theorem leads_long {escape : List Char} {n : Nat} {next : TextState} {out : Bytes}
    (hn : IsLongEscape escape n) (hstep : hexStep none n = .more next out) :
    Leads .plain (Utf8.bytes escape) out next := by
  obtain ⟨x, y, z, w, hbytes, hnumber⟩ := bytes_of_isLongEscape hn
  rw [hbytes]
  exact .silent rfl (.silent rfl (leads_digits hnumber hstep))

/-- A long escape behind a leading surrogate. -/
theorem leads_long_behind {lead : Nat} {escape : List Char} {n : Nat} {next : TextState}
    {out : Bytes} (hn : IsLongEscape escape n) (hstep : hexStep (some lead) n = .more next out) :
    Leads (.afterLead lead) (Utf8.bytes escape) out next := by
  obtain ⟨x, y, z, w, hbytes, hnumber⟩ := bytes_of_isLongEscape hn
  rw [hbytes]
  exact .silent rfl (.silent rfl (leads_digits hnumber hstep))

/-! ### Whole strings -/

/-- A number that is no surrogate is a character. -/
theorem hexStep_character {n : Nat} (hlead : ¬IsLeadSurrogate n) (htrail : ¬IsTrailSurrogate n) :
    hexStep none n = .more .plain (String.utf8EncodeChar (Char.ofNat n)) := by
  unfold IsLeadSurrogate at hlead
  unfold IsTrailSurrogate at htrail
  rw [← Utf8.encode_singleton, hexStep, if_neg htrail, if_neg hlead]

theorem hexStep_lead {n : Nat} (h : IsLeadSurrogate n) :
    hexStep none n = .more (.afterLead n) [] := by
  unfold IsLeadSurrogate at h
  have htrail : ¬(0xDC00 ≤ n ∧ n ≤ 0xDFFF) := by omega
  rw [hexStep, if_neg htrail, if_pos h]

/-- Two surrogates are a character. -/
theorem hexStep_trail {n : Nat} (h : IsTrailSurrogate n) (lead : Nat) :
    hexStep (some lead) n = .more .plain (String.utf8EncodeChar
      (Char.ofNat ((lead - 0xD800) * 0x400 + (n - 0xDC00) + 0x10000))) := by
  unfold IsTrailSurrogate at h
  rw [← Utf8.encode_singleton, hexStep, if_pos h]

/-- Whatever is written for a text stands for that text. -/
theorem leads_spells {written text : List Char} (h : Spells written text) :
    Leads .plain (Utf8.bytes written) (Utf8.bytes text) .plain := by
  induction h with
  | nil => exact .refl _
  | ordinary hx _ ih => exact (leads_ordinary hx).trans ih
  | short hx _ ih =>
    rw [Utf8.bytes_cons_of_lt (by decide), Utf8.bytes_cons_of_lt (shortEscape?_of_mem hx).1]
    exact .silent rfl (.cons (textStep_short hx) ih)
  | long hn hlead htrail _ ih =>
    rw [Utf8.bytes_append, Utf8.bytes_cons]
    exact (leads_long hn (hexStep_character hlead htrail)).trans ih
  | @pair _ _ n _ _ _ hn hn' hlead htrail _ ih =>
    have hbehind := (leads_long_behind hn' (hexStep_trail htrail n)).trans ih
    have hpair := (leads_long hn (hexStep_lead hlead)).trans hbehind
    rw [List.nil_append] at hpair
    rw [Utf8.bytes_append, Utf8.bytes_append, Utf8.bytes_cons]
    exact hpair

variable {c : Cursor} {rest : Bytes}

/-- A string that stands for a text is read as that text from behind its opening quote. -/
theorem scanText_spelled {written : List Char} {s : String} (h : Spells written s.toList)
    (hc : c.rest = Utf8.bytes written ++ 0x22 :: rest) :
    ∃ c', scanText c = .ok (s, c') ∧ c'.rest = rest := by
  obtain ⟨line, column, hlead⟩ := leads_spells h [] c.line c.column (0x22 :: rest)
  have hclose : textStep .plain 0x22 = .close := rfl
  have hseen : ((Utf8.bytes s.toList).reverse ++ []).reverse = Utf8.encode s := by
    simp [Utf8.encode_eq_bytes]
  refine ⟨Cursor.after ⟨[], line, column⟩ 0x22 rest, ?_, rfl⟩
  rw [scanText, hc, hlead, scanTextFrom, hclose, hseen, Utf8.decode?_encode]

/-! ### What is written -/

theorem isHexDigit_hexDigit {n : Nat} (h : n < 16) : IsHexDigit (hexDigit n) n := by
  refine ⟨h, .inl ?_⟩
  revert n
  decide

/-- What is written for a character is one of the ways to write it. -/
theorem spells_escapeChar (x : Char) {written text : List Char} (h : Spells written text) :
    Spells (escapeChar x ++ written) (x :: text) := by
  unfold escapeChar
  split
  · exact .short (by decide) h
  · exact .short (by decide) h
  · exact .short (by decide) h
  · exact .short (by decide) h
  · exact .short (by decide) h
  · exact .short (by decide) h
  · exact .short (by decide) h
  · next hquote hslash _ _ _ _ _ =>
    split
    · next hcontrol =>
      have hescape : IsLongEscape
          ['\\', 'u', '0', '0', hexDigit (x.toNat / 16), hexDigit (x.toNat % 16)] x.toNat := by
        have hzero : IsHexDigit '0' 0 := ⟨by decide, .inl rfl⟩
        have hlong := IsLongEscape.intro hzero hzero
          (isHexDigit_hexDigit (n := x.toNat / 16) (by omega))
          (isHexDigit_hexDigit (n := x.toNat % 16) (by omega))
        have hnumber : 16 * (16 * (16 * 0 + 0) + x.toNat / 16) + x.toNat % 16 = x.toNat := by omega
        rwa [hnumber] at hlong
      have hlead : ¬IsLeadSurrogate x.toNat := fun h => absurd h.1 (by omega)
      have htrail : ¬IsTrailSurrogate x.toNat := fun h => absurd h.1 (by omega)
      have hspells := Spells.long hescape hlead htrail h
      rwa [Char.ofNat_toNat] at hspells
    · next hcontrol => exact .ordinary ⟨Nat.le_of_not_lt hcontrol, hquote, hslash⟩ h

/-- What is written for a text is one of the ways to write it. -/
theorem spells_flatMap (text : List Char) : Spells (text.flatMap escapeChar) text := by
  induction text with
  | nil => exact .nil
  | cons x text ih => exact spells_escapeChar x ih

/-- A written text is a string that stands for it. -/
theorem isTextOf_writeText (s : String) : IsTextOf s (writeText s).toList := by
  have htext : (writeText s).toList = '"' :: (s.toList.flatMap escapeChar ++ ['"']) := by
    simp [writeText]
  rw [htext]
  exact .intro (spells_flatMap s.toList)

/-- Where one character is repeated, its written form is repeated. -/
theorem length_le_writeText (c : Char) (n : Nat) :
    n * (escapeChar c).length ≤
      (Utf8.encode (writeText (String.ofList (List.replicate n c)))).length := by
  have hinner := Utf8.length_le_encode_ofList ((List.replicate n c).flatMap escapeChar)
  rw [List.length_flatMap, List.map_replicate, List.sum_replicate_nat] at hinner
  rw [writeText, String.toList_ofList, Utf8.encode_append, Utf8.encode_append, List.length_append,
    List.length_append]
  omega

/-- A written mapping is as long as each of its values at least. -/
theorem length_le_writeMapping {members : List (String × String)} {m : String × String}
    (h : m ∈ members) :
    (Utf8.encode m.2).length ≤ (Utf8.encode (writeMapping members)).length := by
  let write (m : String × String) : String := writeText m.1 ++ ":" ++ m.2
  have hmember : (Utf8.encode m.2).length ≤ (Utf8.encode (write m)).length := by
    rw [Utf8.encode_append, List.length_append]
    exact Nat.le_add_left _ _
  have hjoined : (Utf8.encode (write m)).length ≤
      (Utf8.encode (String.intercalate "," (members.map write))).length :=
    Utf8.length_le_intercalate (List.mem_map_of_mem h)
  rw [writeMapping, Utf8.encode_append, Utf8.encode_append, List.length_append, List.length_append]
  exact Nat.le_add_right_of_le (Nat.le_add_left_of_le (Nat.le_trans hmember hjoined))

/-! ### Passing over strings -/

/-- What a reader that passes over a string has to remember of what one that reads it remembers. -/
def TextState.passing : TextState → SkipState
  | .plain | .afterLead _ => .plain
  | .escape | .afterLeadEscape _ => .escape
  | .hex _ digits => .hex digits

/-- A number behind which the reading goes on leaves nothing to remember but a leading surrogate. -/
theorem passing_of_hexStep {lead : Option Nat} {n : Nat} {next : TextState} {out : Bytes}
    (h : hexStep lead n = .more next out) : next.passing = .plain := by
  unfold hexStep at h
  cases lead with
  | none =>
    simp only at h
    split_ifs at h
    · obtain ⟨rfl, -⟩ := TextStep.more.inj h
      rfl
    · obtain ⟨rfl, -⟩ := TextStep.more.inj h
      rfl
  | some high =>
    simp only at h
    split_ifs at h
    obtain ⟨rfl, -⟩ := TextStep.more.inj h
    rfl

/-- Where the reading of a string goes on, so does the passing over it. -/
theorem skipTextFrom_of_more {state next : TextState} {b : UInt8} {out bs : Bytes}
    (h : textStep state b = .more next out) (line column : Nat) :
    skipTextFrom state.passing line column (b :: bs) =
      skipTextFrom next.passing (Cursor.after ⟨[], line, column⟩ b bs).line
        (Cursor.after ⟨[], line, column⟩ b bs).column bs := by
  rw [skipTextFrom.eq_def]
  cases state with
  | plain =>
    simp only [textStep] at h
    split_ifs at h with hquote hslash hcontrol
    · obtain ⟨rfl, -⟩ := TextStep.more.inj h
      simp [TextState.passing, hslash]
    · obtain ⟨rfl, -⟩ := TextStep.more.inj h
      simp [TextState.passing, hquote, hslash, hcontrol]
  | escape =>
    simp only [textStep] at h
    split_ifs at h with hlong
    · obtain ⟨rfl, -⟩ := TextStep.more.inj h
      simp [TextState.passing, hlong]
    · cases hshort : shortEscape? (Char.ofNat b.toNat) with
      | none => simp [hshort] at h
      | some y =>
        simp only [hshort] at h
        obtain ⟨rfl, -⟩ := TextStep.more.inj h
        simp [TextState.passing, hlong, hshort]
  | hex lead digits =>
    simp only [textStep] at h
    split_ifs at h with hfew
    · obtain ⟨rfl, -⟩ := TextStep.more.inj h
      simp [TextState.passing, hfew]
    · cases hnumber : hexNumber? (digits ++ [b]) with
      | none => simp [hnumber] at h
      | some n =>
        simp only [hnumber] at h
        rw [passing_of_hexStep h]
        simp [TextState.passing, hfew, hnumber]
  | afterLead lead =>
    simp only [textStep] at h
    split_ifs at h with hslash
    obtain ⟨rfl, -⟩ := TextStep.more.inj h
    simp [TextState.passing, hslash]
  | afterLeadEscape lead =>
    simp only [textStep] at h
    split_ifs at h with hlong
    obtain ⟨rfl, -⟩ := TextStep.more.inj h
    simp [TextState.passing, hlong]

/-- A string ends only at a quote that nothing comes before. -/
theorem of_textStep_close {state : TextState} {b : UInt8} (h : textStep state b = .close) :
    state = .plain ∧ Char.ofNat b.toNat = '"' := by
  cases state with
  | plain =>
    simp only [textStep] at h
    split_ifs at h with hquote
    exact ⟨rfl, hquote⟩
  | escape =>
    simp only [textStep] at h
    split_ifs at h
    split at h <;> contradiction
  | hex lead digits =>
    simp only [textStep, hexStep] at h
    split_ifs at h
    repeat' split at h
    all_goals contradiction
  | afterLead lead =>
    simp only [textStep] at h
    split_ifs at h
  | afterLeadEscape lead =>
    simp only [textStep] at h
    split_ifs at h

/-- What can be read can be passed over. -/
theorem skipTextFrom_of_scanTextFrom {state : TextState} {seen bs : Bytes} {line column : Nat}
    {s : String} {c : Cursor} (h : scanTextFrom state seen line column bs = .ok (s, c)) :
    skipTextFrom state.passing line column bs = .ok c := by
  induction bs generalizing state seen line column with
  | nil => simp [scanTextFrom] at h
  | cons b bs ih =>
    rw [scanTextFrom] at h
    cases hstep : textStep state b with
    | more next out =>
      rw [skipTextFrom_of_more hstep]
      simp only [hstep] at h
      exact ih h
    | close =>
      obtain ⟨rfl, hquote⟩ := of_textStep_close hstep
      simp only [hstep] at h
      split at h
      · simp only [Except.ok.injEq, Prod.mk.injEq] at h
        rw [skipTextFrom.eq_def, ← h.2]
        simp [TextState.passing, hquote]
      · contradiction
    | fault cause =>
      simp only [hstep] at h
      contradiction

theorem skipText_of_scanText {c c' : Cursor} {s : String} (h : scanText c = .ok (s, c')) :
    skipText c = .ok c' :=
  skipTextFrom_of_scanTextFrom h

/-! ### Passing over what stands for no text -/

/-- The bytes `read` lead the reader that passes over a string from `state` to `next`. -/
def Skips (state : SkipState) (read : Bytes) (next : SkipState) : Prop :=
  ∀ line column rest, ∃ line' column',
    skipTextFrom state line column (read ++ rest) = skipTextFrom next line' column' rest

theorem Skips.refl (state : SkipState) : Skips state [] state :=
  fun line column _ => ⟨line, column, rfl⟩

theorem Skips.trans {state middle next : SkipState} {read read' : Bytes}
    (h : Skips state read middle) (h' : Skips middle read' next) :
    Skips state (read ++ read') next := by
  intro line column rest
  obtain ⟨line₁, column₁, h₁⟩ := h line column (read' ++ rest)
  obtain ⟨line₂, column₂, h₂⟩ := h' line₁ column₁ rest
  exact ⟨line₂, column₂, by rw [List.append_assoc, h₁, h₂]⟩

/-- A byte behind which the reading would go on. -/
theorem Skips.cons {state middle : TextState} {next : SkipState} {b : UInt8} {out read : Bytes}
    (h : textStep state b = .more middle out) (h' : Skips middle.passing read next) :
    Skips state.passing (b :: read) next := by
  have hstep : Skips state.passing [b] middle.passing :=
    fun line column rest => ⟨_, _, skipTextFrom_of_more h line column⟩
  exact hstep.trans h'

/-- Bytes without a meaning in a string are passed over. -/
theorem skips_plain {bs : Bytes} (h : ∀ b ∈ bs, 0x20 ≤ b.toNat ∧ b ≠ 0x22 ∧ b ≠ 0x5C) :
    Skips .plain bs .plain := by
  induction bs with
  | nil => exact .refl _
  | cons b bs ih =>
    obtain ⟨hspace, hquote, hslash⟩ := h b List.mem_cons_self
    exact Skips.cons (textStep_plain hspace hquote hslash)
      (ih fun b hb => h b (List.mem_cons_of_mem _ hb))

/-- Of the last digit of a long escape it only matters that it is one. -/
theorem skips_digits {x y z w : UInt8} {n : Nat} (hn : hexNumber? [x, y, z, w] = some n) :
    Skips (.hex []) [x, y, z, w] .plain := by
  have hlast : Skips (.hex [x, y, z]) [w] .plain := by
    intro line column rest
    let here : Cursor := Cursor.after ⟨[], line, column⟩ w rest
    refine ⟨here.line, here.column, ?_⟩
    rw [List.singleton_append, skipTextFrom.eq_def]
    simp only [List.length_cons, List.length_nil, Nat.lt_irrefl, if_false, List.cons_append,
      List.nil_append, hn, Option.isSome_some, if_true, here]
  have hmore : ∀ (digits : List UInt8) (b : UInt8), digits.length < 3 →
      textStep (.hex none digits) b = .more (.hex none (digits ++ [b])) [] :=
    fun digits b h => if_pos h
  exact Skips.cons (hmore [] x (by simp)) (Skips.cons (hmore [x] y (by simp))
    (Skips.cons (hmore [x, y] z (by simp)) hlast))

/-- Whatever may stand between quotes is passed over. -/
theorem skips_content {written : List Char} (h : IsContent written) :
    Skips .plain (Utf8.bytes written) .plain := by
  have hslash : textStep .plain 0x5C = .more .escape [] := rfl
  have hletter : textStep .escape 0x75 = .more (.hex none []) [] := rfl
  induction h with
  | nil => exact .refl _
  | ordinary hx _ ih => exact (skips_plain fun _ hb => plain_of_mem_utf8EncodeChar hx hb).trans ih
  | short hx _ ih =>
    rw [Utf8.bytes_cons_of_lt (by decide), Utf8.bytes_cons_of_lt (shortEscape?_of_mem hx).1]
    exact Skips.cons hslash (Skips.cons (textStep_short hx) ih)
  | long hn _ ih =>
    obtain ⟨x, y, z, w, hbytes, hnumber⟩ := bytes_of_isLongEscape hn
    rw [Utf8.bytes_append, hbytes]
    exact (Skips.cons hslash (Skips.cons hletter (skips_digits hnumber))).trans ih

/-- A string is passed over from behind its opening quote. -/
theorem skipText_of_content {written : List Char} (h : IsContent written)
    (hc : c.rest = Utf8.bytes written ++ 0x22 :: rest) :
    ∃ c', skipText c = .ok c' ∧ c'.rest = rest := by
  obtain ⟨line, column, hskip⟩ := skips_content h c.line c.column (0x22 :: rest)
  refine ⟨Cursor.after ⟨[], line, column⟩ 0x22 rest, ?_, rfl⟩
  rw [skipText, hc, hskip, skipTextFrom.eq_def]
  rfl

end SignIn.Json
