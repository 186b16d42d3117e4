import SignIn.Proofs.Json.Taken

/-!
# What a string was read from

A string that was read stands for its text in one of the ways in which a text can be written. It is
not enough here that something was passed over: the bytes between the quotes are those of a text,
and they spell the string.

The reader goes byte by byte and does not know where a character begins. Only when the closing quote
comes it is looked at whether all the bytes together are a text. So a piece of what was read is a
byte without a meaning, or an escape with all its digits, and not a character. The pieces meet at
the characters nonetheless. An escape stands for a whole character, and the first byte of a
character can be told from the others. So when a character begins with a byte without a meaning,
none of its other bytes comes from an escape.

## Main definitions

* `Json.IsEscape` — an escape, or two of them for a pair of surrogates
* `Json.StandsFor` — pieces of bytes and the bytes for which they stand

## Main results

* `Json.spans_of_scanText` — a string was read
-/

namespace SignIn.Json

variable {c c' : Cursor} {s : String} {seen bs read out : Bytes} {line column : Nat}
  {text : List Char}

/-! ### Pieces -/

/-- The escape is a way to write this character. -/
def IsEscape (escape : List Char) (x : Char) : Prop :=
  ∀ {written text : List Char}, Spells written text → Spells (escape ++ written) (x :: text)

/-- The bytes `read` stand for the bytes `out`, piece by piece. -/
inductive StandsFor : (read out : Bytes) → Prop
  | nil : StandsFor [] []
  | plain {b : UInt8} {read out : Bytes} (hb : 0x20 ≤ b.toNat ∧ b ≠ 0x22 ∧ b ≠ 0x5C)
      (h : StandsFor read out) : StandsFor (b :: read) (b :: out)
  | escape {escape : List Char} {x : Char} {read out : Bytes} (hx : IsEscape escape x)
      (h : StandsFor read out) :
      StandsFor (Utf8.bytes escape ++ read) (String.utf8EncodeChar x ++ out)

/-- No escape stands for bytes behind the first one of a character. -/
theorem StandsFor.of_tail {tail : Bytes} (htail : ∀ b ∈ tail, 0x80 ≤ b.toNat ∧ b.toNat < 0xC0)
    (h : StandsFor read (tail ++ out)) : ∃ read', read = tail ++ read' ∧ StandsFor read' out := by
  induction tail generalizing read with
  | nil => exact ⟨read, rfl, h⟩
  | cons b tail ih =>
    obtain ⟨hb, htail⟩ := List.forall_mem_cons.1 htail
    generalize hout : b :: tail ++ out = bs at h
    cases h with
    | nil => cases hout
    | plain _ h =>
      obtain ⟨rfl, rfl⟩ := List.cons.inj hout
      obtain ⟨read', rfl, hbehind⟩ := ih htail h
      exact ⟨read', rfl, hbehind⟩
    | @escape _ x =>
      obtain ⟨lead, tail', hx, hlead, -⟩ := Utf8.exists_lead x
      rw [hx] at hout
      obtain ⟨rfl, -⟩ := List.cons.inj hout
      omega

/-- A character begins with a byte without a meaning: it has none itself. -/
theorem isOrdinary_of_lead {x : Char} {b : UInt8} {tail : Bytes}
    (hx : String.utf8EncodeChar x = b :: tail) (hb : 0x20 ≤ b.toNat ∧ b ≠ 0x22 ∧ b ≠ 0x5C) :
    IsOrdinary x := by
  by_cases hsmall : x.toNat < 0x80
  · rw [Utf8.utf8EncodeChar_of_lt hsmall] at hx
    obtain ⟨rfl, -⟩ := List.cons.inj hx
    obtain ⟨hspace, hquote, hslash⟩ := hb
    rw [UInt8.toNat_ofNat'] at hspace
    refine ⟨by omega, ?_, ?_⟩
    · rintro rfl
      exact hquote rfl
    · rintro rfl
      exact hslash rfl
  · exact isOrdinary_of_le (Nat.le_of_not_lt hsmall)

/-- What stands for the bytes of a text is a way to write the text. -/
theorem StandsFor.exists_spells (h : StandsFor read (Utf8.bytes text)) :
    ∃ written, Spells written text ∧ read = Utf8.bytes written := by
  induction text generalizing read with
  | nil =>
    generalize hout : Utf8.bytes [] = bs at h
    cases h with
    | nil => exact ⟨[], .nil, rfl⟩
    | plain => cases hout
    | @escape _ x =>
      obtain ⟨lead, tail, hx, -, -⟩ := Utf8.exists_lead x
      rw [hx] at hout
      cases hout
  | cons y text ih =>
    obtain ⟨lead, tail, hy, -, htail⟩ := Utf8.exists_lead y
    generalize hout : Utf8.bytes (y :: text) = bs at h
    rw [Utf8.bytes_cons] at hout
    cases h with
    | nil =>
      rw [hy] at hout
      cases hout
    | plain hb h =>
      -- The other bytes of the character stand for themselves as well.
      rw [hy] at hout
      obtain ⟨rfl, rfl⟩ := List.cons.inj hout
      obtain ⟨read', rfl, hbehind⟩ := h.of_tail htail
      obtain ⟨written, hspells, rfl⟩ := ih hbehind
      refine ⟨y :: written, .ordinary (isOrdinary_of_lead hy hb) hspells, ?_⟩
      rw [Utf8.bytes_cons, hy]
      rfl
    | escape hx h =>
      obtain ⟨rfl, rfl⟩ := Utf8.utf8EncodeChar_append_inj hout
      obtain ⟨written, hspells, rfl⟩ := ih h
      exact ⟨_, hx hspells, (Utf8.bytes_append _ _).symm⟩

/-! ### The machine -/

/-- One byte of a string was read: the string ends, or it goes on. -/
theorem of_scanTextFrom {state : TextState}
    (h : scanTextFrom state seen line column bs = .ok (s, c')) :
    ∃ b rest, bs = b :: rest ∧
      ((textStep state b = .close ∧ Utf8.decode? seen.reverse = some s ∧ c'.rest = rest) ∨
        ∃ next out line' column', textStep state b = .more next out ∧
          scanTextFrom next (out.reverse ++ seen) line' column' rest = .ok (s, c')) := by
  cases bs with
  | nil => cases h
  | cons b rest =>
    refine ⟨b, rest, rfl, ?_⟩
    rw [scanTextFrom] at h
    split at h
    · next hstep => exact .inr ⟨_, _, _, _, hstep, h⟩
    · next hstep =>
      split at h
      · next hdecode =>
        cases h
        exact .inl ⟨hstep, hdecode, Cursor.rest_after _ _ _⟩
      · cases h
    · cases h

/-- Behind a backslash and among digits the string goes on. -/
theorem of_scanTextFrom_inside {state : TextState}
    (h : scanTextFrom state seen line column bs = .ok (s, c')) (hstate : state ≠ .plain) :
    ∃ b rest next out line' column', bs = b :: rest ∧ textStep state b = .more next out ∧
      scanTextFrom next (out.reverse ++ seen) line' column' rest = .ok (s, c') := by
  obtain ⟨b, rest, rfl, ⟨hclose, -, -⟩ | ⟨next, out, line', column', hstep, h⟩⟩ := of_scanTextFrom h
  · exact absurd (of_textStep_close hclose).1 hstate
  · exact ⟨b, rest, next, out, line', column', rfl, hstep, h⟩

/-- One of the digits of a long escape was read, and not the last one. -/
theorem of_scanTextFrom_hex {lead : Option Nat} {digits : List UInt8} (hdigits : digits.length < 3)
    (h : scanTextFrom (.hex lead digits) seen line column bs = .ok (s, c')) :
    ∃ b rest line' column', bs = b :: rest ∧
      scanTextFrom (.hex lead (digits ++ [b])) seen line' column' rest = .ok (s, c') := by
  obtain ⟨b, rest, next, out, line', column', rfl, hstep, h⟩ := of_scanTextFrom_inside h (by simp)
  rw [textStep] at hstep
  simp only [hdigits, if_true] at hstep
  obtain ⟨rfl, rfl⟩ := TextStep.more.inj hstep
  exact ⟨b, rest, line', column', rfl, h⟩

/-- The four digits of a long escape were read. -/
theorem of_scanTextFrom_digits {lead : Option Nat}
    (h : scanTextFrom (.hex lead []) seen line column bs = .ok (s, c')) :
    ∃ x y z w rest n next out line' column', bs = x :: y :: z :: w :: rest ∧
      hexNumber? [x, y, z, w] = some n ∧ hexStep lead n = .more next out ∧
        scanTextFrom next (out.reverse ++ seen) line' column' rest = .ok (s, c') := by
  obtain ⟨x, bs₁, line₁, column₁, rfl, h₁⟩ := of_scanTextFrom_hex (by decide) h
  obtain ⟨y, bs₂, line₂, column₂, rfl, h₂⟩ := of_scanTextFrom_hex (by simp) h₁
  obtain ⟨z, bs₃, line₃, column₃, rfl, h₃⟩ := of_scanTextFrom_hex (by simp) h₂
  obtain ⟨w, rest, next, out, line', column', rfl, hstep, h⟩ := of_scanTextFrom_inside h₃ (by simp)
  rw [textStep] at hstep
  simp only [List.nil_append, List.cons_append, List.length_cons, List.length_nil, Nat.reduceAdd,
    Nat.lt_irrefl, if_false] at hstep
  split at hstep
  · next n hn => exact ⟨x, y, z, w, rest, n, next, out, line', column', rfl, hn, hstep, h⟩
  · cases hstep

/-- A long escape was read, from behind its backslash and its letter. -/
theorem of_scanTextFrom_long {lead : Option Nat}
    (h : scanTextFrom (.hex lead []) seen line column bs = .ok (s, c')) :
    ∃ escape n rest next out line' column', IsLongEscape escape n ∧
      0x5C :: 0x75 :: bs = Utf8.bytes escape ++ rest ∧ rest.length < bs.length ∧
        hexStep lead n = .more next out ∧
          scanTextFrom next (out.reverse ++ seen) line' column' rest = .ok (s, c') := by
  obtain ⟨x, y, z, w, rest, n, next, out, line', column', rfl, hn, hstep, h⟩ :=
    of_scanTextFrom_digits h
  obtain ⟨escape, hescape, hbytes⟩ := exists_isLongEscape hn
  refine ⟨escape, n, rest, next, out, line', column', hescape, by rw [hbytes]; rfl, ?_, hstep, h⟩
  simp only [List.length_cons]
  omega

/-- The number of a long escape is a character, or it leads a pair. -/
theorem hexStep_cases {n : Nat} {next : TextState} (h : hexStep none n = .more next out) :
    (¬IsLeadSurrogate n ∧ ¬IsTrailSurrogate n ∧ next = .plain ∧
        out = String.utf8EncodeChar (Char.ofNat n)) ∨
      IsLeadSurrogate n ∧ next = .afterLead n ∧ out = [] := by
  rw [hexStep] at h
  split_ifs at h with htrail hlead
  · obtain ⟨rfl, rfl⟩ := TextStep.more.inj h
    exact .inr ⟨hlead, rfl, rfl⟩
  · obtain ⟨rfl, rfl⟩ := TextStep.more.inj h
    exact .inl ⟨hlead, htrail, rfl, Utf8.encode_singleton _⟩

/-- The number of a long escape behind a leading surrogate ends the pair. -/
theorem hexStep_some_cases {lead n : Nat} {next : TextState}
    (h : hexStep (some lead) n = .more next out) :
    IsTrailSurrogate n ∧ next = .plain ∧ out = String.utf8EncodeChar
      (Char.ofNat ((lead - 0xD800) * 0x400 + (n - 0xDC00) + 0x10000)) := by
  rw [hexStep] at h
  split_ifs at h with htrail
  obtain ⟨rfl, rfl⟩ := TextStep.more.inj h
  exact ⟨htrail, rfl, Utf8.encode_singleton _⟩

/-- The second escape of a pair was read. -/
theorem of_scanTextFrom_afterLead {lead : Nat}
    (h : scanTextFrom (.afterLead lead) seen line column bs = .ok (s, c')) :
    ∃ escape n rest line' column', IsLongEscape escape n ∧ IsTrailSurrogate n ∧
      bs = Utf8.bytes escape ++ rest ∧ rest.length < bs.length ∧
        scanTextFrom .plain ((String.utf8EncodeChar
          (Char.ofNat ((lead - 0xD800) * 0x400 + (n - 0xDC00) + 0x10000))).reverse ++ seen)
            line' column' rest = .ok (s, c') := by
  obtain ⟨b, bs₁, next, out, line₁, column₁, rfl, hstep, h₁⟩ := of_scanTextFrom_inside h (by simp)
  simp only [textStep] at hstep
  split_ifs at hstep with hslash
  obtain ⟨rfl, rfl⟩ := TextStep.more.inj hstep
  obtain ⟨b', bs₂, next, out, line₂, column₂, rfl, hstep, h₂⟩ := of_scanTextFrom_inside h₁ (by simp)
  simp only [textStep] at hstep
  split_ifs at hstep with hletter
  obtain ⟨rfl, rfl⟩ := TextStep.more.inj hstep
  obtain ⟨escape, n, rest, next, out, line', column', hescape, hbytes, hshort, hstep, h'⟩ :=
    of_scanTextFrom_long h₂
  obtain ⟨htrail, hnext, hout⟩ := hexStep_some_cases hstep
  rw [hnext, hout] at h'
  obtain rfl : b = 0x5C := Utf8.eq_of_char hslash
  obtain rfl : b' = 0x75 := Utf8.eq_of_char hletter
  refine ⟨escape, n, rest, line', column', hescape, htrail, hbytes, ?_, h'⟩
  simp only [List.length_cons]
  omega

/-- An escape was read, from behind its backslash. -/
theorem of_scanTextFrom_escape (h : scanTextFrom .escape seen line column bs = .ok (s, c')) :
    ∃ escape x rest line' column', IsEscape escape x ∧ 0x5C :: bs = Utf8.bytes escape ++ rest ∧
      rest.length < bs.length ∧
        scanTextFrom .plain ((String.utf8EncodeChar x).reverse ++ seen) line' column' rest =
          .ok (s, c') := by
  obtain ⟨b, bs₁, next, out, line₁, column₁, rfl, hstep, h₁⟩ := of_scanTextFrom_inside h (by simp)
  simp only [textStep] at hstep
  split_ifs at hstep with hlong
  · obtain ⟨rfl, rfl⟩ := TextStep.more.inj hstep
    obtain rfl : b = 0x75 := Utf8.eq_of_char hlong
    obtain ⟨escape, n, rest, next, out, line', column', hescape, hbytes, hshort, hstep, h₂⟩ :=
      of_scanTextFrom_long h₁
    obtain ⟨hlead, htrail, rfl, rfl⟩ | ⟨hlead, rfl, rfl⟩ := hexStep_cases hstep
    · refine ⟨escape, _, rest, line', column', fun h => .long hescape hlead htrail h, hbytes, ?_,
        h₂⟩
      simp only [List.length_cons]
      omega
    · obtain ⟨escape', n', rest', line'', column'', hescape', htrail, rfl, hshort', h₃⟩ :=
        of_scanTextFrom_afterLead h₂
      refine ⟨escape ++ escape', _, rest', line'', column'', ?_, ?_, ?_, h₃⟩
      · intro written text hspells
        rw [List.append_assoc]
        exact .pair hescape hescape' hlead htrail hspells
      · rw [hbytes, Utf8.bytes_append, List.append_assoc]
      · simp only [List.length_cons]
        omega
  · split at hstep
    · next y hshort =>
      obtain ⟨rfl, rfl⟩ := TextStep.more.inj hstep
      have hmem := mem_of_shortEscape? hshort
      obtain ⟨hsmall, hsmall', -, -⟩ := shortEscape?_of_mem hmem
      rw [Utf8.toNat_ofNat_toNat] at hsmall hsmall'
      refine ⟨['\\', Char.ofNat b.toNat], Char.ofNat y.toNat, bs₁, line₁, column₁,
        fun h => .short hmem h, ?_, Nat.lt_succ_self _, ?_⟩
      · rw [Utf8.bytes_cons_of_lt (by decide), Utf8.bytes_ofNat hsmall]
        rfl
      · rw [Utf8.utf8EncodeChar_ofNat hsmall']
        exact h₁
    · cases hstep

/-! ### Whole strings -/

/-- Between characters the string ends, or a piece of it comes next. -/
theorem of_scanTextFrom_plain (h : scanTextFrom .plain seen line column bs = .ok (s, c')) :
    (bs = 0x22 :: c'.rest ∧ Utf8.decode? seen.reverse = some s) ∨
      ∃ piece out rest line' column', bs = piece ++ rest ∧ rest.length < bs.length ∧
        (∀ {read out'}, StandsFor read out' → StandsFor (piece ++ read) (out ++ out')) ∧
          scanTextFrom .plain (out.reverse ++ seen) line' column' rest = .ok (s, c') := by
  obtain ⟨b, rest, rfl, ⟨hclose, hdecode, hrest⟩ | ⟨next, out, line', column', hstep, h⟩⟩ :=
    of_scanTextFrom h
  · obtain rfl : b = 0x22 := Utf8.eq_of_char (of_textStep_close hclose).2
    exact .inl ⟨by rw [hrest], hdecode⟩
  · simp only [textStep] at hstep
    split_ifs at hstep with hquote hslash hcontrol
    · obtain ⟨rfl, rfl⟩ := TextStep.more.inj hstep
      obtain rfl : b = 0x5C := Utf8.eq_of_char hslash
      obtain ⟨escape, x, rest', line'', column'', hescape, hbytes, hshort, h⟩ :=
        of_scanTextFrom_escape h
      refine .inr ⟨_, _, rest', line'', column'', hbytes, ?_, fun h => .escape hescape h, h⟩
      rw [List.length_cons]
      omega
    · obtain ⟨rfl, rfl⟩ := TextStep.more.inj hstep
      have hspace : 0x20 ≤ b.toNat :=
        Nat.le_of_not_lt fun hlt => hcontrol (UInt8.lt_iff_toNat_lt.2 hlt)
      have hb : 0x20 ≤ b.toNat ∧ b ≠ 0x22 ∧ b ≠ 0x5C := by
        refine ⟨hspace, ?_, ?_⟩
        · rintro rfl
          exact hquote rfl
        · rintro rfl
          exact hslash rfl
      exact .inr ⟨[b], [b], rest, line', column', rfl, Nat.lt_succ_self _, fun h => .plain hb h, h⟩

theorem standsFor_of_scanTextFrom (h : scanTextFrom .plain seen line column bs = .ok (s, c')) :
    ∃ read out, StandsFor read out ∧ bs = read ++ 0x22 :: c'.rest ∧
      Utf8.decode? (seen.reverse ++ out) = some s := by
  induction hlength : bs.length using Nat.strongRecOn generalizing seen bs line column with
  | ind n ih =>
    obtain ⟨rfl, hdecode⟩ | ⟨piece, out, rest, line', column', rfl, hshort, hpiece, h⟩ :=
      of_scanTextFrom_plain h
    · exact ⟨[], [], .nil, rfl, by rwa [List.append_nil]⟩
    · obtain ⟨read, out', hstands, rfl, hdecode⟩ := ih _ (by omega) h rfl
      refine ⟨piece ++ read, out ++ out', hpiece hstands, (List.append_assoc _ _ _).symm, ?_⟩
      simpa using hdecode

/-- **A string was read**, from behind its opening quote: the bytes up to the closing one spell
it. -/
theorem spans_of_scanText (h : scanText c = .ok (s, c')) :
    ∃ written, Spells written s.toList ∧ Spans c (written ++ ['"']) c' := by
  obtain ⟨read, out, hstands, hrest, hdecode⟩ := standsFor_of_scanTextFrom h
  have hout := Utf8.eq_encode_of_decode? hdecode
  rw [List.reverse_nil, List.nil_append, Utf8.encode_eq_bytes] at hout
  rw [hout] at hstands
  obtain ⟨written, hspells, rfl⟩ := hstands.exists_spells
  refine ⟨written, hspells, ?_⟩
  rw [Spans, hrest, Utf8.bytes_append, List.append_assoc, Utf8.bytes_cons_of_lt (by decide)]
  rfl

/-- A string was read, with the blanks in front of it. -/
theorem spans_of_readText {depth : Nat} (h : readText depth c = .ok (s, c')) :
    ∃ blanks value, Blanks blanks ∧ IsTextOf s value ∧ Spans c (blanks ++ value) c' := by
  rw [readText] at h
  split at h
  · next hquote =>
    obtain ⟨blanks, hblanks, hspans⟩ := spans_blanks_advance hquote (by decide)
    obtain ⟨written, hspells, hspans'⟩ := spans_of_scanText h
    refine ⟨blanks, _, hblanks, .intro hspells, ?_⟩
    simpa using hspans.trans hspans'
  · obtain ⟨found, -, h⟩ := of_bind_eq_ok h
    cases h

end SignIn.Json
