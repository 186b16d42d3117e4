import SignIn.Proofs.Json.Pass
import SignIn.Proofs.Text.Lossy

/-!
# What a reader has taken

Elsewhere it is said that what the grammar knows can be read. Here it is the other way round: what
was read is known to the grammar. A reader tells where it stands, and from there one can look back
at what it has come over.

What it has come over are bytes, and those of a string need not be a text, if the string was only
passed over. So there are two ways to look back. Most readers have come over the bytes of a text,
which is `Json.Spans`. For strings, and whatever has strings in it, the text is the one that the
bytes are read as in the lossy way, and that is `Json.Takes`.

## Main definitions

* `Json.Spans`, `Json.Takes` — what stands between two places of a text

## Main results

* `Json.spans_of_skipNumber` — a number was passed over
* `Json.takes_of_skipText` — a string was passed over
-/

namespace SignIn.Json

variable {c c₁ c' : Cursor} {x : Char} {text text' : List Char}

/-! ### Looking back -/

/-- From `c` to `c'` are the bytes of this text. -/
def Spans (c : Cursor) (text : List Char) (c' : Cursor) : Prop :=
  c.rest = Utf8.bytes text ++ c'.rest

/-- From `c` to `c'` are bytes that are read as this text in the lossy way. -/
def Takes (c : Cursor) (text : List Char) (c' : Cursor) : Prop :=
  Utf8.lossy c.rest = text ++ Utf8.lossy c'.rest

theorem Spans.refl (c : Cursor) : Spans c [] c := rfl

theorem Spans.trans (h : Spans c text c₁) (h' : Spans c₁ text' c') :
    Spans c (text ++ text') c' := by
  rw [Spans, h, h', Utf8.bytes_append, List.append_assoc]

theorem Spans.takes (h : Spans c text c') : Takes c text c' := by
  rw [Takes, h, Utf8.lossy_bytes_append]

theorem Takes.trans (h : Takes c text c₁) (h' : Takes c₁ text' c') :
    Takes c (text ++ text') c' := by
  rw [Takes, h, h', List.append_assoc]

/-- The bytes of a character that comes next. -/
theorem spans_advance (hpeek : c.peek = some x) (hx : x.toNat < 0x80) : Spans c [x] c.advance := by
  obtain ⟨b, rest, hrest⟩ := List.exists_cons_of_ne_nil (Cursor.rest_ne_nil_of_peek hpeek)
  rw [Cursor.peek_of_cons hrest] at hpeek
  have hb : b.toNat = x.toNat := Utf8.ofNat_toNat_eq_iff.1 (Option.some.inj hpeek)
  rw [Spans, Cursor.rest_advance hrest, hrest, Utf8.bytes_cons_of_lt hx, ← hb, UInt8.ofNat_toNat]
  rfl

theorem spans_skipBlanks_go (bs : Bytes) (line column : Nat) :
    ∃ blanks, Blanks blanks ∧
      bs = Utf8.bytes blanks ++ (Cursor.skipBlanks.go bs line column).rest := by
  fun_induction Cursor.skipBlanks.go bs line column with
  | case1 line column => exact ⟨[], .nil, rfl⟩
  | case2 rest line column ih =>
    obtain ⟨blanks, hblanks, hrest⟩ := ih
    exact ⟨'\n' :: blanks, List.forall_mem_cons.2 ⟨by decide, hblanks⟩, congrArg (_ :: ·) hrest⟩
  | case3 b rest line column hline hblank ih =>
    obtain ⟨blanks, hblanks, hrest⟩ := ih
    obtain rfl | rfl | rfl := hblank
    · exact ⟨' ' :: blanks, List.forall_mem_cons.2 ⟨by decide, hblanks⟩, congrArg (_ :: ·) hrest⟩
    · exact ⟨'\t' :: blanks, List.forall_mem_cons.2 ⟨by decide, hblanks⟩, congrArg (_ :: ·) hrest⟩
    · exact ⟨'\r' :: blanks, List.forall_mem_cons.2 ⟨by decide, hblanks⟩, congrArg (_ :: ·) hrest⟩
  | case4 b rest line column hline hblank => exact ⟨[], .nil, rfl⟩

/-- Blanks were passed over. -/
theorem spans_skipBlanks (c : Cursor) : ∃ blanks, Blanks blanks ∧ Spans c blanks c.skipBlanks :=
  spans_skipBlanks_go c.rest c.line c.column

/-- A character that comes next behind blanks. -/
theorem spans_blanks_advance (hpeek : c.skipBlanks.peek = some x) (hx : x.toNat < 0x80) :
    ∃ blanks, Blanks blanks ∧ Spans c (blanks ++ [x]) c.skipBlanks.advance := by
  obtain ⟨blanks, hblanks, hspans⟩ := spans_skipBlanks c
  exact ⟨blanks, hblanks, hspans.trans (spans_advance hpeek hx)⟩

/-! ### Words and numbers -/

theorem spans_of_scanWord {letters : List Char} (hletters : ∀ x ∈ letters, x.toNat < 0x80)
    (h : scanWord letters c = .ok c') : Spans c letters c' := by
  induction letters generalizing c with
  | nil =>
    cases h
    exact .refl _
  | cons x letters ih =>
    rw [scanWord] at h
    split at h
    · cases h
    · next y hpeek =>
      split at h
      · next hy =>
        subst hy
        have hbehind := ih (fun z hz => hletters z (List.mem_cons_of_mem _ hz)) h
        exact (spans_advance hpeek (hletters y List.mem_cons_self)).trans hbehind
      · cases h

theorem spans_spanDigits_go (bs : Bytes) (line column : Nat) :
    ∃ digits, (∀ d ∈ digits, d.isDigit = true) ∧
      digits.length = (spanDigits.go bs line column).1.length ∧
        bs = Utf8.bytes digits ++ (spanDigits.go bs line column).2.rest := by
  fun_induction spanDigits.go bs line column with
  | case1 line column => exact ⟨[], nofun, rfl, rfl⟩
  | case2 b rest line column d hdigit ds c hgo ih =>
    obtain ⟨digits, hdigits, hlength, hrest⟩ := ih
    rw [hgo] at hlength hrest
    have hb := isDigit_of_digitValue? hdigit
    refine ⟨_ :: digits, List.forall_mem_cons.2 ⟨hb, hdigits⟩, congrArg (· + 1) hlength, ?_⟩
    have hsmall := Digits.toNat_lt_of_isDigit hb
    rw [Utf8.toNat_ofNat_toNat] at hsmall
    rw [Utf8.bytes_ofNat hsmall]
    exact congrArg (b :: ·) hrest
  | case3 b rest line column hdigit => exact ⟨[], nofun, rfl, rfl⟩

/-- Digits were taken, as many as there are values. -/
theorem spans_spanDigits (c : Cursor) :
    ∃ digits, (∀ d ∈ digits, d.isDigit = true) ∧ digits.length = (spanDigits c).1.length ∧
      Spans c digits (spanDigits c).2 :=
  spans_spanDigits_go c.rest c.line c.column

/-- Digits were taken of which this is the first. -/
theorem spans_digits (hpeek : c.peek = some x) (hx : x.isDigit = true) :
    ∃ ds, IsDigits (x :: ds) ∧ Spans c (x :: ds) (spanDigits c).2 := by
  obtain ⟨ds, hds, -, hspans⟩ := spans_spanDigits c.advance
  rw [spanDigits_advance hpeek hx]
  exact ⟨ds, ⟨List.cons_ne_nil _ _, List.forall_mem_cons.2 ⟨hx, hds⟩⟩,
    (spans_advance hpeek (Digits.toNat_lt_of_isDigit hx)).trans hspans⟩

theorem spans_takeSign (c : Cursor) :
    ∃ sign ∈ [[], ['+'], ['-']], Spans c sign (takeSign c).2 := by
  rw [takeSign]
  split
  · next hpeek => exact ⟨['+'], by decide, spans_advance hpeek (by decide)⟩
  · next hpeek => exact ⟨['-'], by decide, spans_advance hpeek (by decide)⟩
  · exact ⟨[], by decide, .refl c⟩

/-- An exponent was passed over. -/
theorem spans_of_skipExponent (hpeek : c.peek = some x) (hx : x = 'e' ∨ x = 'E')
    (h : skipExponent c = .ok c') : ∃ text, IsExponent text ∧ Spans c text c' := by
  obtain ⟨sign, hsign, hspans⟩ := spans_takeSign c.advance
  have hsmall : x.toNat < 0x80 := by
    obtain rfl | rfl := hx
    · decide
    · decide
  rw [skipExponent] at h
  split at h
  · next d hdigit =>
    split at h
    · next hd =>
      cases h
      obtain ⟨ds, hds, hdigits⟩ := spans_digits hdigit hd
      exact ⟨_, .some hx hsign hds, (spans_advance hpeek hsmall).trans (hspans.trans hdigits)⟩
    · cases h
  · cases h

/-- What may follow the whole part of a number was passed over. -/
theorem spans_of_skipAfterWhole (h : skipAfterWhole c = .ok c') :
    ∃ fraction exponent, IsFraction fraction ∧ IsExponent exponent ∧
      Spans c (fraction ++ exponent) c' := by
  rw [skipAfterWhole] at h
  split at h
  · next hpoint =>
    dsimp only at h
    split at h
    · cases h
    · next hne =>
      obtain ⟨digits, hdigits, hlength, hspans⟩ := spans_spanDigits c.advance
      have hfraction : IsFraction ('.' :: digits) := by
        refine .some ⟨?_, hdigits⟩
        rintro rfl
        exact hne (List.isEmpty_iff.2 (List.eq_nil_of_length_eq_zero hlength.symm))
      have htaken := (spans_advance hpoint (by decide)).trans hspans
      split at h
      · next hpeek =>
        obtain ⟨exponent, hexponent, hbehind⟩ := spans_of_skipExponent hpeek (.inl rfl) h
        exact ⟨_, exponent, hfraction, hexponent, htaken.trans hbehind⟩
      · next hpeek =>
        obtain ⟨exponent, hexponent, hbehind⟩ := spans_of_skipExponent hpeek (.inr rfl) h
        exact ⟨_, exponent, hfraction, hexponent, htaken.trans hbehind⟩
      · cases h
        exact ⟨_, [], hfraction, .none, htaken.trans (.refl _)⟩
  · next hpeek =>
    obtain ⟨exponent, hexponent, hspans⟩ := spans_of_skipExponent hpeek (.inl rfl) h
    exact ⟨[], exponent, .none, hexponent, hspans⟩
  · next hpeek =>
    obtain ⟨exponent, hexponent, hspans⟩ := spans_of_skipExponent hpeek (.inr rfl) h
    exact ⟨[], exponent, .none, hexponent, hspans⟩
  · cases h
    exact ⟨[], [], .none, .none, .refl c⟩

/-- A number was passed over, from behind its sign. -/
theorem spans_of_skipNumber (h : skipNumber c = .ok c') :
    ∃ text, IsUnsigned text ∧ Spans c text c' := by
  have hbehind : ∀ {whole : List Char} {c₁ : Cursor}, IsWhole whole → Spans c whole c₁ →
      skipAfterWhole c₁ = .ok c' → ∃ text, IsUnsigned text ∧ Spans c text c' := by
    intro whole c₁ hwhole hspans h
    obtain ⟨fraction, exponent, hfraction, hexponent, hafter⟩ := spans_of_skipAfterWhole h
    exact ⟨_, .intro hwhole hfraction hexponent, hspans.trans hafter⟩
  rw [skipNumber] at h
  split at h
  · next hzero =>
    have hspans := spans_advance hzero (by decide)
    dsimp only at h
    split at h
    · split at h
      · cases h
      · exact hbehind .zero hspans h
    · exact hbehind .zero hspans h
  · next x hzero hpeek =>
    split at h
    · next hx =>
      obtain ⟨ds, hds, hspans⟩ := spans_digits hpeek hx
      have hne : x ≠ '0' := hzero
      exact hbehind (.digits hne hds) hspans h
    · cases h
  · cases h

/-! ### Escapes -/

theorem isHexDigit_of_hexValue? {b : UInt8} {n : Nat} (h : hexValue? b = some n) :
    b.toNat < 0x80 ∧ IsHexDigit (Char.ofNat b.toNat) n := by
  have hdigits : ∀ k < 0x80, ∀ n ∈ hexValue? (UInt8.ofNat k), IsHexDigit (Char.ofNat k) n := by
    decide
  have hsmall : b.toNat < 0x80 := by
    rw [hexValue?] at h
    split_ifs at h <;> omega
  have hb : hexValue? (UInt8.ofNat b.toNat) = some n := by rwa [UInt8.ofNat_toNat]
  exact ⟨hsmall, hdigits _ hsmall n hb⟩

/-- Four digits behind a backslash and the letter are a long escape. -/
theorem exists_isLongEscape {x y z w : UInt8} {n : Nat} (h : hexNumber? [x, y, z, w] = some n) :
    ∃ escape, IsLongEscape escape n ∧ Utf8.bytes escape = [0x5C, 0x75, x, y, z, w] := by
  have hnumber : ∃ a b c d, hexValue? x = some a ∧ hexValue? y = some b ∧ hexValue? z = some c ∧
      hexValue? w = some d ∧ 16 * (16 * (16 * a + b) + c) + d = n := by
    simpa [hexNumber?, Option.bind_eq_some_iff, Option.map_eq_some_iff] using h
  obtain ⟨a, b, c, d, hx, hy, hz, hw, rfl⟩ := hnumber
  obtain ⟨hxs, hx⟩ := isHexDigit_of_hexValue? hx
  obtain ⟨hys, hy⟩ := isHexDigit_of_hexValue? hy
  obtain ⟨hzs, hz⟩ := isHexDigit_of_hexValue? hz
  obtain ⟨hws, hw⟩ := isHexDigit_of_hexValue? hw
  refine ⟨_, .intro hx hy hz hw, ?_⟩
  rw [Utf8.bytes_cons_of_lt (by decide), Utf8.bytes_cons_of_lt (by decide), Utf8.bytes_ofNat hxs,
    Utf8.bytes_ofNat hys, Utf8.bytes_ofNat hzs, Utf8.bytes_ofNat hws]
  rfl

theorem mem_of_shortEscape? {x : Char} {y : UInt8} (h : shortEscape? x = some y) :
    (x, Char.ofNat y.toNat) ∈ shortEscapes := by
  unfold shortEscape? at h
  split at h
  all_goals
    first
    | cases h
      decide
    | cases h

/-! ### Strings -/

/-- A byte that a reader takes for this character is its only one. -/
theorem lossy_cons_of_char {b : UInt8} (h : Char.ofNat b.toNat = x) (hx : x.toNat < 0x80)
    (rest : Bytes) : Utf8.lossy (b :: rest) = x :: Utf8.lossy rest := by
  have hb : b.toNat = x.toNat := Utf8.ofNat_toNat_eq_iff.1 h
  rw [Utf8.lossy_cons_of_lt (by omega), h]

variable {line column : Nat} {bs : Bytes}

/-- One of the digits of a long escape was passed over, and not the last one. -/
theorem of_skipTextFrom_hex {digits : List UInt8} (hdigits : digits.length < 3)
    (h : skipTextFrom (.hex digits) line column bs = .ok c') :
    ∃ b rest line' column', bs = b :: rest ∧
      skipTextFrom (.hex (digits ++ [b])) line' column' rest = .ok c' := by
  cases bs with
  | nil => cases h
  | cons b rest =>
    rw [skipTextFrom] at h
    simp only [hdigits, if_true] at h
    exact ⟨b, rest, _, _, rfl, h⟩

/-- The four digits of a long escape were passed over. -/
theorem of_skipTextFrom_digits (h : skipTextFrom (.hex []) line column bs = .ok c') :
    ∃ x y z w rest n line' column', bs = x :: y :: z :: w :: rest ∧
      hexNumber? [x, y, z, w] = some n ∧ skipTextFrom .plain line' column' rest = .ok c' := by
  obtain ⟨x, bs₁, line₁, column₁, rfl, h₁⟩ := of_skipTextFrom_hex (by decide) h
  obtain ⟨y, bs₂, line₂, column₂, rfl, h₂⟩ := of_skipTextFrom_hex (by simp) h₁
  obtain ⟨z, bs₃, line₃, column₃, rfl, h₃⟩ := of_skipTextFrom_hex (by simp) h₂
  cases bs₃ with
  | nil => cases h₃
  | cons w rest =>
    rw [skipTextFrom] at h₃
    simp only [List.nil_append, List.cons_append, List.length_cons, List.length_nil, Nat.reduceAdd,
      Nat.lt_irrefl, if_false] at h₃
    split at h₃
    · next hnumber =>
      obtain ⟨n, hn⟩ := Option.isSome_iff_exists.1 hnumber
      exact ⟨x, y, z, w, rest, n, _, _, rfl, hn, h₃⟩
    · cases h₃

/-- An escape was passed over, from behind its backslash. -/
theorem of_skipTextFrom_escape (h : skipTextFrom .escape line column bs = .ok c') :
    ∃ escape rest line' column', (∀ written, IsContent written → IsContent (escape ++ written)) ∧
      0x5C :: bs = Utf8.bytes escape ++ rest ∧ rest.length < bs.length ∧
        skipTextFrom .plain line' column' rest = .ok c' := by
  cases bs with
  | nil => cases h
  | cons b rest =>
    rw [skipTextFrom] at h
    split at h
    · next hlong =>
      obtain ⟨x, y, z, w, rest, n, line', column', rfl, hn, h⟩ := of_skipTextFrom_digits h
      obtain ⟨escape, hescape, hbytes⟩ := exists_isLongEscape hn
      have hb : b = 0x75 := Utf8.eq_of_char hlong
      refine ⟨escape, rest, line', column', fun written h => .long hescape h, ?_, ?_, h⟩
      · rw [hbytes, hb]
        rfl
      · simp only [List.length_cons]
        omega
    · split at h
      · next hshort =>
        obtain ⟨y, hy⟩ := Option.isSome_iff_exists.1 hshort
        have hmem := mem_of_shortEscape? hy
        obtain ⟨hsmall, -⟩ := shortEscape?_of_mem hmem
        rw [Utf8.toNat_ofNat_toNat] at hsmall
        refine ⟨['\\', Char.ofNat b.toNat], rest, _, _, fun written h => .short hmem h, ?_,
          Nat.lt_succ_self _, h⟩
        rw [Utf8.bytes_cons_of_lt (by decide), Utf8.bytes_ofNat hsmall]
        rfl
      · cases h

/-- A character that stands for itself was passed over, or as many bytes as are read as one. -/
theorem of_skipTextFrom_ordinary {b : UInt8} (hspace : 0x20 ≤ b.toNat)
    (hquote : Char.ofNat b.toNat ≠ '"') (hslash : Char.ofNat b.toNat ≠ '\\')
    (h : skipTextFrom .plain line column bs = .ok c') :
    ∃ x rest line' column', IsOrdinary x ∧ Utf8.lossy (b :: bs) = x :: Utf8.lossy rest ∧
      rest.length ≤ bs.length ∧ skipTextFrom .plain line' column' rest = .ok c' := by
  by_cases hsmall : b.toNat < 0x80
  · have hordinary : IsOrdinary (Char.ofNat b.toNat) :=
      ⟨by rwa [Utf8.toNat_ofNat_toNat], hquote, hslash⟩
    exact ⟨_, bs, line, column, hordinary, Utf8.lossy_cons_of_lt hsmall bs, Nat.le_refl _, h⟩
  · -- The reader goes on byte by byte up to where the next character begins.
    obtain ⟨x, taken, rest, rfl, htaken, hx, hread⟩ :=
      Utf8.lossy_cons_of_le (Nat.le_of_not_lt hsmall) bs
    obtain ⟨line', column', hskip⟩ :=
      skips_plain (fun b hb => plain_of_le (htaken b hb)) line column rest
    refine ⟨x, rest, line', column', isOrdinary_of_le hx, hread, ?_, hskip ▸ h⟩
    rw [List.length_append]
    omega

theorem lossy_of_skipTextFrom (h : skipTextFrom .plain line column bs = .ok c') :
    ∃ written, IsContent written ∧ Utf8.lossy bs = written ++ '"' :: Utf8.lossy c'.rest := by
  induction hlength : bs.length using Nat.strongRecOn generalizing bs line column with
  | ind n ih =>
    cases bs with
    | nil => cases h
    | cons b rest =>
      rw [List.length_cons] at hlength
      rw [skipTextFrom] at h
      split at h
      · next hquote =>
        cases h
        refine ⟨[], .nil, ?_⟩
        rw [lossy_cons_of_char hquote (by decide), Cursor.rest_after]
        rfl
      · next hquote =>
        split at h
        · next hslash =>
          obtain ⟨escape, behind, line', column', hescape, hbytes, hshort, h⟩ :=
            of_skipTextFrom_escape h
          obtain ⟨written, hwritten, hlossy⟩ := ih _ (by omega) h rfl
          have hb : b = 0x5C := Utf8.eq_of_char hslash
          refine ⟨escape ++ written, hescape written hwritten, ?_⟩
          rw [hb, hbytes, Utf8.lossy_bytes_append, hlossy, List.append_assoc]
        · next hslash =>
          split at h
          · cases h
          · next hcontrol =>
            have hspace : 0x20 ≤ b.toNat :=
              Nat.le_of_not_lt fun hlt => hcontrol (UInt8.lt_iff_toNat_lt.2 hlt)
            obtain ⟨x, behind, line', column', hx, hread, hshort, h⟩ :=
              of_skipTextFrom_ordinary hspace hquote hslash h
            obtain ⟨written, hwritten, hlossy⟩ := ih _ (by omega) h rfl
            exact ⟨x :: written, .ordinary hx hwritten, by rw [hread, hlossy, List.cons_append]⟩

/-- A string was passed over, from behind its opening quote. -/
theorem takes_of_skipText (h : skipText c = .ok c') :
    ∃ written, IsContent written ∧ Takes c (written ++ ['"']) c' := by
  obtain ⟨written, hwritten, htakes⟩ := lossy_of_skipTextFrom h
  exact ⟨written, hwritten, by simpa [Takes] using htakes⟩

end SignIn.Json
