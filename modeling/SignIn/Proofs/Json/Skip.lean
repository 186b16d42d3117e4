import SignIn.Proofs.Except
import SignIn.Proofs.Json.Number
import SignIn.Proofs.Json.Text

/-!
# Passing over values

A value that nobody knows is dropped, and only its end has to be found. That is done in a walk with
a stack of open frames, so the walk does not follow the grammar: there is no call for a value inside
of a value, and whether the walk ends depends on frames that were opened long before.

But what a value does to the walk does not depend on them. Behind the value the walk goes on in one
way for all values, it looks whether frames are closed and where the next value comes. So with the
frames around it as they were, each value leads from its front to the place behind it, and that can
be proved along the grammar. The nesting is not limited.

## Main definitions

* `Json.resume` — how the walk goes on behind a value
* `Json.Walks` — the walk comes from the front of a value to the place behind it
* `Json.Passes` — passing over takes exactly this text

## Main results

* `Json.walks_of_isValue` — what the grammar calls a value
* `Json.passes_of_isValue` — is passed over
-/

namespace SignIn.Json

variable {c c' : Cursor} {rest : Bytes} {blanks text : List Char} {x : Char}

/-! ### Blanks -/

/-- The next byte is no blank. -/
def NoBlank (rest : Bytes) : Prop := ∀ b ∈ rest.head?, b ∉ ([0x20, 0x09, 0x0A, 0x0D] : Bytes)

/-- A character that is no blank. -/
theorem noBlank_of_char (hx : x.toNat < 0x80) (hblank : x ∉ blankChars) :
    NoBlank (Utf8.bytes (x :: text) ++ rest) := by
  intro b hb hmem
  rw [Utf8.bytes_cons_of_lt hx, List.cons_append, List.head?_cons, Option.mem_some_iff] at hb
  have hchar : Char.ofNat b.toNat = x := by rw [← hb, Utf8.ofNat_toNat_ofNat hx]
  rw [← hchar] at hblank
  simp only [List.mem_cons, List.not_mem_nil, or_false] at hmem
  rcases hmem with rfl | rfl | rfl | rfl
  all_goals exact hblank (by decide)

theorem Cursor.skipBlanks_go (hblanks : Blanks blanks) (hrest : NoBlank rest) (line column : Nat) :
    (skipBlanks.go (Utf8.bytes blanks ++ rest) line column).rest = rest := by
  induction blanks generalizing line column with
  | nil =>
    rw [Utf8.bytes_nil, List.nil_append]
    cases rest with
    | nil => rfl
    | cons b rest =>
      have hb := hrest b rfl
      simp only [List.mem_cons, List.not_mem_nil, or_false, not_or] at hb
      obtain ⟨hspace, htab, hline, hreturn⟩ := hb
      simp [skipBlanks.go, hspace, htab, hline, hreturn]
  | cons x blanks ih =>
    have hx := hblanks x List.mem_cons_self
    have hbehind : Blanks blanks := fun y hy => hblanks y (List.mem_cons_of_mem _ hy)
    simp only [blankChars, List.mem_cons, List.not_mem_nil, or_false] at hx
    rcases hx with rfl | rfl | rfl | rfl
    all_goals exact ih hbehind _ _

/-- Behind the blanks comes what is no blank. -/
theorem Cursor.rest_skipBlanks (hblanks : Blanks blanks) (hrest : NoBlank rest)
    (h : c.rest = Utf8.bytes blanks ++ rest) : c.skipBlanks.rest = rest := by
  rw [skipBlanks, h]
  exact skipBlanks_go hblanks hrest c.line c.column

/-- A character comes next behind the blanks. -/
theorem Cursor.of_blanks (hblanks : Blanks blanks) (hx : x.toNat < 0x80) (hblank : x ∉ blankChars)
    (h : c.rest = Utf8.bytes (blanks ++ x :: text) ++ rest) :
    c.skipBlanks.rest = Utf8.bytes (x :: text) ++ rest ∧ c.skipBlanks.peek = some x ∧
      c.skipBlanks.advance.rest = Utf8.bytes text ++ rest := by
  rw [Utf8.bytes_append, List.append_assoc] at h
  have hrest := rest_skipBlanks hblanks (noBlank_of_char hx hblank) h
  exact ⟨hrest, of_char hx hrest⟩

/-- Behind the blanks comes something that ends a value. -/
theorem delimited_of_blanks (hblanks : Blanks blanks) (hx : x ∈ [',', ']', '}']) :
    Delimited (Utf8.bytes (blanks ++ x :: text) ++ rest) := by
  have hdelimited : ∀ y ∈ blankChars ++ [',', ']', '}'], ∀ cs : List Char,
      Delimited (Utf8.bytes (y :: cs) ++ rest) := by
    intro y hy cs b hb
    simp only [blankChars, List.cons_append, List.nil_append, List.mem_cons, List.not_mem_nil,
      or_false] at hy
    rcases hy with rfl | rfl | rfl | rfl | rfl | rfl | rfl
    all_goals
      rw [Utf8.bytes_cons_of_lt (by decide), List.cons_append, List.head?_cons,
        Option.mem_some_iff] at hb
      rw [← hb]
      decide
  cases blanks with
  | nil => exact hdelimited x (List.mem_append_right _ hx) _
  | cons y blanks => exact hdelimited y (List.mem_append_left _ (hblanks y List.mem_cons_self)) _

/-! ### The start of a value -/

/-- A value can start with this character. -/
structure IsHead (x : Char) : Prop where
  ascii : x.toNat < 0x80
  noBlank : x ∉ blankChars
  noBracket : ∀ frame : Frame, x ≠ frame.bracket

theorem isHead_of_isDigit (h : x.isDigit = true) : IsHead x := by
  have hne : ∀ y : Char, y.isDigit = false → x ≠ y := by
    rintro y hy rfl
    rw [h] at hy
    contradiction
  refine ⟨Digits.toNat_lt_of_isDigit h, ?_, ?_⟩
  · simp only [blankChars, List.mem_cons, List.not_mem_nil, or_false, not_or]
    exact ⟨hne _ rfl, hne _ rfl, hne _ rfl, hne _ rfl⟩
  · rintro (_ | _)
    · exact hne _ rfl
    · exact hne _ rfl

/-- The characters that are no digits and that a value can start with. -/
theorem isHead_of_mem (h : x ∈ ['n', 't', 'f', '-', '"', '[', '{']) : IsHead x := by
  simp only [List.mem_cons, List.not_mem_nil, or_false] at h
  rcases h with rfl | rfl | rfl | rfl | rfl | rfl | rfl
  all_goals
    refine ⟨by decide, by decide, ?_⟩
    rintro (_ | _)
    · decide
    · decide

theorem IsUnsigned.exists_head (h : IsUnsigned text) :
    ∃ d tail, text = d :: tail ∧ d.isDigit = true := by
  obtain ⟨hwhole, -, -⟩ := h
  cases hwhole with
  | zero => exact ⟨'0', _, rfl, rfl⟩
  | @digits d ds hd hdigits => exact ⟨d, _, rfl, hdigits.2 d List.mem_cons_self⟩

theorem IsAtom.exists_head (h : IsAtom text) : ∃ x tail, text = x :: tail ∧ IsHead x := by
  cases h with
  | null => exact ⟨'n', _, rfl, isHead_of_mem (by decide)⟩
  | true => exact ⟨'t', _, rfl, isHead_of_mem (by decide)⟩
  | false => exact ⟨'f', _, rfl, isHead_of_mem (by decide)⟩
  | number hnumber =>
    cases hnumber with
    | positive hunsigned =>
      obtain ⟨d, tail, htext, hd⟩ := hunsigned.exists_head
      exact ⟨d, tail, htext, isHead_of_isDigit hd⟩
    | negative hunsigned => exact ⟨'-', _, rfl, isHead_of_mem (by decide)⟩
  | text hcontent => exact ⟨'"', _, rfl, isHead_of_mem (by decide)⟩

theorem isHead_opening (frame : Frame) : IsHead frame.opening := by
  cases frame with
  | sequence => exact isHead_of_mem (by decide)
  | mapping => exact isHead_of_mem (by decide)

theorem isBracket (frame : Frame) : frame.bracket.toNat < 0x80 ∧ frame.bracket ∉ blankChars := by
  cases frame with
  | sequence => decide
  | mapping => decide

theorem bracket_mem (frame : Frame) : frame.bracket ∈ [',', ']', '}'] := by
  cases frame with
  | sequence => decide
  | mapping => decide

theorem IsValue.exists_head (h : IsValue text) : ∃ x tail, text = x :: tail ∧ IsHead x := by
  cases h with
  | atom hatom => exact hatom.exists_head
  | empty frame hinside => exact ⟨_, _, rfl, isHead_opening frame⟩
  | frame frame hne hlead hvalue htrail => exact ⟨_, _, rfl, isHead_opening frame⟩

/-! ### Values without parts -/

theorem scanWord_of_letters {letters : List Char} (hletters : ∀ x ∈ letters, x.toNat < 0x80)
    (h : c.rest = Utf8.bytes letters ++ rest) : ∃ c', scanWord letters c = .ok c' ∧ c'.rest = rest := by
  induction letters generalizing c with
  | nil => exact ⟨c, rfl, h⟩
  | cons x letters ih =>
    obtain ⟨hpeek, hadvance⟩ := Cursor.of_char (hletters x List.mem_cons_self) h
    obtain ⟨c', hscan, hc'⟩ := ih (fun y hy => hletters y (List.mem_cons_of_mem _ hy)) hadvance
    refine ⟨c', ?_, hc'⟩
    simp only [scanWord, hpeek, if_true, hscan]

/-- A value that starts with a digit is a number. -/
theorem start_of_isDigit {d : Char} (hpeek : c.peek = some d) (hd : d.isDigit = true)
    (mode : Mode) : mode.start c = (none, ·) <$> mode.number false c := by
  have hword : ∀ x : Char, x.isDigit = false → d ≠ x := by
    rintro x hx rfl
    rw [hd] at hx
    contradiction
  have := hword 'n' rfl
  have := hword 't' rfl
  have := hword 'f' rfl
  have := hword '-' rfl
  have := hword '"' rfl
  have := hword '[' rfl
  have := hword '{' rfl
  rw [Mode.start, hpeek]
  simp only [hd, if_true]

/-- A value without parts is over at once. -/
theorem start_of_isAtom (hatom : IsAtom text) (h : c.rest = Utf8.bytes text ++ rest)
    (hrest : Delimited rest) : ∃ c', Mode.drop.start c = .ok (none, c') ∧ c'.rest = rest := by
  have hword : ∀ {y : Char} {letters : List Char}, y.toNat < 0x80 →
      letters.all (fun x => x.toNat < 0x80) = true → c.rest = Utf8.bytes (y :: letters) ++ rest →
        c.peek = some y ∧ ∃ c', scanWord letters c.advance = .ok c' ∧ c'.rest = rest := by
    intro y letters hy hletters h
    obtain ⟨hpeek, hadvance⟩ := Cursor.of_char hy h
    refine ⟨hpeek, scanWord_of_letters (fun x hx => ?_) hadvance⟩
    exact of_decide_eq_true (List.all_eq_true.1 hletters x hx)
  cases hatom with
  | null =>
    obtain ⟨hpeek, c', hscan, hc'⟩ := hword (by decide) (by decide) h
    exact ⟨c', by simp only [Mode.start, hpeek, hscan]; rfl, hc'⟩
  | true =>
    obtain ⟨hpeek, c', hscan, hc'⟩ := hword (by decide) (by decide) h
    exact ⟨c', by simp only [Mode.start, hpeek, hscan]; rfl, hc'⟩
  | false =>
    obtain ⟨hpeek, c', hscan, hc'⟩ := hword (by decide) (by decide) h
    exact ⟨c', by simp only [Mode.start, hpeek, hscan]; rfl, hc'⟩
  | number hnumber =>
    cases hnumber with
    | positive hunsigned =>
      obtain ⟨d, tail, rfl, hd⟩ := hunsigned.exists_head
      obtain ⟨hpeek, -⟩ := Cursor.of_char (Digits.toNat_lt_of_isDigit hd) h
      obtain ⟨c', hskip, hc'⟩ := skipNumber_of_isUnsigned hunsigned h hrest
      refine ⟨c', ?_, hc'⟩
      rw [start_of_isDigit hpeek hd, Mode.number, hskip]
      rfl
    | negative hunsigned =>
      obtain ⟨hpeek, hadvance⟩ := Cursor.of_char (by decide) h
      obtain ⟨c', hskip, hc'⟩ := skipNumber_of_isUnsigned hunsigned hadvance hrest
      refine ⟨c', ?_, hc'⟩
      rw [Mode.start, hpeek]
      simp only [Mode.number, hskip]
      rfl
  | @text written hcontent =>
    obtain ⟨hpeek, hadvance⟩ := Cursor.of_char (by decide) h
    rw [Utf8.bytes_append, List.append_assoc, Utf8.bytes_cons_of_lt (by decide)] at hadvance
    obtain ⟨c', hskip, hc'⟩ := skipText_of_content hcontent hadvance
    refine ⟨c', ?_, hc'⟩
    rw [Mode.start, hpeek]
    simp only [Mode.text, hskip]
    rfl

/-! ### Frames -/

variable {bound : Bytes} {stack : List Frame} {frame : Frame} {lead value : List Char}

/-- A label takes the key and its colon off the text. -/
theorem key_of_isLabel {written : List Char} (hwritten : IsContent written)
    (hlabel : IsLabel written lead) (first : Bool) (h : c.rest = Utf8.bytes (lead ++ text) ++ rest) :
    ∃ ahead c', Blanks ahead ∧ Mode.drop.key first c = .ok c' ∧
      c'.rest = Utf8.bytes (ahead ++ text) ++ rest ∧ c'.rest.length ≤ c.rest.length := by
  obtain @⟨before, behind, ahead, hbefore, hbehind, hahead⟩ := hlabel
  have htext : c.rest = Utf8.bytes (before ++ '"' ::
      (written ++ '"' :: (behind ++ ':' :: (ahead ++ text)))) ++ rest := by
    simpa using h
  obtain ⟨-, hquote, hinside⟩ := Cursor.of_blanks hbefore (by decide) (by decide) htext
  rw [Utf8.bytes_append, List.append_assoc, Utf8.bytes_cons_of_lt (by decide)] at hinside
  obtain ⟨c₁, hskip, hc₁⟩ := skipText_of_content hwritten hinside
  obtain ⟨-, hcolon, hadvance⟩ := Cursor.of_blanks hbehind (by decide) (by decide) hc₁
  refine ⟨ahead, c₁.skipBlanks.advance, hahead, ?_, hadvance, ?_⟩
  · rw [Mode.key]
    simp only [hquote, Mode.text, hskip, ok_bind, hcolon]
    rfl
  · rw [hadvance, h]
    simp only [Utf8.bytes_append, Utf8.bytes_cons, List.length_append]
    omega

/-- What stands in front of a value in a frame leads to the value. -/
theorem next_of_isLead (hlead : frame.IsLead lead) (hx : IsHead x) (first : Bool)
    (h : c.rest = Utf8.bytes (lead ++ x :: text) ++ rest) :
    ∃ blanks c', Blanks blanks ∧ Mode.drop.next first frame c = .ok c' ∧
      c'.rest = Utf8.bytes (blanks ++ x :: text) ++ rest ∧ c'.rest.length ≤ c.rest.length := by
  cases frame with
  | sequence =>
    obtain ⟨hrest, -, -⟩ := Cursor.of_blanks hlead hx.ascii hx.noBlank h
    refine ⟨[], c.skipBlanks, .nil, rfl, hrest, ?_⟩
    rw [hrest, h]
    simp only [Utf8.bytes_append, List.length_append]
    omega
  | mapping =>
    obtain ⟨written, hwritten, hlabel⟩ := hlead
    exact key_of_isLabel hwritten hlabel first h

/-- The first thing in a frame that is not empty is not its bracket, and the blanks in front of it
make no difference. -/
theorem skipBlanks_of_isLead (hlead : frame.IsLead lead) (hx : IsHead x)
    (h : c.rest = Utf8.bytes (lead ++ x :: text) ++ rest) :
    ∃ lead' y, frame.IsLead lead' ∧ c.skipBlanks.peek = some y ∧ y ≠ frame.bracket ∧
      c.skipBlanks.rest = Utf8.bytes (lead' ++ x :: text) ++ rest ∧
        c.skipBlanks.rest.length ≤ c.rest.length := by
  cases frame with
  | sequence =>
    obtain ⟨hrest, hpeek, -⟩ := Cursor.of_blanks hlead hx.ascii hx.noBlank h
    refine ⟨[], x, .nil, hpeek, hx.noBracket .sequence, hrest, ?_⟩
    rw [hrest, h]
    simp only [Utf8.bytes_append, List.length_append]
    omega
  | mapping =>
    obtain ⟨written, hwritten, @⟨before, behind, ahead, hbefore, hbehind, hahead⟩⟩ := hlead
    have htext : c.rest = Utf8.bytes (before ++ '"' ::
        (written ++ '"' :: (behind ++ ':' :: (ahead ++ x :: text)))) ++ rest := by
      simpa using h
    obtain ⟨hrest, hpeek, -⟩ := Cursor.of_blanks hbefore (by decide) (by decide) htext
    refine ⟨_, '"', ⟨written, hwritten, .intro .nil hbehind hahead⟩, hpeek, by decide, ?_, ?_⟩
    · simpa using hrest
    · rw [hrest, htext]
      simp only [Utf8.bytes_append, List.length_append]
      omega

variable {mode : Mode}

/-- A frame is closed. -/
theorem turn_of_bracket (comma : Bool) (hpeek : c.skipBlanks.peek = some frame.bracket) :
    mode.turn comma (frame :: stack) c = mode.turn true stack c.skipBlanks.advance := by
  rw [Mode.turn.eq_def]
  cases frame with
  | sequence =>
    rw [Frame.bracket] at hpeek
    simp only [hpeek]
  | mapping =>
    rw [Frame.bracket] at hpeek
    simp only [hpeek]

/-- A frame goes on behind a comma. -/
theorem turn_of_comma (hpeek : c.skipBlanks.peek = some ',')
    (hnext : mode.next false frame c.skipBlanks.advance = .ok c') :
    mode.turn true (frame :: stack) c = .ok (frame :: stack, c') := by
  rw [Mode.turn.eq_def]
  cases frame with
  | sequence =>
    simp only [hpeek, hnext]
    rfl
  | mapping =>
    simp only [hpeek, hnext]
    rfl

/-- The first value of a frame comes next. -/
theorem turn_of_first (hpeek : c.skipBlanks.peek = some x) (hx : x ≠ frame.bracket)
    (hnext : mode.next true frame c.skipBlanks = .ok c') :
    mode.turn false (frame :: stack) c = .ok (frame :: stack, c') := by
  rw [Mode.turn.eq_def]
  dsimp only
  split
  · next hbracket =>
    rw [hpeek] at hbracket
    exact absurd (Option.some.inj hbracket) hx
  · next hbracket =>
    rw [hpeek] at hbracket
    exact absurd (Option.some.inj hbracket) hx
  · contradiction
  · contradiction
  · contradiction
  · rw [hnext]
    rfl
  · next hnone =>
    rw [hpeek] at hnone
    contradiction
  · next hnone =>
    rw [hpeek] at hnone
    contradiction

/-! ### The walk -/

/-- How the walk goes on when it has looked whether frames are closed: it is over if all of them
are, and otherwise the next value comes. -/
def proceed (bound : Bytes) : Except Error (List Frame × Cursor) → Except Error Cursor
  | .error e => .error e
  | .ok ([], c) => .ok c
  | .ok (frame :: stack, c) => Mode.drop.walkFrom 0 bound (frame :: stack) c

/-- How the walk goes on behind a value. -/
def resume (bound : Bytes) (stack : List Frame) (c : Cursor) : Except Error Cursor :=
  proceed bound (Mode.drop.turn true stack c)

/-- From the front of this text the walk comes to the place behind it, whatever frames are open. -/
def Walks (text : List Char) : Prop :=
  ∀ (stack : List Frame) {blanks : List Char} {bound : Bytes} {c : Cursor} {rest : Bytes},
    Blanks blanks → c.rest = Utf8.bytes (blanks ++ text) ++ rest → Delimited rest →
      c.rest.length ≤ bound.length →
        ∃ bound' c', c'.rest = rest ∧ rest.length ≤ bound'.length ∧
          Mode.drop.walkFrom 0 bound stack c = resume bound' stack c'

/-- A round of the walk starts a value, and looks what comes behind it or behind its bracket. -/
theorem walkFrom_of_start {b : UInt8} {opened : Option Frame} {inside : Cursor}
    (h : Mode.drop.start c.skipBlanks = .ok (opened, inside)) :
    Mode.drop.walkFrom 0 (b :: bound) stack c =
      proceed bound (Mode.drop.turn opened.isNone (opened.toList ++ stack) inside) := by
  have hdrop : (Mode.drop == Mode.keep) = false := by decide
  rw [Mode.walkFrom, h, ok_bind]
  simp only [hdrop, Bool.false_and, Bool.false_eq_true, if_false]
  cases Mode.drop.turn opened.isNone (opened.toList ++ stack) inside with
  | error e => rfl
  | ok next =>
    obtain ⟨_ | ⟨frame, stack⟩, c₁⟩ := next
    · rfl
    · rfl

/-- A frame starts with its bracket. -/
theorem start_opening (hpeek : c.peek = some frame.opening) :
    Mode.drop.start c = .ok (some frame, c.advance) := by
  cases frame with
  | sequence =>
    rw [Frame.opening] at hpeek
    rw [Mode.start, hpeek]
    rfl
  | mapping =>
    rw [Frame.opening] at hpeek
    rw [Mode.start, hpeek]
    rfl

theorem resume_of_bracket (hpeek : c.skipBlanks.peek = some frame.bracket) :
    resume bound (frame :: stack) c = resume bound stack c.skipBlanks.advance := by
  rw [resume, turn_of_bracket true hpeek, resume]

theorem resume_of_comma (hpeek : c.skipBlanks.peek = some ',')
    (hnext : Mode.drop.next false frame c.skipBlanks.advance = .ok c') :
    resume bound (frame :: stack) c = Mode.drop.walkFrom 0 bound (frame :: stack) c' := by
  rw [resume, turn_of_comma hpeek hnext, proceed]

/-- There is a round for a value, and it takes a byte. -/
theorem exists_round (hx : IsHead x) (hblanks : Blanks blanks)
    (h : c.rest = Utf8.bytes (blanks ++ x :: text) ++ rest) (hbound : c.rest.length ≤ bound.length) :
    ∃ b bound', bound = b :: bound' ∧ c.skipBlanks.rest = Utf8.bytes (x :: text) ++ rest ∧
      c.skipBlanks.peek = some x ∧ c.skipBlanks.advance.rest = Utf8.bytes text ++ rest ∧
        (Utf8.bytes text ++ rest).length ≤ bound'.length := by
  obtain ⟨hrest, hpeek, hadvance⟩ := Cursor.of_blanks hblanks hx.ascii hx.noBlank h
  rw [h, Utf8.bytes_append, Utf8.bytes_cons_of_lt hx.ascii] at hbound
  simp only [List.length_append, List.length_cons] at hbound
  cases bound with
  | nil =>
    rw [List.length_nil] at hbound
    omega
  | cons b bound' =>
    refine ⟨b, bound', rfl, hrest, hpeek, hadvance, ?_⟩
    rw [List.length_append]
    rw [List.length_cons] at hbound
    omega

theorem walks_of_isAtom (hatom : IsAtom text) : Walks text := by
  intro stack blanks bound c rest hblanks h hrest hbound
  obtain ⟨x, tail, rfl, hx⟩ := hatom.exists_head
  obtain ⟨b, bound', rfl, hvalue, -, -, hbound'⟩ := exists_round hx hblanks h hbound
  obtain ⟨c', hstart, hc'⟩ := start_of_isAtom hatom hvalue hrest
  refine ⟨bound', c', hc', ?_, ?_⟩
  · rw [List.length_append] at hbound'
    omega
  · rw [walkFrom_of_start hstart]
    rfl

theorem walks_of_empty (frame : Frame) {inside : List Char} (hinside : Blanks inside) :
    Walks (frame.opening :: (inside ++ [frame.bracket])) := by
  intro stack blanks bound c rest hblanks h hrest hbound
  obtain ⟨b, bound', rfl, hvalue, hpeek, hadvance, hbound'⟩ :=
    exists_round (isHead_opening frame) hblanks h hbound
  obtain ⟨-, hbracket, hend⟩ := Cursor.of_blanks hinside (isBracket frame).1 (isBracket frame).2
    hadvance
  rw [Utf8.bytes_nil, List.nil_append] at hend
  refine ⟨bound', _, hend, ?_, ?_⟩
  · rw [List.length_append] at hbound'
    omega
  · rw [walkFrom_of_start (start_opening hpeek)]
    show proceed bound' (Mode.drop.turn false (frame :: stack) _) = _
    rw [turn_of_bracket false hbracket, resume]

/-- The walk goes through the items of a frame. The first of them has its lead behind it already. -/
theorem walks_items (stack : List Frame) {i : Item} {items : List Item}
    (hlead : ∀ j ∈ items, frame.IsLead j.lead)
    (hvalue : ∀ j ∈ i :: items, IsValue j.value ∧ Walks j.value)
    (htrail : ∀ j ∈ i :: items, Blanks j.trail) (hblanks : Blanks blanks)
    (h : c.rest = Utf8.bytes (blanks ++ (i.value ++
      (i.trail ++ (Item.behind items ++ [frame.bracket])))) ++ rest)
    (hbound : c.rest.length ≤ bound.length) :
    ∃ bound' c', c'.rest = rest ∧ rest.length ≤ bound'.length ∧
      Mode.drop.walkFrom 0 bound (frame :: stack) c = resume bound' stack c' := by
  induction items generalizing i blanks bound c with
  | nil =>
    have hdelimited : Delimited (Utf8.bytes (i.trail ++ [frame.bracket]) ++ rest) :=
      delimited_of_blanks (htrail i List.mem_cons_self) (bracket_mem frame)
    obtain ⟨bound₁, c₁, hc₁, hbound₁, hwalk⟩ :=
      (hvalue i List.mem_cons_self).2 (frame :: stack) hblanks
        (by simpa [Item.behind] using h) hdelimited hbound
    obtain ⟨-, hbracket, hend⟩ := Cursor.of_blanks (htrail i List.mem_cons_self)
      (isBracket frame).1 (isBracket frame).2 hc₁
    refine ⟨bound₁, _, hend, ?_, ?_⟩
    · rw [List.length_append] at hbound₁
      exact Nat.le_trans (Nat.le_add_left _ _) hbound₁
    · rw [hwalk, resume_of_bracket hbracket]
  | cons j items ih =>
    have hdelimited : Delimited (Utf8.bytes (i.trail ++ ',' :: (j.lead ++ (j.value ++ (j.trail ++
        (Item.behind items ++ [frame.bracket]))))) ++ rest) :=
      delimited_of_blanks (htrail i List.mem_cons_self) (by decide)
    obtain ⟨bound₁, c₁, hc₁, hbound₁, hwalk⟩ :=
      (hvalue i List.mem_cons_self).2 (frame :: stack) hblanks
        (by simpa [Item.behind, Item.text] using h) hdelimited hbound
    obtain ⟨-, hcomma, hbehind⟩ := Cursor.of_blanks (htrail i List.mem_cons_self) (by decide)
      (by decide) hc₁
    obtain ⟨x, tail, hj, hx⟩ :=
      (hvalue j (List.mem_cons_of_mem _ List.mem_cons_self)).1.exists_head
    rw [hj, List.cons_append] at hbehind
    obtain ⟨blanks', c₂, hblanks', hnext, hc₂, hlength⟩ :=
      next_of_isLead (hlead j List.mem_cons_self) hx false hbehind
    have hbound₂ : c₂.rest.length ≤ bound₁.length := by
      rw [hj, List.cons_append, Utf8.bytes_append, List.append_assoc, List.length_append,
        Utf8.bytes_cons_of_lt (by decide), List.cons_append, List.length_cons, ← hbehind] at hbound₁
      omega
    rw [← List.cons_append, ← hj] at hc₂
    obtain ⟨bound', c', hc', hbound', hitems⟩ := ih
      (fun k hk => hlead k (List.mem_cons_of_mem _ hk))
      (fun k hk => hvalue k (List.mem_cons_of_mem _ hk))
      (fun k hk => htrail k (List.mem_cons_of_mem _ hk)) hblanks' hc₂ hbound₂
    exact ⟨bound', c', hc', hbound', by rw [hwalk, resume_of_comma hcomma hnext, hitems]⟩

/-- The walk goes from the bracket that opens a frame to the place behind the one that closes it. -/
theorem walks_of_items {items : List Item} (hne : items ≠ [])
    (hlead : ∀ i ∈ items, frame.IsLead i.lead)
    (hvalue : ∀ i ∈ items, IsValue i.value ∧ Walks i.value)
    (htrail : ∀ i ∈ items, Blanks i.trail) :
    Walks (frame.opening :: (Item.join items ++ [frame.bracket])) := by
  intro stack blanks bound c rest hblanks h hrest hbound
  obtain ⟨b, bound₁, rfl, hvalue', hpeek, hadvance, hbound₁⟩ :=
    exists_round (isHead_opening frame) hblanks h hbound
  obtain ⟨i, items, rfl⟩ := List.exists_cons_of_ne_nil hne
  obtain ⟨x, tail, hi, hx⟩ := (hvalue i List.mem_cons_self).1.exists_head
  have hinside : c.skipBlanks.advance.rest = Utf8.bytes (i.lead ++ x :: (tail ++
      (i.trail ++ (Item.behind items ++ [frame.bracket])))) ++ rest := by
    rw [hadvance, Item.join, Item.text, hi]
    simp
  rw [← hadvance] at hbound₁
  obtain ⟨lead', y, hlead', hpeek', hy, hrest', hlength⟩ :=
    skipBlanks_of_isLead (hlead i List.mem_cons_self) hx hinside
  obtain ⟨blanks', c₁, hblanks', hnext, hc₁, hlength'⟩ := next_of_isLead hlead' hx true hrest'
  rw [← List.cons_append, ← hi] at hc₁
  obtain ⟨bound', c', hc', hbound', hitems⟩ := walks_items stack
    (fun j hj => hlead j (List.mem_cons_of_mem _ hj)) hvalue htrail hblanks' hc₁
    (Nat.le_trans hlength' (Nat.le_trans hlength hbound₁))
  refine ⟨bound', c', hc', hbound', ?_⟩
  rw [walkFrom_of_start (start_opening hpeek), ← hitems]
  show proceed bound₁ (Mode.drop.turn false (frame :: stack) _) = _
  rw [turn_of_first hpeek' hy hnext, proceed]

/-- **Values are passed over.** The walk comes from the front of every value to the place behind it,
however deep the value is nested. -/
theorem walks_of_isValue (h : IsValue text) : Walks text := by
  induction h with
  | atom hatom => exact walks_of_isAtom hatom
  | empty frame hinside => exact walks_of_empty frame hinside
  | frame frame hne hlead hvalue htrail ih =>
    exact walks_of_items hne hlead (fun i hi => ⟨hvalue i hi, ih i hi⟩) htrail

/-- Passing over a value takes exactly the text `written`. -/
def Passes (written : String) : Prop :=
  ∀ (c : Cursor) rest, c.rest = Utf8.encode written ++ rest → Delimited rest →
    ∃ c', skipAny c = .ok c' ∧ c'.rest = rest

/-- A value is passed over together with the blanks in front of it. -/
theorem passes_of_isValue {written : String} (hblanks : Blanks blanks) (hvalue : IsValue value)
    (hwritten : written.toList = blanks ++ value) : Passes written := by
  intro c rest hc hrest
  rw [Utf8.encode_eq_bytes, hwritten] at hc
  obtain ⟨bound', c', hc', -, hwalk⟩ :=
    walks_of_isValue hvalue [] hblanks hc hrest (Nat.le_refl _)
  exact ⟨c', hwalk, hc'⟩

end SignIn.Json
