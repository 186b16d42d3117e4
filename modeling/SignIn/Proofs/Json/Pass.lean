import SignIn.Proofs.Json.Record

/-!
# Three ways to get past a value

A value can be read, it can be passed over because nobody knows it, and it can be passed by because
only a scalar would have been of use. Which way is taken depends on who looks at the text, so the
same value may be taken in different ways, and then it matters whether they end at the same place.

For a scalar they do. A sequence or mapping is not taken as a whole by a reader that passes it by:
it goes on right behind the opening bracket. But there it cannot go on, unless the closing bracket
comes next, because neither a comma nor the end of the mapping around it can stand there in a text
that somebody else gets past. So the ways part only where one of them fails.

## Main definitions

* `Json.IsScalar` — a reader that takes nothing but scalars
* `Json.Cursor.IsStuck` — a place where a mapping cannot go on

## Main results

* `Json.isScalar_readText`, `Json.isScalar_readInteger` — the readers of single values
* `Json.passScalar_of_skipAny` — what can be passed over is passed by up to the same place, or the
  reader is stuck
* `Json.IsScalar.of_attempt`, `Json.IsScalar.attempt` — the same for an attempt to read a value
-/

namespace SignIn.Json

variable {α β : Type} {c c' : Cursor}

/-! ### Scalars -/

/-- Whatever is read is a scalar: it can also be passed over and passed by, and all three ways end
at the same place. -/
def IsScalar (reader : Reader α) : Prop :=
  ∀ {depth c a c'}, reader depth c = .ok (a, c') →
    skipAny c = .ok c' ∧ passScalar depth c = .ok ((), c')

theorem fail_ne_ok (c : Cursor) (cause : Cause) (a : α) : c.fail cause ≠ .ok a := by
  intro h
  cases h

theorem refuse_ne_ok (expected : String) (c : Cursor) (a : α) : refuse expected c ≠ .ok a := by
  intro h
  obtain ⟨found, -, h⟩ := of_bind_eq_ok h
  exact fail_ne_ok _ _ _ h

theorem IsScalar.map {reader : Reader α} (h : IsScalar reader) (f : α → β) :
    IsScalar (reader.map f) := by
  intro depth c b c' hread
  obtain ⟨⟨a, c₁⟩, hread, hb⟩ := of_bind_eq_ok hread
  cases hb
  exact h hread

theorem Cursor.skipBlanks_skipBlanks (c : Cursor) : c.skipBlanks.skipBlanks = c.skipBlanks := by
  unfold skipBlanks
  fun_induction skipBlanks.go c.rest c.line c.column with
  | case1 line column => rfl
  | case2 rest line column ih => exact ih
  | case3 b rest line column hline hblank ih => exact ih
  | case4 b rest line column hline hblank => simp only [skipBlanks.go, hline, hblank, if_false]

theorem Cursor.rest_ne_nil_of_skipBlanks {x : Char} (h : c.skipBlanks.peek = some x) :
    c.rest ≠ [] := by
  intro hnil
  rw [skipBlanks_of_nil hnil] at h
  exact rest_ne_nil_of_peek h hnil

/-- The walk is over when a scalar is. -/
theorem skipAny_of_start (hne : c.rest ≠ []) (h : Mode.drop.start c.skipBlanks = .ok (none, c')) :
    skipAny c = .ok c' := by
  obtain ⟨b, bytes, hbytes⟩ := List.exists_cons_of_ne_nil hne
  rw [skipAny, walk, hbytes, Mode.walkFrom, h]
  rfl

/-- A value that opens no frame is a scalar. -/
theorem pass_of_start {x : Char} (hpeek : c.skipBlanks.peek = some x) (hbracket : x ≠ '[')
    (hbrace : x ≠ '{') (hstart : Mode.drop.start c.skipBlanks = .ok (none, c')) (depth : Nat) :
    skipAny c = .ok c' ∧ passScalar depth c = .ok ((), c') := by
  have hskip := skipAny_of_start (Cursor.rest_ne_nil_of_skipBlanks hpeek) hstart
  have hagain : skipAny c.skipBlanks = .ok c' :=
    skipAny_of_start (Cursor.rest_ne_nil_of_peek hpeek) (by rwa [Cursor.skipBlanks_skipBlanks])
  refine ⟨hskip, ?_⟩
  rw [passScalar]
  simp only [hpeek]
  split
  · exact absurd (Option.some.inj ‹_›) hbracket
  · exact absurd (Option.some.inj ‹_›) hbrace
  · rw [hagain]
    rfl

theorem isScalar_readText : IsScalar readText := by
  intro depth c s c' h
  rw [readText] at h
  split at h
  · next hpeek =>
    refine pass_of_start hpeek (by decide) (by decide) ?_ depth
    rw [Mode.start, hpeek]
    simp only [Mode.text, skipText_of_scanText h]
    rfl
  · exact absurd h (refuse_ne_ok _ _ _)

/-- Whatever is made of a number, the place behind it is that of the scan. -/
theorem skipNumber_of_scanInteger {negative : Bool} {n : Int}
    (h : scanInteger negative c = .ok (n, c')) : skipNumber c = .ok c' := by
  obtain ⟨⟨found, c₁⟩, hscan, h⟩ := of_bind_eq_ok h
  dsimp only at h
  split at h
  · split at h
    · cases h
      exact skipNumber_of_scanNumber hscan
    · cases h
  · cases h

theorem isScalar_readInteger : IsScalar readInteger := by
  intro depth c n c' h
  rw [readInteger] at h
  split at h
  · next hpeek =>
    refine pass_of_start hpeek (by decide) (by decide) ?_ depth
    rw [Mode.start, hpeek]
    simp only [Mode.number, skipNumber_of_scanInteger h]
    rfl
  · next x _ hpeek =>
    split_ifs at h with hx
    · refine pass_of_start hpeek ?_ ?_ ?_ depth
      · rintro rfl
        contradiction
      · rintro rfl
        contradiction
      · rw [start_of_isDigit hpeek hx, Mode.number, skipNumber_of_scanInteger h]
        rfl
    · exact absurd h (refuse_ne_ok _ _ _)
  · exact absurd h (refuse_ne_ok _ _ _)

/-! ### Passing by -/

/-- Neither a further key of a mapping nor its end comes next. -/
def Cursor.IsStuck (c : Cursor) : Prop := ∀ next, nextKey false c ≠ .ok next

theorem isStuck_of_peek (hcomma : c.skipBlanks.peek ≠ some ',')
    (hbrace : c.skipBlanks.peek ≠ some '}') : c.IsStuck := by
  intro next h
  rw [nextKey] at h
  dsimp only at h
  split at h
  · exact hbrace ‹_›
  · exact hcomma ‹_›
  · cases h
  · cases h

variable {mode : Mode} {opened : Option Frame} {stack stack' : List Frame} {inside : Cursor}

/-- A value is a scalar or starts with a bracket. -/
theorem start_cases (h : mode.start c = .ok (opened, inside)) :
    (∃ x, c.peek = some x ∧ x ≠ '[' ∧ x ≠ '{' ∧ opened = none) ∨
      (c.peek = some '[' ∧ opened = some .sequence ∧ inside = c.advance) ∨
        c.peek = some '{' ∧ opened = some .mapping ∧ inside = c.advance := by
  have hscalar : ∀ {x : Char} {scan : Except Error Cursor}, c.peek = some x → x ≠ '[' →
      x ≠ '{' → (none, ·) <$> scan = .ok (opened, inside) →
        ∃ x, c.peek = some x ∧ x ≠ '[' ∧ x ≠ '{' ∧ opened = none := by
    intro x scan hpeek hbracket hbrace h
    cases scan with
    | error e => cases h
    | ok c₁ =>
      cases h
      exact ⟨x, hpeek, hbracket, hbrace, rfl⟩
  rw [Mode.start] at h
  split at h
  · exact .inl (hscalar ‹_› (by decide) (by decide) h)
  · exact .inl (hscalar ‹_› (by decide) (by decide) h)
  · exact .inl (hscalar ‹_› (by decide) (by decide) h)
  · exact .inl (hscalar ‹_› (by decide) (by decide) h)
  · exact .inl (hscalar ‹_› (by decide) (by decide) h)
  · cases h
    exact .inr (.inl ⟨‹_›, rfl, rfl⟩)
  · cases h
    exact .inr (.inr ⟨‹_›, rfl, rfl⟩)
  · next x _ _ _ _ _ hbracket hbrace hpeek =>
    split at h
    · exact .inl (hscalar hpeek hbracket hbrace h)
    · cases h
  · cases h

/-- No value starts with what can stand behind a value in a mapping. -/
theorem peek_of_start (h : mode.start c = .ok (opened, inside)) :
    c.peek ≠ some ',' ∧ c.peek ≠ some '}' := by
  constructor
  · intro hpeek
    rw [Mode.start, hpeek] at h
    cases h
  · intro hpeek
    rw [Mode.start, hpeek] at h
    cases h

/-- One round of the walk: a value starts, frames are closed, and the walk goes on if some of them
stay open. -/
theorem of_walkFrom_eq_ok {depth : Nat} {bound : Bytes}
    (h : mode.walkFrom depth bound stack c = .ok c') :
    ∃ b bound' opened inside stack' c₁, bound = b :: bound' ∧
      mode.start c.skipBlanks = .ok (opened, inside) ∧
        mode.turn opened.isNone (opened.toList ++ stack) inside = .ok (stack', c₁) ∧
          (stack' = [] ∧ c' = c₁ ∨
            stack' ≠ [] ∧ mode.walkFrom depth bound' stack' c₁ = .ok c') := by
  cases bound with
  | nil =>
    rw [Mode.walkFrom] at h
    cases h
  | cons b bound =>
    rw [Mode.walkFrom] at h
    obtain ⟨⟨opened, inside⟩, hstart, h⟩ := of_bind_eq_ok h
    dsimp only at h
    split at h
    · cases h
    · obtain ⟨⟨stack', c₁⟩, hturn, h⟩ := of_bind_eq_ok h
      refine ⟨b, bound, opened, inside, stack', c₁, rfl, hstart, hturn, ?_⟩
      cases stack' with
      | nil =>
        cases h
        exact .inl ⟨rfl, rfl⟩
      | cons frame stack' => exact .inr ⟨List.cons_ne_nil _ _, h⟩

/-- A frame was opened: it is closed, or its first value comes next. -/
theorem turn_cases {frame : Frame} (h : mode.turn false [frame] inside = .ok (stack', c')) :
    (inside.skipBlanks.peek = some frame.bracket ∧ stack' = [] ∧
        c' = inside.skipBlanks.advance) ∨
      inside.skipBlanks.peek ≠ some frame.bracket ∧ stack' = [frame] ∧
        mode.next true frame inside.skipBlanks = .ok c' := by
  rw [Mode.turn.eq_def] at h
  dsimp only at h
  split at h
  · next hpeek =>
    cases h
    exact .inl ⟨hpeek, rfl, rfl⟩
  · next hpeek =>
    cases h
    exact .inl ⟨hpeek, rfl, rfl⟩
  · contradiction
  · contradiction
  · contradiction
  · next frame _ _ _ x hpeek hsequence hmapping _ =>
    obtain ⟨c₁, hnext, h⟩ := of_bind_eq_ok h
    obtain ⟨rfl, rfl⟩ := Prod.mk.inj (Except.ok.inj h)
    refine .inr ⟨?_, rfl, hnext⟩
    intro hbracket
    cases frame with
    | sequence => exact hsequence rfl (Option.some.inj (hpeek.symm.trans hbracket))
    | mapping => exact hmapping rfl (Option.some.inj (hpeek.symm.trans hbracket))
  · cases h
  · cases h

/-- The end of a frame from behind its last value. -/
def Frame.finish : Frame → Cursor → Except Error Cursor
  | .sequence => endSequence
  | .mapping => endMapping

/-- A frame ends if and only if its closing bracket comes next. -/
theorem Frame.finish_cases (frame : Frame) (c : Cursor) :
    (c.skipBlanks.peek = some frame.bracket ∧ frame.finish c = .ok c.skipBlanks.advance) ∨
      c.skipBlanks.peek ≠ some frame.bracket ∧ ∃ e, frame.finish c = .error e := by
  by_cases hpeek : c.skipBlanks.peek = some frame.bracket
  · refine .inl ⟨hpeek, ?_⟩
    cases frame with
    | sequence => simp only [finish, endSequence, hpeek, bracket]
    | mapping => simp only [finish, endMapping, hpeek, bracket]
  · refine .inr ⟨hpeek, ?_⟩
    cases frame with
    | sequence =>
      rw [finish, endSequence]
      split
      · contradiction
      · dsimp only
        split
        · exact ⟨_, rfl⟩
        · exact ⟨_, rfl⟩
      · exact ⟨_, rfl⟩
      · exact ⟨_, rfl⟩
    | mapping =>
      rw [finish, endMapping]
      split
      · contradiction
      · exact ⟨_, rfl⟩
      · exact ⟨_, rfl⟩
      · exact ⟨_, rfl⟩

/-- Behind a bracket that a value or key comes after, a mapping cannot go on. -/
theorem isStuck_of_next {frame : Frame} {bound : Bytes} {depth : Nat}
    (hnext : Mode.drop.next true frame inside.skipBlanks = .ok c)
    (hwalk : Mode.drop.walkFrom depth bound [frame] c = .ok c') : inside.IsStuck := by
  cases frame with
  | sequence =>
    obtain rfl : inside.skipBlanks.skipBlanks = c := by
      rw [Mode.next] at hnext
      simpa using hnext
    obtain ⟨-, -, opened, inside', -, -, -, hstart, -⟩ := of_walkFrom_eq_ok hwalk
    rw [Cursor.skipBlanks_skipBlanks, Cursor.skipBlanks_skipBlanks] at hstart
    obtain ⟨hcomma, hbrace⟩ := peek_of_start hstart
    exact isStuck_of_peek hcomma hbrace
  | mapping =>
    rw [Mode.next, Mode.key, Cursor.skipBlanks_skipBlanks] at hnext
    refine isStuck_of_peek ?_ ?_
    · intro hpeek
      rw [hpeek] at hnext
      cases hnext
    · intro hpeek
      rw [hpeek] at hnext
      cases hnext

/-- A sequence or mapping that can be passed over is passed by as a whole if it is empty, and
otherwise the reader is stuck behind its bracket. -/
theorem finish_of_turn {frame : Frame} {bound : Bytes} {depth : Nat}
    (hturn : Mode.drop.turn false [frame] inside = .ok (stack', c))
    (hwalk : stack' = [] ∧ c' = c ∨
      stack' ≠ [] ∧ Mode.drop.walkFrom depth bound stack' c = .ok c') :
    (frame.finish inside).toOption.getD inside = c' ∨
      ((frame.finish inside).toOption.getD inside).IsStuck := by
  obtain ⟨hend, rfl, rfl⟩ | ⟨hopen, rfl, hnext⟩ := turn_cases hturn
  · obtain ⟨-, hfinish⟩ | ⟨hne, -⟩ := frame.finish_cases inside
    · obtain ⟨-, rfl⟩ | ⟨hne, -⟩ := hwalk
      · rw [hfinish]
        exact .inl rfl
      · exact absurd rfl hne
    · exact absurd hend hne
  · obtain ⟨heq, -⟩ | ⟨-, e, hfinish⟩ := frame.finish_cases inside
    · exact absurd heq hopen
    · obtain ⟨hnil, -⟩ | ⟨-, hwalk⟩ := hwalk
      · cases hnil
      · rw [hfinish]
        exact .inr (isStuck_of_next hnext hwalk)

/-- What can be passed over is passed by up to the same place, or the reader is stuck. -/
theorem passScalar_of_skipAny (depth : Nat) (h : skipAny c = .ok c') :
    ∃ c'', passScalar depth c = .ok ((), c'') ∧ (c'' = c' ∨ c''.IsStuck) := by
  obtain ⟨-, bound, opened, inside, stack', c₁, -, hstart, hturn, hwalk⟩ := of_walkFrom_eq_ok h
  obtain ⟨x, hpeek, hbracket, hbrace, rfl⟩ | ⟨hpeek, rfl, rfl⟩ | ⟨hpeek, rfl, rfl⟩ :=
    start_cases hstart
  · obtain ⟨hskip, hpass⟩ := pass_of_start hpeek hbracket hbrace hstart depth
    rw [hskip] at h
    cases h
    exact ⟨_, hpass, .inl rfl⟩
  · rw [passScalar]
    simp only [hpeek]
    exact ⟨_, rfl, finish_of_turn hturn hwalk⟩
  · rw [passScalar]
    simp only [hpeek]
    exact ⟨_, rfl, finish_of_turn hturn hwalk⟩

/-! ### Attempts -/

variable {reader : Reader α} {depth : Nat} {a : α} {found : Option α} {c'' : Cursor}

theorem attempt_of_eq_ok (h : reader depth c = .ok (a, c')) :
    attempt reader depth c = .ok (some a, c') := by
  rw [attempt, h]

/-- The reader attempts to read a scalar. -/
def IsAttempt (read : Reader (Option α)) : Prop :=
  ∃ reader, IsScalar reader ∧ read = attempt reader

theorem IsScalar.isAttempt (h : IsScalar reader) : IsAttempt (attempt reader) := ⟨reader, h, rfl⟩

/-- An attempt at whatever can be passed over ends at the same place, or the reader is stuck. -/
theorem IsScalar.of_attempt (hreader : IsScalar reader) (hskip : skipAny c = .ok c')
    (h : attempt reader depth c = .ok (found, c'')) : c'' = c' ∨ c''.IsStuck := by
  rw [attempt] at h
  split at h
  · next hread =>
    cases h
    obtain ⟨hskip', -⟩ := hreader hread
    exact .inl (Except.ok.inj (hskip'.symm.trans hskip))
  · obtain ⟨c₁, hpass, hc₁⟩ := passScalar_of_skipAny depth hskip
    rw [Reader.map, hpass] at h
    cases h
    exact hc₁

/-- An attempt at a scalar ends where the scalar does. -/
theorem IsScalar.attempt {reader' : Reader β} {b : β} (hreader : IsScalar reader)
    (hreader' : IsScalar reader') (hread : reader' depth c = .ok (b, c')) :
    ∃ found, attempt reader depth c = .ok (found, c') := by
  obtain ⟨hskip, hpass⟩ := hreader' hread
  rw [Json.attempt]
  split
  · next hread =>
    obtain ⟨hskip', -⟩ := hreader hread
    obtain rfl := Except.ok.inj (hskip'.symm.trans hskip)
    exact ⟨_, rfl⟩
  · rw [Reader.map, hpass]
    exact ⟨_, rfl⟩

end SignIn.Json
