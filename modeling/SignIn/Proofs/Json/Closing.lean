import SignIn.Proofs.Json.Taken

/-!
# What was walked over is a value

The walk over a value knows no values. It sees where one starts, and which frames are open; and when
a frame is closed, nobody looks back to where it was opened. So of a single round it cannot be said
that it took a value. What can be said is what a round still owes: behind the value at which it
starts there has to come the rest of each frame that is open, from the innermost to the outermost.

The rest of a frame is what stands behind one of its values up to its closing bracket. A value
together with the rest of the frame around it makes a frame when the bracket and what leads to the
value are put in front. So the debt of a round is paid by the later ones, and at the end of the walk
nothing is owed.

## Main definitions

* `Json.Frame.IsRest` — the rest of a frame, from behind one of its values
* `Json.Closes` — the rest of each frame of a stack
* `Json.Walked` — a value, and the rest of each frame around it

## Main results

* `Json.walked_of_walkFrom` — a walk takes a value and pays what is owed
* `Json.takes_of_skipAny` — so what was passed over is a value
-/

namespace SignIn.Json

variable {c c₁ c' inside : Cursor} {text text' lead value blanks : List Char} {frame : Frame}
  {stack stack' : List Frame} {mode : Mode} {opened : Option Frame} {first : Bool}

/-! ### The rest of a frame -/

/-- What stands behind a value of a frame, up to the closing bracket. -/
inductive Frame.IsRest (frame : Frame) : List Char → Prop
  | close {blanks : List Char} (h : Blanks blanks) : frame.IsRest (blanks ++ [frame.bracket])
  | more {blanks lead value text : List Char} (hblanks : Blanks blanks) (hlead : frame.IsLead lead)
      (hvalue : IsValue value) (h : frame.IsRest text) :
      frame.IsRest (blanks ++ ',' :: (lead ++ (value ++ text)))

/-- What stands behind a value, up to the bracket that closes the outermost frame. -/
inductive Closes : List Frame → List Char → Prop
  | nil : Closes [] []
  | cons {frame : Frame} {stack : List Frame} {text closing : List Char} (hrest : frame.IsRest text)
      (h : Closes stack closing) : Closes (frame :: stack) (text ++ closing)

theorem Blanks.append (h : Blanks text) (h' : Blanks text') : Blanks (text ++ text') :=
  List.forall_mem_append.2 ⟨h, h'⟩

theorem Frame.IsLead.append (h : frame.IsLead lead) (hblanks : Blanks blanks) :
    frame.IsLead (lead ++ blanks) := by
  cases frame with
  | sequence => exact Blanks.append h hblanks
  | mapping =>
    obtain ⟨written, hwritten, @⟨before, behind, ahead, hbefore, hbehind, hahead⟩⟩ := h
    have hlabel : IsLabel written _ := .intro hbefore hbehind (hahead.append hblanks)
    exact ⟨written, hwritten, by simpa using hlabel⟩

theorem Frame.IsLead.prepend (h : frame.IsLead lead) (hblanks : Blanks blanks) :
    frame.IsLead (blanks ++ lead) := by
  cases frame with
  | sequence => exact hblanks.append h
  | mapping =>
    obtain ⟨written, hwritten, @⟨before, behind, ahead, hbefore, hbehind, hahead⟩⟩ := h
    have hlabel : IsLabel written _ := .intro (hblanks.append hbefore) hbehind hahead
    exact ⟨written, hwritten, by simpa using hlabel⟩

/-- The rest of a frame are the blanks behind a value, and items. -/
theorem Frame.IsRest.exists_items (h : frame.IsRest text) :
    ∃ trail items, Blanks trail ∧ (∀ i ∈ items, frame.IsLead i.lead) ∧
      (∀ i ∈ items, IsValue i.value) ∧ (∀ i ∈ items, Blanks i.trail) ∧
        text = trail ++ (Item.behind items ++ [frame.bracket]) := by
  induction h with
  | close hblanks => exact ⟨_, [], hblanks, nofun, nofun, nofun, rfl⟩
  | @more blanks lead value text hblanks hlead hvalue _ ih =>
    obtain ⟨trail, items, htrail, hleads, hvalues, htrails, rfl⟩ := ih
    refine ⟨blanks, ⟨lead, value, trail⟩ :: items, hblanks, List.forall_mem_cons.2 ⟨hlead, hleads⟩,
      List.forall_mem_cons.2 ⟨hvalue, hvalues⟩, List.forall_mem_cons.2 ⟨htrail, htrails⟩, ?_⟩
    simp [Item.behind, Item.text]

/-- A frame is made of its bracket, what leads to its first value, the value and the rest. -/
theorem Frame.IsRest.isValue (h : frame.IsRest text) (hlead : frame.IsLead lead)
    (hvalue : IsValue value) : IsValue (frame.opening :: (lead ++ (value ++ text))) := by
  obtain ⟨trail, items, htrail, hleads, hvalues, htrails, rfl⟩ := h.exists_items
  have hframe := @IsValue.frame frame (⟨lead, value, trail⟩ :: items) (List.cons_ne_nil _ _)
    (List.forall_mem_cons.2 ⟨hlead, hleads⟩) (List.forall_mem_cons.2 ⟨hvalue, hvalues⟩)
    (List.forall_mem_cons.2 ⟨htrail, htrails⟩)
  simpa [Item.join, Item.text] using hframe

/-! ### The parts of the walk -/

theorem skipText_of_modeText (h : mode.text c = .ok c') : skipText c = .ok c' := by
  cases mode with
  | drop => exact h
  | keep =>
    rw [Mode.text] at h
    cases hscan : scanText c with
    | error e =>
      rw [hscan] at h
      cases h
    | ok found =>
      rw [hscan] at h
      cases h
      exact skipText_of_scanText hscan

theorem skipNumber_of_modeNumber {negative : Bool} (h : mode.number negative c = .ok c') :
    skipNumber c = .ok c' := by
  cases mode with
  | drop => exact h
  | keep =>
    rw [Mode.number] at h
    cases hscan : scanNumber negative c with
    | error e =>
      rw [hscan] at h
      cases h
    | ok found =>
      rw [hscan] at h
      cases h
      exact skipNumber_of_scanNumber hscan

/-- A string with its quotes. -/
theorem takes_of_quote (hpeek : c.peek = some '"') (h : skipText c.advance = .ok c') :
    ∃ written, IsContent written ∧ Takes c ('"' :: (written ++ ['"'])) c' := by
  obtain ⟨written, hwritten, htakes⟩ := takes_of_skipText h
  exact ⟨written, hwritten, (spans_advance hpeek (by decide)).takes.trans htakes⟩

/-- A value starts: it is over, or a frame was opened. -/
theorem takes_of_start (h : mode.start c = .ok (opened, inside)) :
    (opened = none ∧ ∃ value, IsValue value ∧ Takes c value inside) ∨
      ∃ frame, opened = some frame ∧ Takes c [frame.opening] inside := by
  have hword : ∀ {x : Char} {letters : List Char}, c.peek = some x → IsAtom (x :: letters) →
      (∀ y ∈ x :: letters, y.toNat < 0x80) →
        (none, ·) <$> scanWord letters c.advance = .ok (opened, inside) →
          opened = none ∧ ∃ value, IsValue value ∧ Takes c value inside := by
    intro x letters hpeek hatom hletters h
    obtain ⟨c₁, hscan, h⟩ := of_bind_eq_ok h
    cases h
    obtain ⟨hx, hletters⟩ := List.forall_mem_cons.1 hletters
    have hspans := (spans_advance hpeek hx).trans (spans_of_scanWord hletters hscan)
    exact ⟨rfl, _, .atom hatom, hspans.takes⟩
  rw [Mode.start] at h
  split at h
  · next hpeek => exact .inl (hword hpeek .null (by simp) h)
  · next hpeek => exact .inl (hword hpeek .true (by simp) h)
  · next hpeek => exact .inl (hword hpeek .false (by simp) h)
  · next hpeek =>
    obtain ⟨c₁, hnumber, h⟩ := of_bind_eq_ok h
    cases h
    obtain ⟨text, htext, hspans⟩ := spans_of_skipNumber (skipNumber_of_modeNumber hnumber)
    have htaken := (spans_advance hpeek (by decide)).trans hspans
    exact .inl ⟨rfl, _, .atom (.number (.negative htext)), htaken.takes⟩
  · next hpeek =>
    obtain ⟨c₁, htext, h⟩ := of_bind_eq_ok h
    cases h
    obtain ⟨written, hwritten, htakes⟩ := takes_of_quote hpeek (skipText_of_modeText htext)
    exact .inl ⟨rfl, _, .atom (.text hwritten), htakes⟩
  · next hpeek =>
    cases h
    exact .inr ⟨.sequence, rfl, (spans_advance hpeek (by decide)).takes⟩
  · next hpeek =>
    cases h
    exact .inr ⟨.mapping, rfl, (spans_advance hpeek (by decide)).takes⟩
  · split at h
    · obtain ⟨c₁, hnumber, h⟩ := of_bind_eq_ok h
      cases h
      obtain ⟨text, htext, hspans⟩ := spans_of_skipNumber (skipNumber_of_modeNumber hnumber)
      exact .inl ⟨rfl, _, .atom (.number (.positive htext)), hspans.takes⟩
    · cases h
  · cases h

/-- A name in quotes and its colon lead to a value of a mapping, with blanks in front of them. -/
theorem takes_of_label {before : List Char} (hbefore : Blanks before) (hquote : c.peek = some '"')
    (hname : skipText c.advance = .ok c₁) (hcolon : c₁.skipBlanks.peek = some ':') :
    ∃ lead, Frame.mapping.IsLead (before ++ lead) ∧ Takes c lead c₁.skipBlanks.advance := by
  obtain ⟨written, hwritten, htakes⟩ := takes_of_quote hquote hname
  obtain ⟨behind, hbehind, hspans⟩ := spans_blanks_advance hcolon (by decide)
  have hlabel : IsLabel written _ := .intro hbefore hbehind .nil
  refine ⟨_, ⟨written, hwritten, ?_⟩, htakes.trans hspans.takes⟩
  simpa using hlabel

/-- The name of a member and its colon. -/
theorem takes_of_key (h : mode.key first c = .ok c') :
    ∃ lead, Frame.mapping.IsLead lead ∧ Takes c lead c' := by
  obtain ⟨before, hbefore, hspans⟩ := spans_skipBlanks c
  rw [Mode.key] at h
  dsimp only at h
  split at h
  · next hquote =>
    obtain ⟨c₁, htext, h⟩ := of_bind_eq_ok h
    split at h
    · next hcolon =>
      cases h
      obtain ⟨lead, hlead, htakes⟩ :=
        takes_of_label hbefore hquote (skipText_of_modeText htext) hcolon
      exact ⟨_, hlead, hspans.takes.trans htakes⟩
    · cases h
    · cases h
  · split at h <;> cases h
  · cases h
  · split at h <;> cases h

/-- What leads to the next value. -/
theorem takes_of_next (h : mode.next first frame c = .ok c') :
    ∃ lead, frame.IsLead lead ∧ Takes c lead c' := by
  cases frame with
  | sequence =>
    obtain ⟨blanks, hblanks, hspans⟩ := spans_skipBlanks c
    rw [Mode.next] at h
    split at h
    · cases h
    · cases h
      exact ⟨blanks, hblanks, hspans.takes⟩
  | mapping => exact takes_of_key h

/-! ### The walk -/

/-- A value with blanks in front of it, and the rest of each frame around it. -/
inductive Walked (stack : List Frame) : List Char → Prop
  | intro {blanks value closing : List Char} (hblanks : Blanks blanks) (hvalue : IsValue value)
      (hcloses : Closes stack closing) : Walked stack (blanks ++ (value ++ closing))

/-- What is owed when it was looked whether frames are closed: nothing if none stays open. -/
def Owed : List Frame → List Char → Prop
  | [], text => text = []
  | stack, text => Walked stack text

theorem Walked.of_cons (h : Walked (frame :: stack) text) :
    ∃ blanks value rest closing, text = blanks ++ (value ++ (rest ++ closing)) ∧ Blanks blanks ∧
      IsValue value ∧ frame.IsRest rest ∧ Closes stack closing := by
  obtain ⟨hblanks, hvalue, hcloses⟩ := h
  cases hcloses with
  | cons hrest hcloses => exact ⟨_, _, _, _, rfl, hblanks, hvalue, hrest, hcloses⟩

/-- Behind a value frames are closed, and the next value comes. -/
theorem takes_of_turn (h : mode.turn true stack c = .ok (stack', c')) :
    ∃ text, Takes c text c' ∧ ∀ owed, Owed stack' owed → Closes stack (text ++ owed) := by
  induction stack generalizing c with
  | nil =>
    rw [Mode.turn] at h
    cases h
    refine ⟨[], (Spans.refl _).takes, ?_⟩
    rintro owed rfl
    exact .nil
  | cons frame stack ih =>
    have hclose : c.skipBlanks.peek = some frame.bracket →
        mode.turn true stack c.skipBlanks.advance = .ok (stack', c') →
          ∃ text, Takes c text c' ∧
            ∀ owed, Owed stack' owed → Closes (frame :: stack) (text ++ owed) := by
      intro hpeek h
      obtain ⟨blanks, hblanks, hspans⟩ := spans_blanks_advance hpeek (isBracket frame).1
      obtain ⟨text, htakes, hcloses⟩ := ih h
      refine ⟨_, hspans.takes.trans htakes, fun owed howed => ?_⟩
      rw [List.append_assoc]
      exact .cons (.close hblanks) (hcloses owed howed)
    rw [Mode.turn.eq_def] at h
    dsimp only at h
    split at h
    · next hpeek => exact hclose hpeek h
    · next hpeek => exact hclose hpeek h
    · next hpeek _ =>
      obtain ⟨c₁, hnext, h⟩ := of_bind_eq_ok h
      cases h
      obtain ⟨blanks, hblanks, hspans⟩ := spans_blanks_advance hpeek (by decide)
      obtain ⟨lead, hlead, htakes⟩ := takes_of_next hnext
      refine ⟨_, hspans.takes.trans htakes, fun owed howed => ?_⟩
      obtain ⟨blanks', value, rest, closing, rfl, hblanks', hvalue, hrest, hcloses⟩ := howed.of_cons
      have hmore := Frame.IsRest.more hblanks (hlead.append hblanks') hvalue hrest
      simpa using Closes.cons hmore hcloses
    · cases h
    · cases h
    · contradiction
    · cases h
    · cases h

/-- A frame was opened: it is closed at once, or its first value comes. -/
theorem takes_of_turn_opened (h : mode.turn false (frame :: stack) c = .ok (stack', c')) :
    ∃ text, Takes c text c' ∧ ∀ owed, Owed stack' owed →
      ∃ inner closing, text ++ owed = inner ++ closing ∧ IsValue (frame.opening :: inner) ∧
        Closes stack closing := by
  have hempty : c.skipBlanks.peek = some frame.bracket →
      mode.turn true stack c.skipBlanks.advance = .ok (stack', c') →
        ∃ text, Takes c text c' ∧ ∀ owed, Owed stack' owed →
          ∃ inner closing, text ++ owed = inner ++ closing ∧ IsValue (frame.opening :: inner) ∧
            Closes stack closing := by
    intro hpeek h
    obtain ⟨blanks, hblanks, hspans⟩ := spans_blanks_advance hpeek (isBracket frame).1
    obtain ⟨text, htakes, hcloses⟩ := takes_of_turn h
    refine ⟨_, hspans.takes.trans htakes, fun owed howed => ?_⟩
    exact ⟨_, _, List.append_assoc _ _ _, .empty frame hblanks, hcloses owed howed⟩
  rw [Mode.turn.eq_def] at h
  dsimp only at h
  split at h
  · next hpeek => exact hempty hpeek h
  · next hpeek => exact hempty hpeek h
  · contradiction
  · contradiction
  · contradiction
  · obtain ⟨c₁, hnext, h⟩ := of_bind_eq_ok h
    cases h
    obtain ⟨blanks, hblanks, hspans⟩ := spans_skipBlanks c
    obtain ⟨lead, hlead, htakes⟩ := takes_of_next hnext
    refine ⟨_, hspans.takes.trans htakes, fun owed howed => ?_⟩
    obtain ⟨blanks', value, rest, closing, rfl, hblanks', hvalue, hrest, hcloses⟩ := howed.of_cons
    refine ⟨_, closing, ?_,
      hrest.isValue ((hlead.prepend hblanks).append hblanks') hvalue, hcloses⟩
    simp
  · cases h
  · cases h

/-- **A walk takes a value**, and behind it the rest of each frame that was open. -/
theorem walked_of_walkFrom {depth : Nat} {bound : Bytes}
    (h : mode.walkFrom depth bound stack c = .ok c') :
    ∃ text, Walked stack text ∧ Takes c text c' := by
  induction bound generalizing stack c with
  | nil =>
    rw [Mode.walkFrom] at h
    cases h
  | cons b bound ih =>
    obtain ⟨_, _, opened, inside, stack', c₁, hbound, hstart, hturn, hwalk⟩ := of_walkFrom_eq_ok h
    obtain ⟨-, rfl⟩ := List.cons.inj hbound
    obtain ⟨blanks, hblanks, hspans⟩ := spans_skipBlanks c
    -- What this round owes the later ones pay.
    obtain ⟨owed, howed, hlater⟩ : ∃ owed, Owed stack' owed ∧ Takes c₁ owed c' := by
      obtain ⟨rfl, rfl⟩ | ⟨hopen, hwalk⟩ := hwalk
      · exact ⟨[], rfl, (Spans.refl _).takes⟩
      · obtain ⟨frame, stack'', rfl⟩ := List.exists_cons_of_ne_nil hopen
        exact ih hwalk
    obtain ⟨rfl, value, hvalue, htakes⟩ | ⟨frame, rfl, htakes⟩ := takes_of_start hstart
    · obtain ⟨text, hbehind, hcloses⟩ := takes_of_turn hturn
      refine ⟨_, .intro hblanks hvalue (hcloses owed howed), ?_⟩
      exact hspans.takes.trans (htakes.trans (hbehind.trans hlater))
    · obtain ⟨text, hbehind, hopened⟩ := takes_of_turn_opened hturn
      obtain ⟨inner, closing, heq, hvalue, hcloses⟩ := hopened owed howed
      refine ⟨_, .intro hblanks hvalue hcloses, ?_⟩
      have htaken := hspans.takes.trans (htakes.trans (hbehind.trans hlater))
      rw [heq] at htaken
      exact htaken

/-- What was passed over is a value with blanks in front of it. -/
theorem takes_of_skipAny (h : skipAny c = .ok c') :
    ∃ blanks value, Blanks blanks ∧ IsValue value ∧ Takes c (blanks ++ value) c' := by
  obtain ⟨_, @⟨blanks, value, _, hblanks, hvalue, ⟨⟩⟩, htakes⟩ := walked_of_walkFrom h
  rw [List.append_nil] at htakes
  exact ⟨blanks, value, hblanks, hvalue, htakes⟩

end SignIn.Json
