import SignIn.Proofs.Json.Record

/-!
# Mappings come apart in one way

The grammar says of a text that it is a mapping, and it could say so in several ways: with other
items, or with the blanks between them given to another item. If it did, nothing could be said about
the members of a text, only about those of a way to take it apart.

Where one item ends and the next one begins is not always plain to see, since the value of an item
can be anything, and for numbers it is only the next character that tells. But this much generality
is not needed here. If in one of the two ways all values are strings, both ways are the same, and in
particular all values are strings in the other one too. A string shows where it ends, and it stands
for one text at most.

Two ways to end a string are not compared character by character. Whoever passes over it, or reads
it, would stand in two places at once.

## Main definitions

* `Json.Item.IsEntry`, `Json.IsObject` — a mapping with these items, whatever they are
* `Json.IsQuoted` — a value that is a string
* `Json.Item.Names` — the name of an item

## Main results

* `Json.isMapping_iff` — what a mapping with these members is in terms of its items
* `Json.Item.names_unique` — an item has one name at most
* `Json.IsObject.unique` — if the values are strings, the items are determined by the text
-/

namespace SignIn.Json

variable {blanks blanks' text text' tail tail' written written' value : List Char} {x y : Char}

/-! ### Items of a mapping -/

/-- A name, a colon and a value, with blanks between and behind them. -/
structure Item.IsEntry (i : Item) : Prop where
  lead : Frame.mapping.IsLead i.lead
  value : IsValue i.value
  trail : Blanks i.trail

/-- The text is a mapping with these items, in this order. -/
def IsObject (items : List Item) (text : List Char) : Prop :=
  ∃ before inside behind, Blanks before ∧ Blanks behind ∧
    text = before ++ '{' :: (inside ++ '}' :: behind) ∧ (∀ i ∈ items, i.IsEntry) ∧
      ((items = [] ∧ Blanks inside) ∨ items ≠ [] ∧ inside = Item.join items)

/-- The value is a string, whether it stands for a text or not. -/
def IsQuoted (value : List Char) : Prop :=
  ∃ written, IsContent written ∧ value = '"' :: (written ++ ['"'])

/-- This is the name of the item. -/
def Item.Names (i : Item) (name : String) : Prop :=
  ∃ written, Spells written name.toList ∧ IsLabel written i.lead

theorem Item.IsMember.isEntry {i : Item} {m : String × Option String} (h : i.IsMember m) :
    i.IsEntry := by
  obtain ⟨written, hspells, hlabel⟩ := h.label
  exact ⟨⟨written, hspells.isContent, hlabel⟩, h.value, h.trail⟩

theorem IsTextOf.isQuoted {s : String} (h : IsTextOf s value) : IsQuoted value := by
  obtain ⟨hspells⟩ := h
  exact ⟨_, hspells.isContent, rfl⟩

theorem IsTextOf.isValue {s : String} (h : IsTextOf s value) : IsValue value := by
  obtain ⟨hspells⟩ := h
  exact .atom (.text hspells.isContent)

/-- A mapping has members if its items are these members. -/
theorem isMapping_iff {members : List (String × Option String)} :
    IsMapping members text ↔
      ∃ items, IsObject items text ∧ List.Forall₂ Item.IsMember items members := by
  constructor
  · rintro ⟨before, inside, behind, hbefore, hbehind, rfl, hinside⟩
    obtain ⟨rfl, hblanks⟩ | ⟨hne, items, hitems, rfl⟩ := hinside
    · exact ⟨[], ⟨before, inside, behind, hbefore, hbehind, rfl, nofun, .inl ⟨rfl, hblanks⟩⟩, .nil⟩
    · have hentry : ∀ i ∈ items, i.IsEntry := by
        intro i hi
        obtain ⟨m, -, hmember⟩ := exists_of_forall₂ hitems i hi
        exact hmember.isEntry
      have hsome : items ≠ [] := by
        rintro rfl
        exact hne (List.forall₂_nil_left_iff.1 hitems)
      exact ⟨items, ⟨before, _, behind, hbefore, hbehind, rfl, hentry, .inr ⟨hsome, rfl⟩⟩, hitems⟩
  · rintro ⟨items, ⟨before, inside, behind, hbefore, hbehind, rfl, -, hinside⟩, hitems⟩
    refine ⟨before, inside, behind, hbefore, hbehind, rfl, ?_⟩
    obtain ⟨rfl, hblanks⟩ | ⟨hsome, rfl⟩ := hinside
    · exact .inl ⟨List.forall₂_nil_left_iff.1 hitems, hblanks⟩
    · refine .inr ⟨?_, items, hitems, rfl⟩
      rintro rfl
      exact hsome (List.forall₂_nil_right_iff.1 hitems)

/-! ### Where blanks and strings end -/

/-- Blanks end at the first character that is none. -/
theorem Blanks.append_inj (h : Blanks blanks) (h' : Blanks blanks') (hx : x ∉ blankChars)
    (hy : y ∉ blankChars) (heq : blanks ++ x :: tail = blanks' ++ y :: tail') :
    blanks = blanks' ∧ x = y ∧ tail = tail' := by
  induction blanks generalizing blanks' with
  | nil =>
    cases blanks' with
    | nil =>
      obtain ⟨rfl, rfl⟩ := List.cons.inj heq
      exact ⟨rfl, rfl, rfl⟩
    | cons b blanks' =>
      obtain ⟨rfl, -⟩ := List.cons.inj heq
      exact absurd (h' _ List.mem_cons_self) hx
  | cons b blanks ih =>
    cases blanks' with
    | nil =>
      obtain ⟨rfl, -⟩ := List.cons.inj heq
      exact absurd (h _ List.mem_cons_self) hy
    | cons b' blanks' =>
      obtain ⟨rfl, hrest⟩ := List.cons.inj heq
      obtain ⟨rfl, hbehind⟩ :=
        ih (List.forall_mem_cons.1 h).2 (List.forall_mem_cons.1 h').2 hrest
      exact ⟨rfl, hbehind⟩

/-- The cursor in front of a text. -/
theorem rest_ofBytes (written tail : List Char) :
    (Cursor.ofBytes (Utf8.bytes (written ++ '"' :: tail))).rest =
      Utf8.bytes written ++ 0x22 :: Utf8.bytes tail := by
  rw [Cursor.ofBytes, Utf8.bytes_append, Utf8.bytes_cons_of_lt (by decide)]
  rfl

/-- A string ends at its first quote that belongs to no escape. -/
theorem IsContent.append_inj (h : IsContent written) (h' : IsContent written')
    (heq : written ++ '"' :: tail = written' ++ '"' :: tail') : written = written' ∧ tail = tail' := by
  obtain ⟨c, hskip, hrest⟩ := skipText_of_content h (rest_ofBytes written tail)
  obtain ⟨c', hskip', hrest'⟩ := skipText_of_content h' (rest_ofBytes written' tail')
  rw [heq, hskip'] at hskip
  cases hskip
  have htail : String.ofList tail = String.ofList tail' := by
    refine Utf8.encode_injective ?_
    rw [Utf8.encode_ofList, Utf8.encode_ofList]
    exact hrest.symm.trans hrest'
  obtain rfl := String.ofList_injective htail
  exact ⟨List.append_cancel_right heq, rfl⟩

/-- A string stands for one text at most. -/
theorem Spells.unique {s s' : String} (h : Spells written s.toList)
    (h' : Spells written s'.toList) : s = s' := by
  obtain ⟨c, hscan, -⟩ := scanText_spelled h (rest_ofBytes written [])
  obtain ⟨c', hscan', -⟩ := scanText_spelled h' (rest_ofBytes written [])
  rw [hscan] at hscan'
  exact (Prod.mk.inj (Except.ok.inj hscan')).1

/-- What stands in front of a value ends where the value begins. -/
theorem IsLabel.append_inj {lead lead' : List Char} (hwritten : IsContent written)
    (hwritten' : IsContent written') (h : IsLabel written lead) (h' : IsLabel written' lead')
    (hx : x ∉ blankChars) (hy : y ∉ blankChars) (heq : lead ++ x :: tail = lead' ++ y :: tail') :
    written = written' ∧ lead = lead' ∧ x :: tail = y :: tail' := by
  obtain ⟨hbefore, hbehind, hahead⟩ := h
  obtain ⟨hbefore', hbehind', hahead'⟩ := h'
  have hquote : '"' ∉ blankChars := by decide
  have hcolon : ':' ∉ blankChars := by decide
  simp only [List.append_assoc, List.cons_append] at heq
  obtain ⟨rfl, -, hname⟩ := hbefore.append_inj hbefore' hquote hquote heq
  obtain ⟨rfl, hmark⟩ := hwritten.append_inj hwritten' hname
  obtain ⟨rfl, -, hvalue⟩ := hbehind.append_inj hbehind' hcolon hcolon hmark
  obtain ⟨rfl, rfl, rfl⟩ := hahead.append_inj hahead' hx hy hvalue
  exact ⟨rfl, rfl, rfl⟩

/-- An item has one name at most. -/
theorem Item.names_unique {i : Item} {name name' : String} (h : i.Names name)
    (h' : i.Names name') : name = name' := by
  obtain ⟨written, hspells, hlabel⟩ := h
  obtain ⟨written', hspells', hlabel'⟩ := h'
  have hx : '"' ∉ blankChars := by decide
  have hlead : i.lead ++ ['"'] = i.lead ++ ['"'] := rfl
  obtain ⟨rfl, -, -⟩ :=
    hlabel.append_inj hspells.isContent hspells'.isContent hlabel' hx hx hlead
  exact hspells.unique hspells'

/-- A value that starts with a quote is a string. -/
theorem IsValue.isQuoted (h : IsValue value) (hquote : value.head? = some '"') :
    IsQuoted value := by
  cases h with
  | atom hatom =>
    cases hatom with
    | text hcontent => exact ⟨_, hcontent, rfl⟩
    | number hnumber =>
      cases hnumber with
      | positive hunsigned =>
        obtain ⟨d, ds, rfl, hd⟩ := hunsigned.exists_head
        obtain rfl := Option.some.inj hquote
        contradiction
      | negative => simp at hquote
    | _ => simp at hquote
  | empty frame => cases frame <;> simp [Frame.opening] at hquote
  | frame frame => cases frame <;> simp [Frame.opening] at hquote

/-- A value that starts like a string ends like it. -/
theorem IsValue.append_inj {value' : List Char} (h : IsValue value) (h' : IsQuoted value')
    (heq : value ++ tail = value' ++ tail') : value = value' ∧ tail = tail' := by
  obtain ⟨written', hcontent', rfl⟩ := h'
  have hquote : value.head? = some '"' := by
    obtain ⟨x, behind, rfl, -⟩ := h.exists_head
    exact congrArg some (List.cons.inj heq).1
  obtain ⟨written, hcontent, rfl⟩ := h.isQuoted hquote
  simp only [List.cons_append, List.append_assoc, List.nil_append, List.cons.injEq,
    true_and] at heq
  obtain ⟨rfl, rfl⟩ := hcontent.append_inj hcontent' heq
  exact ⟨rfl, rfl⟩

/-! ### Items -/

/-- An item with a string ends where its string ends, and blanks are left. -/
theorem Item.IsEntry.append_inj {i j : Item} (hi : i.IsEntry) (hj : j.IsEntry)
    (hquoted : IsQuoted j.value) (heq : i.text ++ tail = j.text ++ tail') :
    i.lead = j.lead ∧ i.value = j.value ∧ i.trail ++ tail = j.trail ++ tail' := by
  obtain ⟨written, hwritten, hlabel⟩ := hi.lead
  obtain ⟨written', hwritten', hlabel'⟩ := hj.lead
  obtain ⟨x, inside, hx, hhead⟩ := hi.value.exists_head
  obtain ⟨y, inside', hy, hhead'⟩ := hj.value.exists_head
  rw [Item.text, Item.text, List.append_assoc, List.append_assoc, List.append_assoc,
    List.append_assoc, hx, hy, List.cons_append, List.cons_append] at heq
  obtain ⟨-, hlead, heq⟩ :=
    hlabel.append_inj hwritten hwritten' hlabel' hhead.noBlank hhead'.noBlank heq
  rw [← List.cons_append, ← List.cons_append, ← hx, ← hy] at heq
  exact ⟨hlead, hi.value.append_inj hquoted heq⟩

/-- Items behind an item, up to the bracket. -/
theorem Item.behind_inj {items items' : List Item} (h : ∀ i ∈ items, i.IsEntry)
    (h' : ∀ i ∈ items', i.IsEntry) (hquoted : ∀ i ∈ items', IsQuoted i.value)
    (hblanks : Blanks blanks) (hblanks' : Blanks blanks')
    (heq : blanks ++ (Item.behind items ++ '}' :: tail) =
      blanks' ++ (Item.behind items' ++ '}' :: tail')) : blanks = blanks' ∧ items = items' := by
  have hcomma : ',' ∉ blankChars := by decide
  have hbrace : '}' ∉ blankChars := by decide
  -- The blanks of an item stand in front of the next comma, so they go with the items behind it.
  induction items generalizing items' blanks blanks' with
  | nil =>
    cases items' with
    | nil => exact ⟨(hblanks.append_inj hblanks' hbrace hbrace heq).1, rfl⟩
    | cons j items' =>
      obtain ⟨-, hne, -⟩ := hblanks.append_inj hblanks' hbrace hcomma heq
      contradiction
  | cons i items ih =>
    cases items' with
    | nil =>
      obtain ⟨-, hne, -⟩ := hblanks.append_inj hblanks' hcomma hbrace heq
      contradiction
    | cons j items' =>
      obtain ⟨hi, hitems⟩ := List.forall_mem_cons.1 h
      obtain ⟨hj, hitems'⟩ := List.forall_mem_cons.1 h'
      obtain ⟨hvalue, hquoted'⟩ := List.forall_mem_cons.1 hquoted
      obtain ⟨hblank, -, htext⟩ := hblanks.append_inj hblanks' hcomma hcomma heq
      change i.text ++ Item.behind items ++ _ = j.text ++ Item.behind items' ++ _ at htext
      rw [List.append_assoc, List.append_assoc] at htext
      obtain ⟨hlead, hvalue, hbehind⟩ := hi.append_inj hj hvalue htext
      obtain ⟨htrail, hrest⟩ := ih hitems hitems' hquoted' hi.trail hj.trail hbehind
      have hitem : i = j := by
        cases i
        cases j
        cases hlead
        cases hvalue
        cases htrail
        rfl
      exact ⟨hblank, by rw [hitem, hrest]⟩

/-- **A mapping of strings has no other items.** -/
theorem IsObject.unique {items items' : List Item} (h : IsObject items text)
    (h' : IsObject items' text) (hquoted : ∀ i ∈ items', IsQuoted i.value) : items = items' := by
  obtain ⟨before, inside, behind, hbefore, -, rfl, hentry, hinside⟩ := h
  obtain ⟨before', inside', behind', hbefore', -, heq, hentry', hinside'⟩ := h'
  have hopening : '{' ∉ blankChars := by decide
  have hquote : '"' ∉ blankChars := by decide
  have hbrace : '}' ∉ blankChars := by decide
  obtain ⟨-, -, heq⟩ := hbefore.append_inj hbefore' hopening hopening heq
  -- Behind the bracket there is another bracket, or the quote of a name.
  have hclash : ∀ {i : Item} {items : List Item} {inside tail tail' : List Char}, i.IsEntry →
      Blanks inside → Item.join (i :: items) ++ tail ≠ inside ++ '}' :: tail' := by
    intro i items inside tail tail' hi hinside heq
    obtain ⟨written, hwritten, hlabel⟩ := hi.lead
    obtain ⟨i, value, trail⟩ := i
    obtain ⟨hblanks, -, -⟩ := hlabel
    simp only [Item.join, Item.text, List.append_eq, List.append_assoc, List.cons_append] at heq
    obtain ⟨-, hne, -⟩ := hblanks.append_inj hinside hquote hbrace heq
    contradiction
  obtain ⟨rfl, hblanks⟩ | ⟨hne, rfl⟩ := hinside
  · obtain ⟨rfl, -⟩ | ⟨hne', rfl⟩ := hinside'
    · rfl
    · obtain ⟨j, items', rfl⟩ := List.exists_cons_of_ne_nil hne'
      exact absurd heq.symm (hclash (hentry' j List.mem_cons_self) hblanks)
  · obtain ⟨i, items, rfl⟩ := List.exists_cons_of_ne_nil hne
    obtain ⟨rfl, hblanks'⟩ | ⟨hne', rfl⟩ := hinside'
    · exact absurd heq (hclash (hentry i List.mem_cons_self) hblanks')
    · obtain ⟨j, items', rfl⟩ := List.exists_cons_of_ne_nil hne'
      have hbehind : [] ++ (Item.behind (i :: items) ++ '}' :: behind) =
          [] ++ (Item.behind (j :: items') ++ '}' :: behind') := congrArg (',' :: ·) heq
      exact (Item.behind_inj hentry hentry' hquoted .nil .nil hbehind).2

end SignIn.Json
