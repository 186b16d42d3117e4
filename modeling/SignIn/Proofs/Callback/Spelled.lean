import SignIn.Proofs.Callback.Fields
import SignIn.Proofs.Json.Kept

/-!
# Callbacks as forms and as texts

A callback comes as a form from a browser, and as a text from whoever has stored it. Both are lists
of pairs, and both are split into the four fields with a meaning and all others. But they are split
in different ways. A form is looked up name by name, and the last pair of a name counts. A text is
read from front to back; a name with a meaning is refused when it comes again, and all other members
are put aside until the end, when they have to be strings.

The two agree as long as they can. A text with the pairs of a form is read as the callback of that
form, in whatever order the members stand and however they are spelled, also if a name with a
meaning is written with escapes. The only texts that are refused though a form of the same pairs
would do are those in which a name with a meaning comes again. Since nothing in a text is passed
over, this can be turned around: a text that is read is a mapping of strings, and it has such pairs.

What a callback holds depends on the last value of each name only. So it does not matter here which
list stands for a form, as long as the last values are the same.

## Main definitions

* `Callback.Params.NamesOnce` — each name with a meaning comes at most once
* `Callback.Params.IsSpelled` — a mapping with the pairs of a form
* `Json.Item.Repeats` — a name comes twice

## Main results

* `Callback.Params.ofJson_of_isSpelled` — texts with the pairs of a form are read as the form
* `Callback.Params.isSpelled_of_ofJson` — and no other texts are read
* `Callback.Params.form_and_text_agree` — both, and which mappings are refused
-/

namespace SignIn

open Json

/-! ### Names that come again -/

namespace Json

variable {name : String} {items : List Item} {members : List (String × Option String)}

/-- Two of the items have this name. -/
def Item.Repeats (items : List Item) (name : String) : Prop :=
  ∃ i j, List.Sublist [i, j] items ∧ i.Names name ∧ j.Names name

/-- Items of one name are as many members of this name. -/
theorem length_le_count (h : List.Forall₂ Item.IsMember items members) {same : List Item}
    (hsame : List.Sublist same items) (hnames : ∀ i ∈ same, i.Names name) :
    same.length ≤ (members.map Prod.fst).count name := by
  induction h generalizing same with
  | nil =>
    rw [List.sublist_nil.1 hsame]
    exact Nat.zero_le _
  | @cons i m items members hmember _ ih =>
    rw [List.map_cons, List.count_cons]
    cases hsame with
    | cons _ hsame => exact Nat.le_add_right_of_le (ih hsame hnames)
    | cons_cons _ hsame =>
      obtain ⟨hname, hrest⟩ := List.forall_mem_cons.1 hnames
      obtain rfl : m.1 = name := Item.names_unique hmember.label hname
      rw [if_pos (beq_self_eq_true _), List.length_cons]
      exact Nat.succ_le_succ (ih hsame hrest)

end Json

namespace Callback.Params

variable {form : Form} {text : String} {name : String} {p : Params}

/-- Each name with a meaning comes at most once. -/
def NamesOnce (form : Form) : Prop := ∀ name ∈ reserved, (form.map Prod.fst).count name ≤ 1

instance (form : Form) : Decidable (NamesOnce form) :=
  List.decidableBAll (fun name => (form.map Prod.fst).count name ≤ 1) reserved

/-- The text is a mapping with the pairs of this form, in their order. -/
def IsSpelled (form : Form) (text : String) : Prop :=
  IsMapping (form.map fun p => (p.1, some p.2)) text.toList

/-! ### The members of a callback -/

theorem map_fst_textPairs (form : Form) : (textPairs form).map Prod.fst = form.map Prod.fst := by
  rw [textPairs, List.map_map]
  rfl

/-- There is no pair of a name that comes at most once, or there is exactly one. -/
theorem filter_of_count {α : Type} {pairs : List (String × α)}
    (h : (pairs.map Prod.fst).count name ≤ 1) :
    pairs.filter (·.1 == name) = [] ∨ ∃ a, pairs.filter (·.1 == name) = [(name, a)] := by
  have hlength : (pairs.filter (·.1 == name)).length ≤ 1 := by
    rwa [← List.countP_eq_length_filter, ← Function.comp_def (· == name) Prod.fst,
      ← List.countP_map]
  have hname : ∀ p ∈ pairs.filter (·.1 == name), p.1 = name :=
    fun p hp => beq_iff_eq.1 (List.mem_filter.1 hp).2
  generalize pairs.filter (·.1 == name) = found at hlength hname
  match found, hlength with
  | [], _ => exact .inl rfl
  | [(n, a)], _ =>
    obtain rfl : n = name := hname (n, a) List.mem_cons_self
    exact .inr ⟨a, rfl⟩

/-- If a name comes at most once, its first value is the last one. -/
theorem valueOf_textPairs (h : (form.map Prod.fst).count name ≤ 1) :
    Record.valueOf (textPairs form) name = (form.lookup name).map .text := by
  have hpairs : (textPairs form).filter (·.1 == name) = textPairs (form.filter (·.1 == name)) := by
    rw [textPairs, List.filter_map]
    rfl
  rw [Record.valueOf, ← List.head?_filter, hpairs, Form.lookup_eq]
  obtain hnil | ⟨value, hone⟩ := filter_of_count h
  · rw [hnil]
    rfl
  · rw [hone]
    rfl

/-- The members of a mapping make up the callback of the form with these pairs. -/
theorem ofMembers_of_namesOnce (h : NamesOnce form) :
    ofMembers (textPairs form) = .ok (ofForm form) := by
  have hfilter : (textPairs form).filter (fun m => !reserved.contains m.1) =
      textPairs (form.filter fun p => !reserved.contains p.1) := by
    rw [textPairs, List.filter_map]
    rfl
  rw [ofMembers, hfilter, mapM_expectText, ofForm]
  simp only [ok_bind, valueOf_textPairs (h "error" (by decide)),
    valueOf_textPairs (h "error_description" (by decide)),
    valueOf_textPairs (h "id_token" (by decide)), valueOf_textPairs (h "code" (by decide))]
  -- Each of the four fields is there or not.
  cases form.lookup "error"
  all_goals cases form.lookup "error_description"
  all_goals cases form.lookup "id_token"
  all_goals cases form.lookup "code"
  all_goals rfl

/-- **A text with the pairs of a form is read as the form.** -/
theorem ofJson_of_isSpelled (honce : NamesOnce form) (htext : IsSpelled form text) :
    ofJson (Utf8.encode text) = .ok (ofForm form) := by
  rw [Utf8.encode_eq_bytes]
  refine keepsTexts_record.parse_of_isMapping (fun c hpeek => ?_) honce
    (ofMembers_of_namesOnce honce) htext
  rw [read]
  simp only [hpeek]

/-! ### Back to the text -/

/-- A callback is read from a mapping. -/
theorem of_read_eq_ok {depth : Nat} {c c' : Cursor} (h : read depth c = .ok (p, c')) :
    c.skipBlanks.peek = some '{' ∧
      record.readMapping ofMembers depth c.skipBlanks = .ok (p, c') := by
  rw [read] at h
  split at h
  · next hpeek => exact ⟨hpeek, h⟩
  · cases h
  · exact absurd h (refuse_ne_ok _ _ _)

/-- Members that make up a callback are strings: the others are asked for a text one by one, and of
those with a meaning there is one of each name at most. -/
theorem exists_text_of_ofMembers {pairs : List (String × Found)}
    (honce : record.NamesOnce (pairs.map Prod.fst)) (h : ofMembers pairs = .ok p) :
    ∀ q ∈ pairs, ∃ s, q.2 = .text s := by
  obtain ⟨others, hothers, h⟩ := of_bind_eq_ok h
  have hfield : ∀ name ∈ reserved, ∀ found, Record.valueOf pairs name = some found →
      ∃ s, expectText found = .ok s := by
    obtain ⟨error, herror, h⟩ := of_bind_eq_ok h
    obtain ⟨errorDescription, hdescription, h⟩ := of_bind_eq_ok h
    obtain ⟨idToken, hidToken, h⟩ := of_bind_eq_ok h
    obtain ⟨code, hcode, -⟩ := of_bind_eq_ok h
    intro name hname found hfound
    simp only [reserved, List.mem_cons, List.not_mem_nil, or_false] at hname
    rcases hname with rfl | rfl | rfl | rfl
    · simp only [hfound] at herror
      exact ⟨error, herror⟩
    · simp only [hfound] at hdescription
      exact ⟨errorDescription, hdescription⟩
    · simp only [hfound] at hidToken
      exact ⟨idToken, hidToken⟩
    · simp only [hfound] at hcode
      exact ⟨code, hcode⟩
  have hexpect : ∀ {found : Found} {s : String}, expectText found = .ok s → found = .text s := by
    intro found s h
    cases found with
    | text s' => rw [Except.ok.inj h]
    | _ => cases h
  rintro ⟨name, found⟩ hq
  by_cases hname : name ∈ reserved
  · have hmem : (name, found) ∈ pairs.filter (·.1 == name) :=
      List.mem_filter.2 ⟨hq, beq_self_eq_true name⟩
    obtain hnil | ⟨found', hone⟩ := filter_of_count (honce name hname)
    · rw [hnil] at hmem
      exact absurd hmem List.not_mem_nil
    · rw [hone, List.mem_singleton] at hmem
      cases hmem
      have hfound : Record.valueOf pairs name = some found := by
        rw [Record.valueOf, ← List.head?_filter, hone]
        rfl
      obtain ⟨s, hs⟩ := hfield name hname found hfound
      exact ⟨s, hexpect hs⟩
  · have hmem : (name, found) ∈ pairs.filter fun m => !reserved.contains m.1 :=
      List.mem_filter.2 ⟨hq, by simpa using hname⟩
    obtain ⟨other, -, hother⟩ := exists_of_forall₂ (forall₂_of_mapM_eq_ok hothers) _ hmem
    obtain ⟨s, hs, -⟩ := of_bind_eq_ok hother
    exact ⟨s, hexpect hs⟩

/-- Pairs of strings are those of a form. -/
theorem exists_textPairs {pairs : List (String × Found)} (h : ∀ q ∈ pairs, ∃ s, q.2 = .text s) :
    ∃ form, pairs = textPairs form := by
  induction pairs with
  | nil => exact ⟨[], rfl⟩
  | cons q pairs ih =>
    obtain ⟨⟨s, hs⟩, hrest⟩ := List.forall_mem_cons.1 h
    obtain ⟨form, rfl⟩ := ih hrest
    exact ⟨(q.1, s) :: form, congrArg (· :: textPairs form) (Prod.ext rfl hs)⟩

/-- **What was read is a text with the pairs of a form.** -/
theorem isSpelled_of_ofJson {bs : Bytes} (h : ofJson bs = .ok p) :
    ∃ form text, bs = Utf8.encode text ∧ NamesOnce form ∧ IsSpelled form text ∧
      p = ofForm form := by
  obtain ⟨pairs, hmembers, honce, htext⟩ := keepsTexts_record.of_parse of_read_eq_ok h
  obtain ⟨form, rfl⟩ := exists_textPairs (exists_text_of_ofMembers honce hmembers)
  obtain ⟨chars, hmapping, rfl⟩ := htext form rfl
  rw [map_fst_textPairs] at honce
  rw [ofMembers_of_namesOnce honce] at hmembers
  refine ⟨form, String.ofList chars, ?_, honce, ?_, (Except.ok.inj hmembers).symm⟩
  · rw [Utf8.encode_ofList, Utf8.bytes]
  · rwa [IsSpelled, String.toList_ofList]

/-- Of a mapping that is read all values are strings, and no name with a meaning comes again. -/
theorem of_isObject {items : List Item} (hobject : IsObject items text.toList)
    (h : ofJson (Utf8.encode text) = .ok p) :
    (∀ name ∈ reserved, ¬Item.Repeats items name) ∧ ∀ i ∈ items, IsQuoted i.value := by
  obtain ⟨form, text', htext, honce, hspelled, -⟩ := isSpelled_of_ofJson h
  obtain rfl := Utf8.encode_injective htext
  obtain ⟨items', hobject', hitems⟩ := isMapping_iff.1 hspelled
  have hquoted : ∀ i ∈ items', IsQuoted i.value := by
    intro i hi
    obtain ⟨m, hm, hmember⟩ := exists_of_forall₂ hitems i hi
    obtain ⟨q, -, rfl⟩ := List.mem_map.1 hm
    exact (hmember.text q.2 rfl).isQuoted
  obtain rfl := hobject.unique hobject' hquoted
  refine ⟨?_, hquoted⟩
  rintro name hname ⟨i, j, hsublist, hi, hj⟩
  have hcount := length_le_count hitems hsublist
    (List.forall_mem_cons.2 ⟨hi, List.forall_mem_singleton.2 hj⟩)
  rw [List.map_map] at hcount
  exact absurd (Nat.le_trans hcount (honce name hname)) (Nat.not_succ_le_self 1)

/-- **Forms and texts agree.** A mapping with the pairs of a form, in which each name with a meaning
comes at most once, is read as the callback of that form, or of any other form with the same last
values, and it asks for the same. A mapping in which a name with a meaning comes again is refused,
and so is one in which any value is not a string. Nothing else is read. -/
theorem form_and_text_agree :
    (∀ (form last : Form) (text : String), NamesOnce form → IsSpelled form text →
      (∀ name, last.lookup name = form.lookup name) →
        ofJson (Utf8.encode text) = .ok (ofForm last) ∧
          ∀ p, ofJson (Utf8.encode text) = .ok p → p.signal = (ofForm last).signal) ∧
    (∀ (items : List Item) (text : String), IsObject items text.toList →
      ((∃ name ∈ reserved, Item.Repeats items name) ∨ ∃ i ∈ items, ¬IsQuoted i.value) →
        ∃ e, ofJson (Utf8.encode text) = .error e) ∧
    ∀ (bs : Bytes) (p : Params), ofJson bs = .ok p ↔
      ∃ form text, bs = Utf8.encode text ∧ NamesOnce form ∧ IsSpelled form text ∧
        p = ofForm form := by
  refine ⟨fun form last text honce htext hlast => ?_, fun items text hobject hbad => ?_,
    fun bs p => ⟨isSpelled_of_ofJson, ?_⟩⟩
  · have hread := ofJson_of_isSpelled honce htext
    rw [← ofForm_congr hlast] at hread
    refine ⟨hread, fun p hp => ?_⟩
    rw [hread] at hp
    rw [Except.ok.inj hp]
  · cases hread : ofJson (Utf8.encode text) with
    | error e => exact ⟨e, rfl⟩
    | ok p =>
      obtain ⟨honce, hquoted⟩ := of_isObject hobject hread
      obtain ⟨name, hname, hrepeats⟩ | ⟨i, hi, hvalue⟩ := hbad
      · exact absurd hrepeats (honce name hname)
      · exact absurd (hquoted i hi) hvalue
  · rintro ⟨form, text, rfl, honce, htext, rfl⟩
    exact ofJson_of_isSpelled honce htext

/-! ### Two texts -/

/-- A member as it is written. -/
def writtenItem (name value : String) : Item :=
  ⟨(writeText name).toList ++ [':'], (writeText value).toList, []⟩

theorem isMember_writtenItem (name value : String) :
    (writtenItem name value).IsMember (name, some value) := by
  have htext := isTextOf_writeText value
  have hlead : (writtenItem name value).lead =
      [] ++ '"' :: (name.toList.flatMap escapeChar ++ '"' :: ([] ++ ':' :: [])) := by
    simp [writtenItem, writeText]
  have hvalue : (writtenItem name value).value = (writeText value).toList := by rw [writtenItem]
  refine ⟨⟨_, spells_flatMap name.toList, hlead ▸ .intro .nil .nil .nil⟩, ?_, ?_, .nil⟩
  · rw [hvalue]
    exact htext.isValue
  · rintro s ⟨⟩
    rw [hvalue]
    exact htext

/-- The member `code`, written with an escape, and blanks around its colon. -/
def escapedItem : Item := ⟨"\"c\\u006fde\" : ".toList, "\"abc\"".toList, []⟩

theorem isMember_escapedItem : escapedItem.IsMember ("code", some "abc") := by
  have hlong : Spells (['\\', 'u', '0', '0', '6', 'f'] ++ ['d', 'e']) ('o' :: ['d', 'e']) :=
    .long (n := 0x6F) (.intro (a := 0) (b := 0) (c := 6) (d := 15) (by decide) (by decide)
      (by decide) (by decide)) (by decide) (by decide)
      (.ordinary (by decide) (.ordinary (by decide) .nil))
  have hname : Spells "c\\u006fde".toList "code".toList := .ordinary (by decide) hlong
  have hvalue : Spells "abc".toList "abc".toList :=
    .ordinary (by decide) (.ordinary (by decide) (.ordinary (by decide) .nil))
  refine ⟨⟨_, hname, @IsLabel.intro _ [] [' '] [' '] .nil (by decide) (by decide)⟩,
    .atom (.text hvalue.isContent), ?_, .nil⟩
  rintro s ⟨⟩
  exact .intro hvalue

/-- A text with a name that comes again and an escaped one, and a text in which the escaped name
comes again. -/
theorem form_and_text_agree_of_escaped :
    IsSpelled [("state", "1"), ("code", "abc"), ("state", "2")]
        "\x7b\"state\":\"1\",\"c\\u006fde\" : \"abc\",\"state\":\"2\"\x7d " ∧
      ofJson (Utf8.encode
          "\x7b\"state\":\"1\",\"c\\u006fde\" : \"abc\",\"state\":\"2\"\x7d ") =
        .ok (ofForm [("code", "abc"), ("state", "2")]) ∧
      ∃ e, ofJson (Utf8.encode "\x7b\"code\":\"a\",\"c\\u006fde\" : \"abc\"\x7d") =
        .error e := by
  have hspelled : IsSpelled [("state", "1"), ("code", "abc"), ("state", "2")]
      "\x7b\"state\":\"1\",\"c\\u006fde\" : \"abc\",\"state\":\"2\"\x7d " :=
    ⟨[], Item.join [writtenItem "state" "1", escapedItem, writtenItem "state" "2"], [' '], .nil,
      by decide, by decide +kernel, .inr ⟨List.cons_ne_nil _ _, _,
        .cons (isMember_writtenItem _ _) (.cons isMember_escapedItem
          (.cons (isMember_writtenItem _ _) .nil)), rfl⟩⟩
  have hlast : ∀ name, Form.lookup [("code", "abc"), ("state", "2")] name =
      Form.lookup [("state", "1"), ("code", "abc"), ("state", "2")] name := by
    intro name
    by_cases hname : "state" = name
    · simp [Form.lookup, hname]
    · simp [Form.lookup, List.find?_cons, beq_false_of_ne hname]
  have hobject : IsObject [writtenItem "code" "a", escapedItem]
      "\x7b\"code\":\"a\",\"c\\u006fde\" : \"abc\"\x7d".toList :=
    ⟨[], _, [], .nil, .nil, by decide +kernel, List.forall_mem_cons.2
      ⟨(isMember_writtenItem _ _).isEntry,
        List.forall_mem_singleton.2 isMember_escapedItem.isEntry⟩,
      .inr ⟨List.cons_ne_nil _ _, rfl⟩⟩
  have hrepeats : Item.Repeats [writtenItem "code" "a", escapedItem] "code" :=
    ⟨_, _, .refl _, (isMember_writtenItem "code" "a").label, isMember_escapedItem.label⟩
  exact ⟨hspelled, (form_and_text_agree.1 _ _ _ (by decide) hspelled hlast).1,
    form_and_text_agree.2.1 _ _ hobject (.inl ⟨"code", by decide, hrepeats⟩)⟩

end Callback.Params

end SignIn
