import SignIn.Proofs.Json.Again
import SignIn.Proofs.Json.Closing
import SignIn.Proofs.Json.Spelled

/-!
# The shapes of a record

A record can be read from a mapping or from a sequence, and from nothing else. Here it is said which
mappings and sequences these are, for records whose members are texts with a default.

Whatever is read as a mapping is one. What its members must be for the record does not matter here,
and the text may be one in the lossy way alone: a string that nobody knows is passed over, also if
its bytes are no text.

In a sequence there are no names. The elements are the members in the order of the record, so each
of them is a text, and there may be fewer of them than members, because those that are missing at
the end count as their defaults. Of a sequence nothing is passed over, so its bytes are those of a
text.

## Main definitions

* `Json.IsAnyMapping` — a mapping, whatever its members
* `Json.IsSequence` — a sequence of these texts
* `Json.Record.HasDefaults` — all members are texts with a default

## Main results

* `Json.Record.shape_of_parse` — a text that is read as a record is a mapping or a sequence
* `Json.Record.parse_of_isSequence` — every sequence that is short enough is read
-/

namespace SignIn.Json

variable {α β : Type} {c c₁ c' : Cursor} {first : Bool} {depth : Nat} {s : String}
  {texts : List String} {text blanks tail : List Char} {rest : Bytes}

/-! ### Shapes -/

/-- A mapping, whatever its members, and blanks around it. -/
def IsAnyMapping (text : List Char) : Prop :=
  ∃ before inside behind, Blanks before ∧ Blanks behind ∧ IsValue ('{' :: inside) ∧
    text = before ++ '{' :: (inside ++ behind)

/-- Strings that stand for these texts, with commas between them, up to the closing bracket. -/
inductive IsTexts : (first : Bool) → List String → List Char → Prop
  | nil {first : Bool} {blanks : List Char} (h : Blanks blanks) : IsTexts first [] blanks
  | cons {first : Bool} {s : String} {texts : List String} {comma blanks value text : List Char}
      (hcomma : IsComma first comma) (hblanks : Blanks blanks) (hvalue : IsTextOf s value)
      (h : IsTexts false texts text) :
      IsTexts first (s :: texts) (comma ++ (blanks ++ (value ++ text)))

/-- A sequence of strings that stand for these texts, and blanks around it. -/
def IsSequence (texts : List String) (text : List Char) : Prop :=
  ∃ before inside behind, Blanks before ∧ Blanks behind ∧ IsTexts true texts inside ∧
    text = before ++ '[' :: (inside ++ ']' :: behind)

/-- A mapping ends with its bracket. -/
theorem IsAnyMapping.brace_mem (h : IsAnyMapping text) : '}' ∈ text := by
  obtain ⟨before, inside, behind, -, -, hvalue, rfl⟩ := h
  have hbrace : '}' ∈ '{' :: inside := by
    generalize htext : '{' :: inside = value at hvalue
    cases hvalue with
    | atom hatom =>
      obtain ⟨x, tail, rfl, hx⟩ := hatom.exists_head
      obtain ⟨rfl, rfl⟩ := List.cons.inj htext
      cases hatom with
      | number hnumber =>
        cases hnumber with
        | positive hunsigned =>
          obtain ⟨d, ds, hd, hdigit⟩ := hunsigned.exists_head
          obtain ⟨rfl, -⟩ := List.cons.inj hd
          contradiction
    | empty frame =>
      cases frame with
      | sequence => cases htext
      | mapping => simp [Frame.bracket]
    | frame frame =>
      cases frame with
      | sequence => cases htext
      | mapping => simp [Frame.bracket]
  rw [← List.cons_append]
  exact List.mem_append_right _ (List.mem_append_left _ hbrace)

/-- A sequence starts with its bracket. -/
theorem IsSequence.bracket_mem (h : IsSequence texts text) : '[' ∈ text := by
  obtain ⟨before, inside, behind, -, -, -, rfl⟩ := h
  simp

/-! ### Behind a record -/

/-- Only blanks are left. -/
theorem spans_of_over (h : c.skipBlanks.peek = none) :
    ∃ blanks, Blanks blanks ∧ c.rest = Utf8.bytes blanks := by
  obtain ⟨blanks, hblanks, hspans⟩ := spans_skipBlanks c
  have hnil : c.skipBlanks.rest = [] := by
    rw [Cursor.peek, Option.map_eq_none_iff, List.head?_eq_none_iff] at h
    exact h
  rw [Spans, hnil, List.append_nil] at hspans
  exact ⟨blanks, hblanks, hspans⟩

/-- The end of a frame was read. -/
theorem spans_of_finish (frame : Frame) (h : frame.finish c = .ok c') :
    ∃ blanks, Blanks blanks ∧ Spans c (blanks ++ [frame.bracket]) c' := by
  obtain ⟨hpeek, hfinish⟩ | ⟨-, e, herror⟩ := frame.finish_cases c
  · rw [hfinish] at h
    cases h
    exact spans_blanks_advance hpeek (isBracket frame).1
  · rw [herror] at h
    cases h

/-! ### Mappings -/

theorem of_skipColon (h : skipColon c = .ok c') :
    c.skipBlanks.peek = some ':' ∧ c' = c.skipBlanks.advance := by
  rw [skipColon] at h
  split at h
  · next hpeek =>
    cases h
    exact ⟨hpeek, rfl⟩
  · cases h
  · cases h

/-- The mapping ends, or a key was read, behind a comma unless it is the first. -/
theorem of_nextKey_eq_ok {next : Option (String × Cursor)} (h : nextKey first c = .ok next) :
    (next = none ∧ c.skipBlanks.peek = some '}') ∨
      ∃ comma blanks d key c₁, next = some (key, c₁) ∧ IsComma first comma ∧ Blanks blanks ∧
        Spans c (comma ++ blanks) d ∧ d.peek = some '"' ∧ scanText d.advance = .ok (key, c₁) := by
  obtain ⟨blanks, hblanks, hspans⟩ := spans_skipBlanks c
  have hkey : ∀ {d : Cursor}, d.peek = some '"' →
      (do return some (← scanText d.advance)) = Except.ok next →
        ∃ key c₁, next = some (key, c₁) ∧ scanText d.advance = .ok (key, c₁) := by
    intro d hquote hscan
    obtain ⟨⟨key, c₁⟩, hread, hnext⟩ := of_bind_eq_ok hscan
    cases hnext
    exact ⟨key, c₁, rfl, hread⟩
  rw [nextKey] at h
  dsimp only at h
  split at h
  · next hbrace =>
    cases h
    exact .inl ⟨rfl, hbrace⟩
  · next hcomma =>
    split at h
    · cases h
    · next hfirst =>
      obtain ⟨blanks', hblanks', hspans'⟩ := spans_skipBlanks c.skipBlanks.advance
      split at h
      · next hquote =>
        obtain ⟨key, c₁, rfl, hscan⟩ := hkey hquote h
        obtain rfl : first = false := by simpa using hfirst
        have hbehind := (hspans.trans (spans_advance hcomma (by decide))).trans hspans'
        exact .inr ⟨_, _, _, key, c₁, rfl, .behind hblanks, hblanks', hbehind, hquote, hscan⟩
      · cases h
      · cases h
      · cases h
  · split at h
    · next hfirst =>
      subst hfirst
      split at h
      · next hquote =>
        obtain ⟨key, c₁, rfl, hscan⟩ := hkey hquote h
        exact .inr ⟨[], _, _, key, c₁, rfl, .first, hblanks, hspans, hquote, hscan⟩
      · cases h
      · cases h
      · cases h
    · cases h
  · cases h

namespace Record

variable {r : Record α} {seen pairs : List (String × α)} {fuel : Nat}

/-- A member was read from behind its key: its colon and its value. -/
theorem takes_of_readMember {before : List Char} {key : String} {value : Option α} {d : Cursor}
    (hothers : r.others = none) (hscalar : ∀ m ∈ r.members, IsScalar m.read)
    (hbefore : Blanks before) (hquote : c.peek = some '"')
    (hkey : scanText c.advance = .ok (key, c₁))
    (hmember : r.readMember depth seen key c₁ = .ok (value, d)) :
    ∃ lead value, Frame.mapping.IsLead (before ++ lead) ∧ IsValue value ∧
      Takes c (lead ++ value) d := by
  obtain ⟨c₂, hcolon, hread⟩ := of_readMember_eq_ok hothers hmember
  obtain ⟨hpeek, rfl⟩ := of_skipColon hcolon
  have hskip : skipAny c₁.skipBlanks.advance = .ok d := by
    obtain ⟨-, -, hskip⟩ | ⟨m, a, hfind, -, hread⟩ := hread
    · exact hskip
    · exact (hscalar m (knows_of_find? hfind).1 hread).1
  obtain ⟨lead, hlead, htakes⟩ := takes_of_label hbefore hquote (skipText_of_scanText hkey) hpeek
  obtain ⟨blanks, value, hblanks, hvalue, htakes'⟩ := takes_of_skipAny hskip
  refine ⟨lead ++ blanks, value, ?_, hvalue, ?_⟩
  · rw [← List.append_assoc]
    exact hlead.append hblanks
  · simpa using htakes.trans htakes'

/-- One round of the loop over the members: the mapping ends, or a key was read, behind a comma
unless it is the first, and then its member. -/
theorem of_readMembers_succ (h : r.readMembers depth (fuel + 1) first seen c = .ok (pairs, c')) :
    (c' = c ∧ pairs = seen.reverse) ∨
      ∃ comma blanks d key c₁ value d', IsComma first comma ∧ Blanks blanks ∧
        Spans c (comma ++ blanks) d ∧ d.peek = some '"' ∧ scanText d.advance = .ok (key, c₁) ∧
          r.readMember depth seen key c₁ = .ok (value, d') ∧
            r.readMembers depth fuel false ((value.map (key, ·)).toList ++ seen) d' =
              .ok (pairs, c') := by
  rw [readMembers] at h
  obtain ⟨next, hnext, h⟩ := of_bind_eq_ok h
  obtain ⟨rfl, -⟩ | ⟨comma, blanks, d, key, c₁, rfl, hcomma, hblanks, hspans, hquote, hkey⟩ :=
    of_nextKey_eq_ok hnext
  · cases h
    exact .inl ⟨rfl, rfl⟩
  · obtain ⟨⟨value, d'⟩, hmember, h⟩ := of_bind_eq_ok h
    exact .inr ⟨comma, blanks, d, key, c₁, value, d', hcomma, hblanks, hspans, hquote, hkey,
      hmember, h⟩

/-- One round of the loop over the members of a record that drops what it does not know. -/
theorem of_readMembers_eq_ok (hothers : r.others = none)
    (hscalar : ∀ m ∈ r.members, IsScalar m.read)
    (h : r.readMembers depth (fuel + 1) first seen c = .ok (pairs, c')) :
    c' = c ∨
      ∃ comma lead value d seen', IsComma first comma ∧ Frame.mapping.IsLead lead ∧ IsValue value ∧
        Takes c (comma ++ (lead ++ value)) d ∧
          r.readMembers depth fuel false seen' d = .ok (pairs, c') := by
  obtain ⟨rfl, -⟩ |
    ⟨comma, blanks, d, key, c₁, value, d', hcomma, hblanks, hspans, hquote, hkey, hmember, h⟩ :=
    of_readMembers_succ h
  · exact .inl rfl
  · obtain ⟨lead, value, hlead, hvalue, htakes⟩ :=
      takes_of_readMember hothers hscalar hblanks hquote hkey hmember
    refine .inr ⟨comma, _, value, d', _, hcomma, hlead, hvalue, ?_, h⟩
    simpa using hspans.takes.trans htakes

/-- Members behind a member are the rest of a mapping. -/
theorem takes_of_readMembers (hothers : r.others = none)
    (hscalar : ∀ m ∈ r.members, IsScalar m.read)
    (h : r.readMembers depth fuel false seen c = .ok (pairs, c₁)) (hend : endMapping c₁ = .ok c') :
    ∃ text, Frame.mapping.IsRest text ∧ Takes c text c' := by
  induction fuel generalizing seen c with
  | zero =>
    rw [readMembers] at h
    cases h
  | succ fuel ih =>
    obtain rfl | ⟨comma, lead, value, d, seen', hcomma, hlead, hvalue, htakes, h⟩ :=
      of_readMembers_eq_ok hothers hscalar h
    · obtain ⟨blanks, hblanks, hspans⟩ := spans_of_finish .mapping hend
      exact ⟨_, .close hblanks, hspans.takes⟩
    · obtain ⟨text, hrest, hbehind⟩ := ih h
      cases hcomma with
      | behind hblanks =>
        refine ⟨_, .more hblanks hlead hvalue hrest, ?_⟩
        simpa using htakes.trans hbehind

/-- What was read as a mapping is a mapping. -/
theorem takes_of_readMapping {finish : List (String × α) → Except Cause β} {b : β}
    (hothers : r.others = none) (hscalar : ∀ m ∈ r.members, IsScalar m.read)
    (hpeek : c.peek = some '{') (h : r.readMapping finish depth c = .ok (b, c')) :
    ∃ inside, IsValue ('{' :: inside) ∧ Takes c ('{' :: inside) c' := by
  obtain ⟨pairs, c₁, hmembers, -, hend⟩ := of_readMapping_eq_ok h
  have hbracket := spans_advance hpeek (by decide)
  obtain rfl | ⟨comma, lead, value, d, seen', hcomma, hlead, hvalue, htakes, hmembers⟩ :=
    of_readMembers_eq_ok hothers hscalar hmembers
  · obtain ⟨blanks, hblanks, hspans⟩ := spans_of_finish .mapping hend
    exact ⟨_, .empty .mapping hblanks, (hbracket.trans hspans).takes⟩
  · obtain ⟨text, hrest, hbehind⟩ := takes_of_readMembers hothers hscalar hmembers hend
    cases hcomma
    refine ⟨_, hrest.isValue hlead hvalue, ?_⟩
    simpa using hbracket.takes.trans (htakes.trans hbehind)

end Record

/-! ### Sequences -/

/-- The sequence ends, or an element comes next, behind a comma unless it is the first. -/
theorem of_nextElement_eq_ok {next : Option Cursor} (h : nextElement first c = .ok next) :
    (next = none ∧ c.skipBlanks.peek = some ']') ∨
      ∃ comma blanks d, next = some d ∧ IsComma first comma ∧ Blanks blanks ∧
        Spans c (comma ++ blanks) d := by
  obtain ⟨blanks, hblanks, hspans⟩ := spans_skipBlanks c
  have hfirst : first = true → ∃ comma blanks d, some c.skipBlanks = some d ∧ IsComma first comma ∧
      Blanks blanks ∧ Spans c (comma ++ blanks) d := by
    rintro rfl
    exact ⟨[], blanks, _, rfl, .first, hblanks, hspans⟩
  rw [nextElement] at h
  dsimp only at h
  split at h
  · cases h
  · next hbracket =>
    cases h
    exact .inl ⟨rfl, hbracket⟩
  · next hcomma =>
    split at h
    · next htrue =>
      cases h
      exact .inr (hfirst htrue)
    · next hfalse =>
      split at h
      · cases h
      · cases h
        obtain rfl : first = false := by simpa using hfalse
        obtain ⟨blanks', hblanks', hspans'⟩ := spans_skipBlanks c.skipBlanks.advance
        have hbehind := (hspans.trans (spans_advance hcomma (by decide))).trans hspans'
        exact .inr ⟨_, blanks', _, rfl, .behind hblanks, hblanks', hbehind⟩
      · cases h
  · split at h
    · next htrue =>
      cases h
      exact .inr (hfirst htrue)
    · cases h

/-- There is no further element where the sequence ends. -/
theorem nextElement_of_bracket (hpeek : c.skipBlanks.peek = some ']') (first : Bool) :
    nextElement first c = .ok none := by
  rw [nextElement]
  simp only [hpeek]

namespace Record

variable {r : Record String} {members : List (Member String)} {index : Nat} {values : List String}
  {a : String}

/-- All members are texts, and this is what a missing one counts as. -/
structure HasDefaults (r : Record String) (a : String) : Prop where
  others : r.others = none
  read : ∀ m ∈ r.members, m.read = readText
  absentAtEnd : ∀ m ∈ r.members, m.absentAtEnd = some a

/-- The values of the members if these are the elements of a sequence. -/
def pad (a : String) (texts : List String) (members : List (Member String)) : List String :=
  texts ++ List.replicate (members.length - texts.length) a

/-- Where the sequence ends, all further members count as their default. -/
theorem readElements_of_bracket (hdefault : ∀ m ∈ members, m.absentAtEnd = some a)
    (hpeek : c.skipBlanks.peek = some ']') :
    r.readElements depth index members c = .ok (List.replicate members.length a, c) := by
  induction members generalizing index with
  | nil => rfl
  | cons m members ih =>
    rw [readElements, nextElement_of_bracket hpeek]
    simp only [ok_bind, hdefault m List.mem_cons_self,
      ih fun m hm => hdefault m (List.mem_cons_of_mem _ hm)]
    rfl

/-- The elements that were read are texts, at most one for each member. -/
theorem spans_of_readElements (hread : ∀ m ∈ members, m.read = readText)
    (hdefault : ∀ m ∈ members, m.absentAtEnd = some a)
    (h : r.readElements depth index members c = .ok (values, c₁)) (hend : endSequence c₁ = .ok c') :
    ∃ texts text, IsTexts (index == 0) texts text ∧ texts.length ≤ members.length ∧
      Spans c (text ++ [']']) c' := by
  -- The members say how far to read, and the texts come with the elements that are there.
  induction members generalizing index c values with
  | nil =>
    cases h
    obtain ⟨blanks, hblanks, hspans⟩ := spans_of_finish .sequence hend
    exact ⟨[], blanks, .nil hblanks, Nat.le_refl _, hspans⟩
  | cons m members ih =>
    obtain ⟨hm, hread'⟩ := List.forall_mem_cons.1 hread
    obtain ⟨-, hdefault'⟩ := List.forall_mem_cons.1 hdefault
    obtain ⟨next, hnext, -⟩ := of_bind_eq_ok h
    obtain ⟨rfl, hpeek⟩ | ⟨comma, blanks, d, rfl, hcomma, hblanks, hspans⟩ :=
      of_nextElement_eq_ok hnext
    · rw [readElements_of_bracket hdefault hpeek] at h
      cases h
      obtain ⟨blanks, hblanks, hspans⟩ := spans_of_finish .sequence hend
      exact ⟨[], blanks, .nil hblanks, Nat.zero_le _, hspans⟩
    · rw [readElements, hnext, ok_bind] at h
      obtain ⟨⟨s, d'⟩, htext, h⟩ := of_bind_eq_ok h
      obtain ⟨⟨values', d''⟩, helements, h⟩ := of_bind_eq_ok h
      cases h
      rw [hm] at htext
      obtain ⟨blanks', value, hblanks', hvalue, hspans'⟩ := spans_of_readText htext
      obtain ⟨texts, text, htexts, hlength, hbehind⟩ := ih hread' hdefault' helements
      refine ⟨s :: texts, _, .cons hcomma (hblanks.append hblanks') hvalue htexts,
        Nat.succ_le_succ hlength, ?_⟩
      simpa using hspans.trans (hspans'.trans hbehind)

/-- An element is a text, behind a comma and blanks. -/
theorem nextElement_of_isTextOf {comma value : List Char} (hcomma : IsComma first comma)
    (hblanks : Blanks blanks) (hvalue : IsTextOf s value)
    (h : c.rest = Utf8.bytes (comma ++ (blanks ++ (value ++ text))) ++ rest) :
    ∃ c', nextElement first c = .ok (some c') ∧ c'.rest = Utf8.bytes (value ++ text) ++ rest := by
  obtain ⟨hspells⟩ := hvalue
  cases hcomma with
  | first =>
    obtain ⟨hrest, hpeek, -⟩ := Cursor.of_blanks hblanks (by decide) (by decide) h
    refine ⟨c.skipBlanks, ?_, hrest⟩
    rw [nextElement]
    simp only [hpeek, if_true]
    rfl
  | behind hbefore =>
    rw [List.append_assoc] at h
    obtain ⟨-, hpeek, hadvance⟩ := Cursor.of_blanks hbefore (by decide) (by decide) h
    obtain ⟨hrest, hquote, -⟩ := Cursor.of_blanks hblanks (by decide) (by decide) hadvance
    refine ⟨c.skipBlanks.advance.skipBlanks, ?_, hrest⟩
    rw [nextElement]
    simp only [hpeek, Bool.false_eq_true, if_false, hquote]
    rfl

/-- Elements that are texts are read, and missing members count as their default. -/
theorem readElements_of_isTexts (hread : ∀ m ∈ members, m.read = readText)
    (hdefault : ∀ m ∈ members, m.absentAtEnd = some a) (htexts : IsTexts (index == 0) texts text)
    (hlength : texts.length ≤ members.length)
    (h : c.rest = Utf8.bytes (text ++ ']' :: tail) ++ rest) :
    ∃ c', r.readElements depth index members c = .ok (pad a texts members, c') ∧
      c'.skipBlanks.peek = some ']' ∧ c'.skipBlanks.advance.rest = Utf8.bytes tail ++ rest := by
  induction members generalizing index texts text c with
  | nil =>
    cases htexts with
    | nil hblanks =>
      obtain ⟨-, hpeek, hadvance⟩ := Cursor.of_blanks hblanks (by decide) (by decide) h
      exact ⟨c, rfl, hpeek, hadvance⟩
    | cons => contradiction
  | cons m members ih =>
    cases htexts with
    | nil hblanks =>
      obtain ⟨-, hpeek, hadvance⟩ := Cursor.of_blanks hblanks (by decide) (by decide) h
      exact ⟨c, readElements_of_bracket hdefault hpeek, hpeek, hadvance⟩
    | @cons _ s texts comma blanks value text hcomma hblanks hvalue htexts =>
      obtain ⟨hm, hread'⟩ := List.forall_mem_cons.1 hread
      obtain ⟨-, hdefault'⟩ := List.forall_mem_cons.1 hdefault
      have hc : c.rest =
          Utf8.bytes (comma ++ (blanks ++ (value ++ (text ++ ']' :: tail)))) ++ rest := by
        simpa using h
      obtain ⟨c₁, hnext, hc₁⟩ := nextElement_of_isTextOf hcomma hblanks hvalue hc
      rw [Utf8.bytes_append, List.append_assoc] at hc₁
      obtain ⟨c₂, htext, hc₂⟩ := readText_of_isTextOf .nil hvalue depth hc₁
      have hbehind : IsTexts (index + 1 == 0) texts text := htexts
      obtain ⟨c', helements, hpeek, hadvance⟩ :=
        ih hread' hdefault' hbehind (Nat.le_of_succ_le_succ hlength) hc₂
      refine ⟨c', ?_, hpeek, hadvance⟩
      rw [readElements, hnext]
      simp only [ok_bind, hm, htext, helements]
      simp [pad, pure, Except.pure]

/-! ### Whole texts -/

/-- **What is read is a mapping or a sequence.** -/
theorem shape_of_parse {bs : Bytes} (h : r.HasDefaults a) (hparse : parse r.read bs = .ok values) :
    IsAnyMapping (Utf8.lossy bs) ∨ ∃ texts text, IsSequence texts text ∧
      texts.length ≤ r.members.length ∧ bs = Utf8.bytes text := by
  obtain ⟨c', hread, hover⟩ := of_parse_eq_ok hparse
  obtain ⟨before, hbefore, hspans⟩ := spans_skipBlanks (Cursor.ofBytes bs)
  obtain ⟨behind, hbehind, hrest⟩ := spans_of_over hover
  rw [Record.read] at hread
  split at hread
  · next hpeek =>
    have hscalar : ∀ m ∈ r.members, IsScalar m.read := by
      intro m hm
      rw [h.read m hm]
      exact isScalar_readText
    obtain ⟨inside, hvalue, htakes⟩ := takes_of_readMapping h.others hscalar hpeek hread
    refine .inl ⟨before, inside, behind, hbefore, hbehind, hvalue, ?_⟩
    have htaken := hspans.takes.trans htakes
    have hlossy := Utf8.lossy_bytes_append behind []
    rw [List.append_nil, Utf8.lossy_nil, List.append_nil] at hlossy
    rw [Takes, hrest, hlossy] at htaken
    simpa [Cursor.ofBytes] using htaken
  · next hpeek =>
    rw [readSequence] at hread
    split at hread
    · cases hread
    · obtain ⟨⟨values', c₁⟩, helements, hread⟩ := of_bind_eq_ok hread
      obtain ⟨c₂, hend, hread⟩ := of_bind_eq_ok hread
      cases hread
      obtain ⟨texts, inside, htexts, hlength, hspans'⟩ :=
        spans_of_readElements h.read h.absentAtEnd helements hend
      refine .inr ⟨texts, _, ⟨before, inside, behind, hbefore, hbehind, htexts, rfl⟩, hlength, ?_⟩
      have htaken := (hspans.trans (spans_advance hpeek (by decide))).trans hspans'
      rw [Spans, hrest, ← Utf8.bytes_append] at htaken
      simpa [Cursor.ofBytes] using htaken
  · cases hread
  · exact absurd hread (refuse_ne_ok _ _ _)

/-- **Every sequence of texts that is short enough is read.** -/
theorem parse_of_isSequence (h : r.HasDefaults a) (hsequence : IsSequence texts text)
    (hlength : texts.length ≤ r.members.length) :
    parse r.read (Utf8.bytes text) = .ok (pad a texts r.members) := by
  obtain ⟨before, inside, behind, hbefore, hbehind, htexts, rfl⟩ := hsequence
  generalize hstart : Cursor.ofBytes (Utf8.bytes (before ++ '[' :: (inside ++ ']' :: behind))) = c
  have hc : c.rest = Utf8.bytes (before ++ '[' :: (inside ++ ']' :: behind)) ++ [] := by
    rw [← hstart, List.append_nil]
    rfl
  obtain ⟨-, hpeek, hinside⟩ := Cursor.of_blanks hbefore (by decide) (by decide) hc
  obtain ⟨c₁, helements, hbracket, hc₁⟩ :
      ∃ c₁, r.readElements (depthLimit - 1) 0 r.members c.skipBlanks.advance =
        .ok (pad a texts r.members, c₁) ∧ c₁.skipBlanks.peek = some ']' ∧
          c₁.skipBlanks.advance.rest = Utf8.bytes behind ++ [] :=
    readElements_of_isTexts h.read h.absentAtEnd htexts hlength hinside
  rw [List.append_nil] at hc₁
  refine parse_of_reader ?_ hbehind hc₁
  have hdepth : ¬depthLimit ≤ 1 := by decide
  have hend : endSequence c₁ = .ok c₁.skipBlanks.advance := by
    rw [endSequence]
    simp only [hbracket]
  rw [hstart, Record.read]
  simp only [hpeek]
  rw [readSequence, if_neg hdepth, helements]
  simp only [ok_bind, hend]
  rfl

end Record

end SignIn.Json
