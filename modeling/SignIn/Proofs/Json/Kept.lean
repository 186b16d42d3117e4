import SignIn.Proofs.Json.Shapes
import SignIn.Proofs.Json.Unambiguous

/-!
# Records that keep what they do not know

Most records drop a member that they do not know. Some keep it, with any value, because somebody
will ask for it later. Then nothing in the text is passed over, and what was read can be compared
with the text in both directions.

What a kept value says is known only if it is a string. Of other values it is told what they are and
not what they contain, so two texts with different values in them are read alike. If all values are
strings, the text is a mapping with exactly the pairs that were read, and each such text is read as
these pairs, however it is spelled.

A member that the record knows can come once. This is looked at when its name is read, so it is the
same whether the name is written plainly or with escapes. Names that the record does not know can
come again, and all of them are kept in their order.

## Main definitions

* `Json.TakesTexts` — a reader that reads strings as this
* `Json.Record.KeepsTexts` — a record all of whose members are read so, whether it knows them or not
* `Json.Record.NamesOnce` — the members that the record knows come at most once

## Main results

* `Json.Record.KeepsTexts.of_parse` — what was read is a mapping with these members
* `Json.Record.KeepsTexts.parse_of_isMapping` — each mapping with these members is read
-/

namespace SignIn.Json

variable {α β : Type} {c c₁ c₂ c' d : Cursor} {depth : Nat} {s : String}

/-! ### Readers of strings -/

/-- What this reader reads as `said s` are the strings that stand for `s`, behind blanks. -/
structure TakesTexts (reader : Reader α) (said : String → α) : Prop where
  reads : ∀ {s written : String} {blanks value : List Char}, Blanks blanks → IsTextOf s value →
    written.toList = blanks ++ value → Reads reader written (said s)
  spans : ∀ {depth : Nat} {c c' : Cursor} {s : String}, reader depth c = .ok (said s, c') →
    ∃ blanks value, Blanks blanks ∧ IsTextOf s value ∧ Spans c (blanks ++ value) c'

theorem takesTexts_map_readText {said : String → α} (hsaid : Function.Injective said) :
    TakesTexts (readText.map said) said where
  reads hblanks hvalue hwritten := (reads_of_isTextOf hblanks hvalue hwritten).map said
  spans := by
    intro depth c c' s h
    obtain ⟨⟨s', c''⟩, hread, h⟩ := of_bind_eq_ok h
    obtain ⟨hs, rfl⟩ := Prod.mk.inj (Except.ok.inj h)
    obtain rfl := hsaid hs
    exact spans_of_readText hread

section Numbers

variable {negative : Bool} {significand : Nat} {exponent : Int}

theorem decimalAt_ne_text : decimalAt c negative significand exponent ≠ .ok (.text s, c') := by
  rw [decimalAt]
  split
  · simp
  · exact fail_ne_ok _ _ _

theorem scanExponent_ne_text :
    scanExponent c negative significand exponent ≠ .ok (.text s, c') := by
  rw [scanExponent]
  dsimp only
  split
  · exact fail_ne_ok _ _ _
  · split
    · exact fail_ne_ok _ _ _
    · split
      · exact decimalAt_ne_text
      · split
        · exact fail_ne_ok _ _ _
        · simp

theorem scanFraction_ne_text :
    scanFraction c negative significand exponent ≠ .ok (.text s, c') := by
  rw [scanFraction]
  dsimp only
  split
  · split
    · exact fail_ne_ok _ _ _
    · exact fail_ne_ok _ _ _
  · split
    · exact scanExponent_ne_text
    · exact scanExponent_ne_text
    · exact decimalAt_ne_text

theorem scanAfterWhole_ne_text {left : Nat} :
    scanAfterWhole c negative significand left ≠ .ok (.text s, c') := by
  rw [scanAfterWhole]
  split
  · exact scanFraction_ne_text
  · exact scanExponent_ne_text
  · exact scanExponent_ne_text
  · split_ifs
    · exact decimalAt_ne_text
    · exact decimalAt_ne_text
    · simp
    · simp

/-- A number is no string. -/
theorem scanNumber_ne_text : scanNumber negative c ≠ .ok (.text s, c') := by
  rw [scanNumber]
  split
  · exact fail_ne_ok _ _ _
  · dsimp only
    split
    · split_ifs
      · exact fail_ne_ok _ _ _
      · exact scanAfterWhole_ne_text
    · exact scanAfterWhole_ne_text
  · split_ifs
    · exact scanAfterWhole_ne_text
    · exact fail_ne_ok _ _ _

end Numbers

/-- What is found to be a string starts with a quote. -/
theorem of_peekFound_eq_text (h : peekFound c = .ok (.text s, c')) :
    c.skipBlanks.peek = some '"' ∧ scanText c.skipBlanks.advance = .ok (s, c') := by
  rw [peekFound] at h
  dsimp only at h
  split at h
  · obtain ⟨_, -, h⟩ := of_map_eq_ok h
    cases h
  · obtain ⟨_, -, h⟩ := of_map_eq_ok h
    cases h
  · obtain ⟨_, -, h⟩ := of_map_eq_ok h
    cases h
  · exact absurd h scanNumber_ne_text
  · next hquote =>
    obtain ⟨⟨s', c''⟩, hscan, h⟩ := of_map_eq_ok h
    cases h
    exact ⟨hquote, hscan⟩
  · cases h
  · cases h
  · split at h
    · exact absurd h scanNumber_ne_text
    · cases h
  · cases h

/-- A reader of any value finds the strings. -/
theorem takesTexts_readAny : TakesTexts readAny .text where
  reads := by
    intro s written blanks value hblanks hvalue hwritten depth c rest hc _
    rw [Utf8.encode_eq_bytes, hwritten] at hc
    obtain @⟨content, hspells⟩ := hvalue
    obtain ⟨hbehind, hpeek, -⟩ := Cursor.of_blanks hblanks (by decide) (by decide) hc
    obtain ⟨-, c', hscan, hc'⟩ := scanText_of_isTextOf (.intro hspells) hbehind
    refine ⟨c', ?_, hc'⟩
    simp only [readAny, peekFound, Cursor.skipBlanks_skipBlanks, hpeek, hscan]
    rfl
  spans := by
    intro depth c c' s h
    rw [readAny] at h
    split at h
    · obtain ⟨_, -, h⟩ := of_bind_eq_ok h
      cases h
    · obtain ⟨_, -, h⟩ := of_bind_eq_ok h
      cases h
    · obtain ⟨hquote, hscan⟩ := of_peekFound_eq_text h
      rw [Cursor.skipBlanks_skipBlanks] at hquote hscan
      obtain ⟨blanks, hblanks, hspans⟩ := spans_blanks_advance hquote (by decide)
      obtain ⟨written, hspells, hspans'⟩ := spans_of_scanText hscan
      refine ⟨blanks, _, hblanks, .intro hspells, ?_⟩
      simpa using hspans.trans hspans'

namespace Record

/-! ### Members -/

/-- Every member is read as `said` if it is a string, whether the record knows it or not. -/
structure KeepsTexts (r : Record α) (said : String → α) : Prop where
  others : ∃ reader, r.others = some reader ∧ TakesTexts reader said
  members : ∀ m ∈ r.members, TakesTexts m.read said

/-- The members that the record knows come at most once. -/
def NamesOnce (r : Record α) (names : List String) : Prop :=
  ∀ name, r.Knows name → names.count name ≤ 1

theorem namesOnce_nil (r : Record α) : r.NamesOnce [] := by
  intro name _
  exact Nat.zero_le 1

variable {r : Record α} {said : String → α} {seen pairs : List (String × α)} {key : String}
  {value : Option α} {fuel : Nat} {first : Bool} {form : List (String × String)}

/-- A value was kept, and its name had not been there if the record knows it. -/
theorem KeepsTexts.of_readMember (h : r.KeepsTexts said)
    (hmember : r.readMember depth seen key c = .ok (value, c')) :
    ∃ a reader c₁, value = some a ∧ TakesTexts reader said ∧
      (r.Knows key → valueOf seen key = none) ∧ skipColon c = .ok c₁ ∧
        reader depth c₁ = .ok (a, c') := by
  obtain ⟨reader, hothers, htakes⟩ := h.others
  rw [readMember, hothers] at hmember
  cases hfind : r.members.find? (·.name == key) with
  | none =>
    rw [hfind] at hmember
    simp only [pure_bind] at hmember
    obtain ⟨c₁, hcolon, hmember⟩ := of_bind_eq_ok hmember
    obtain ⟨⟨a, c₂⟩, hread, hmember⟩ := of_bind_eq_ok hmember
    cases hmember
    exact ⟨a, reader, c₁, rfl, htakes, fun hknows => absurd hknows (not_knows_of_find? hfind),
      hcolon, hread⟩
  | some m =>
    rw [hfind] at hmember
    dsimp only at hmember
    split at hmember
    · cases hmember
    · next hseen =>
      simp only [pure_bind] at hmember
      obtain ⟨c₁, hcolon, hmember⟩ := of_bind_eq_ok hmember
      obtain ⟨⟨a, c₂⟩, hread, hmember⟩ := of_bind_eq_ok hmember
      cases hmember
      exact ⟨a, m.read, c₁, rfl, h.members m (knows_of_find? hfind).1,
        fun _ => Option.not_isSome_iff_eq_none.1 hseen, hcolon, hread⟩

/-- A name, a colon and a string were read: they are a member, up to the blanks behind it. -/
theorem exists_isMember {reader : Reader α} {before : List Char} (htakes : TakesTexts reader said)
    (hbefore : Blanks before) (hquote : d.peek = some '"')
    (hkey : scanText d.advance = .ok (key, c₁)) (hcolon : skipColon c₁ = .ok c₂)
    (hread : reader depth c₂ = .ok (said s, c')) :
    ∃ lead value, (∀ trail, Blanks trail →
      Item.IsMember ⟨before ++ lead, value, trail⟩ (key, some s)) ∧ Spans d (lead ++ value) c' := by
  obtain ⟨written, hspells, hname⟩ := spans_of_scanText hkey
  obtain ⟨hpeek, rfl⟩ := of_skipColon hcolon
  obtain ⟨behind, hbehind, hmark⟩ := spans_blanks_advance hpeek (by decide)
  obtain ⟨ahead, value, hahead, hvalue, hspans⟩ := htakes.spans hread
  have hlabel : IsLabel written (before ++ '"' :: (written ++ '"' :: (behind ++ ':' :: ahead))) :=
    .intro hbefore hbehind hahead
  refine ⟨'"' :: (written ++ '"' :: (behind ++ ':' :: ahead)), value, fun trail htrail => ?_, ?_⟩
  · exact ⟨⟨written, hspells, hlabel⟩, hvalue.isValue, fun s' hs => Option.some.inj hs ▸ hvalue,
      htrail⟩
  · simpa using (spans_advance hquote (by decide)).trans (hname.trans (hmark.trans hspans))

/-- One round of the loop over the members: the mapping ends, or a member was kept. -/
theorem KeepsTexts.of_readMembers_succ (h : r.KeepsTexts said)
    (hmembers : r.readMembers depth (fuel + 1) first seen c = .ok (pairs, c')) :
    (c' = c ∧ pairs = seen.reverse) ∨
      ∃ key a d, (r.Knows key → valueOf seen key = none) ∧
        r.readMembers depth fuel false ((key, a) :: seen) d = .ok (pairs, c') ∧
          ∀ s, a = said s → ∃ comma lead value, IsComma first comma ∧
            (∀ trail, Blanks trail → Item.IsMember ⟨lead, value, trail⟩ (key, some s)) ∧
              Spans c (comma ++ (lead ++ value)) d := by
  obtain hover | ⟨comma, blanks, d, key, c₁, value, d', hcomma, hblanks, hspans, hquote, hkey,
      hmember, hmembers⟩ := Record.of_readMembers_succ hmembers
  · exact .inl hover
  · obtain ⟨a, reader, c₂, rfl, htakes, hseen, hcolon, hread⟩ := h.of_readMember hmember
    refine .inr ⟨key, a, d', hseen, hmembers, ?_⟩
    rintro s rfl
    obtain ⟨lead, value, hitem, hspans'⟩ :=
      exists_isMember htakes hblanks hquote hkey hcolon hread
    refine ⟨comma, blanks ++ lead, value, hcomma, hitem, ?_⟩
    simpa using hspans.trans hspans'

/-- What was not seen does not count. -/
theorem count_of_valueOf (h : valueOf seen key = none) : (seen.map Prod.fst).count key = 0 := by
  rw [valueOf, Option.map_eq_none_iff, List.find?_eq_none] at h
  refine List.count_eq_zero_of_not_mem fun hmem => ?_
  obtain ⟨p, hp, hname⟩ := List.mem_map.1 hmem
  exact h p hp (beq_iff_eq.2 hname)

/-- Names that the record knows are kept once, because they are refused the second time. -/
theorem KeepsTexts.namesOnce (h : r.KeepsTexts said) (hseen : r.NamesOnce (seen.map Prod.fst))
    (hmembers : r.readMembers depth fuel first seen c = .ok (pairs, c')) :
    r.NamesOnce (pairs.map Prod.fst) := by
  induction fuel generalizing first seen c with
  | zero =>
    rw [readMembers] at hmembers
    cases hmembers
  | succ fuel ih =>
    obtain ⟨-, rfl⟩ | ⟨key, a, d, hnew, hmembers, -⟩ := h.of_readMembers_succ hmembers
    · intro name hname
      rw [List.map_reverse, List.count_reverse]
      exact hseen name hname
    · refine ih (fun name hname => ?_) hmembers
      rw [List.map_cons, List.count_cons]
      split
      · next hkey =>
        obtain rfl : key = name := beq_iff_eq.1 hkey
        have hzero := count_of_valueOf (hnew hname)
        omega
      · exact hseen name hname

/-- **Members behind a member.** If all that was kept are strings, they are the members in the text
up to the bracket. -/
theorem KeepsTexts.spans_of_readMembers (h : r.KeepsTexts said)
    (hmembers : r.readMembers depth fuel false seen c = .ok (pairs, c₁))
    (hend : endMapping c₁ = .ok c') :
    ∃ new, pairs = seen.reverse ++ new ∧ ∀ form : List (String × String),
      new = form.map (fun p => (p.1, said p.2)) →
        ∃ trail items, Blanks trail ∧
          List.Forall₂ Item.IsMember items (form.map fun p => (p.1, some p.2)) ∧
            Spans c (trail ++ (Item.behind items ++ ['}'])) c' := by
  induction fuel generalizing seen c with
  | zero =>
    rw [readMembers] at hmembers
    cases hmembers
  | succ fuel ih =>
    obtain ⟨rfl, rfl⟩ | ⟨key, a, d, -, hmembers, hitem⟩ := h.of_readMembers_succ hmembers
    · refine ⟨[], (List.append_nil _).symm, fun form hform => ?_⟩
      obtain rfl := List.map_eq_nil_iff.1 hform.symm
      obtain ⟨blanks, hblanks, hspans⟩ := spans_of_finish .mapping hend
      exact ⟨blanks, [], hblanks, .nil, hspans⟩
    · obtain ⟨new, rfl, hnew⟩ := ih hmembers
      refine ⟨(key, a) :: new, by simp, fun form hform => ?_⟩
      obtain ⟨p, form, rfl, hp, hrest⟩ := List.map_eq_cons_iff.1 hform.symm
      obtain ⟨rfl, rfl⟩ := Prod.mk.inj hp
      obtain ⟨trail, items, htrail, hitems, hspans⟩ := hnew form hrest.symm
      obtain ⟨comma, lead, value, hcomma, hmember, hspans'⟩ := hitem p.2 rfl
      cases hcomma with
      | behind hblanks =>
        refine ⟨_, ⟨lead, value, trail⟩ :: items, hblanks, .cons (hmember trail htrail) hitems, ?_⟩
        simpa [Item.behind, Item.text] using hspans'.trans hspans

/-! ### Mappings -/

/-- What was read as a mapping has the members that were kept, if they are strings. -/
theorem KeepsTexts.of_readMapping {finish : List (String × α) → Except Cause β} {b : β}
    (h : r.KeepsTexts said) (hpeek : c.peek = some '{')
    (hmapping : r.readMapping finish depth c = .ok (b, c')) :
    ∃ pairs, finish pairs = .ok b ∧ r.NamesOnce (pairs.map Prod.fst) ∧
      ∀ form : List (String × String), pairs = form.map (fun p => (p.1, said p.2)) →
        ∃ text, IsMapping (form.map fun p => (p.1, some p.2)) text ∧ Spans c text c' := by
  obtain ⟨pairs, c₁, hmembers, hfinish, hend⟩ := of_readMapping_eq_ok hmapping
  have hbracket := spans_advance hpeek (by decide)
  have hnil : r.NamesOnce (([] : List (String × α)).map Prod.fst) := r.namesOnce_nil
  refine ⟨pairs, hfinish, h.namesOnce hnil hmembers, fun form hform => ?_⟩
  obtain ⟨rfl, rfl⟩ | ⟨key, a, d, -, hmembers, hitem⟩ := h.of_readMembers_succ hmembers
  · obtain rfl := List.map_eq_nil_iff.1 hform.symm
    obtain ⟨blanks, hblanks, hspans⟩ := spans_of_finish .mapping hend
    exact ⟨_, ⟨[], blanks, [], .nil, .nil, rfl, .inl ⟨rfl, hblanks⟩⟩, hbracket.trans hspans⟩
  · obtain ⟨new, rfl, hnew⟩ := h.spans_of_readMembers hmembers hend
    obtain ⟨p, form, rfl, hp, hrest⟩ := List.map_eq_cons_iff.1 hform.symm
    obtain ⟨rfl, rfl⟩ := Prod.mk.inj hp
    obtain ⟨trail, items, htrail, hitems, hspans⟩ := hnew form hrest.symm
    obtain ⟨comma, lead, value, hcomma, hmember, hspans'⟩ := hitem p.2 rfl
    cases hcomma
    refine ⟨_, ⟨[], Item.join (⟨lead, value, trail⟩ :: items), [], .nil, .nil, rfl,
      .inr ⟨List.cons_ne_nil _ _, _, .cons (hmember trail htrail) hitems, rfl⟩⟩, ?_⟩
    simpa [Item.join, Item.text] using hbracket.trans (hspans'.trans hspans)

/-- **What was read is a mapping with the members that were kept.** -/
theorem KeepsTexts.of_parse {reader : Reader β} {finish : List (String × α) → Except Cause β}
    {b : β} {bs : Bytes} (h : r.KeepsTexts said)
    (hreader : ∀ {c : Cursor} {c' : Cursor}, reader depthLimit c = .ok (b, c') →
      c.skipBlanks.peek = some '{' ∧ r.readMapping finish depthLimit c.skipBlanks = .ok (b, c'))
    (hparse : parse reader bs = .ok b) :
    ∃ pairs, finish pairs = .ok b ∧ r.NamesOnce (pairs.map Prod.fst) ∧
      ∀ form : List (String × String), pairs = form.map (fun p => (p.1, said p.2)) →
        ∃ text, IsMapping (form.map fun p => (p.1, some p.2)) text ∧ bs = Utf8.bytes text := by
  obtain ⟨c', hread, hover⟩ := of_parse_eq_ok hparse
  obtain ⟨hpeek, hmapping⟩ := hreader hread
  obtain ⟨ahead, hahead, hstart⟩ := spans_skipBlanks (Cursor.ofBytes bs)
  obtain ⟨blanks, hblanks, hrest⟩ := spans_of_over hover
  obtain ⟨pairs, hfinish, honce, hpairs⟩ := h.of_readMapping hpeek hmapping
  refine ⟨pairs, hfinish, honce, fun form hform => ?_⟩
  obtain ⟨text, ⟨before, inside, behind, hbefore, hbehind, rfl, hinside⟩, hspans⟩ :=
    hpairs form hform
  refine ⟨_, ⟨ahead ++ before, inside, behind ++ blanks, hahead.append hbefore,
    hbehind.append hblanks, rfl, hinside⟩, ?_⟩
  have htaken := hstart.trans hspans
  rw [Spans, hrest, ← Utf8.bytes_append] at htaken
  simpa [Cursor.ofBytes] using htaken

/-- Members that are strings are kept, if the record has not seen those that it knows. -/
theorem KeepsTexts.fits (h : r.KeepsTexts said) {ms : List (String × String)}
    (honce : r.NamesOnce (seen.map Prod.fst ++ form.map Prod.fst))
    (hms : List.Forall₂ IsMemberText ms (form.map fun p => (p.1, some p.2))) :
    Fits r seen ms (form.map fun p => (p.1, said p.2)) := by
  induction form generalizing seen ms with
  | nil =>
    cases hms
    exact .nil seen
  | cons p form ih =>
    rw [List.map_cons] at hms
    cases hms with
    | @cons m _ ms _ hm hms =>
      obtain ⟨name, written⟩ := m
      obtain ⟨rfl, blanks, value, hblanks, hwritten, -, htext⟩ := hm
      obtain ⟨reader, hothers, htakes⟩ := h.others
      have hvalue := htext p.2 rfl
      have hrest : r.NamesOnce (((p.1, said p.2) :: seen).map Prod.fst ++ form.map Prod.fst) := by
        intro name hname
        have hcount := honce name hname
        simp only [List.map_cons, List.count_append, List.count_cons] at hcount ⊢
        omega
      cases hfind : r.members.find? (·.name == p.1) with
      | none => exact .other hothers hfind (htakes.reads hblanks hvalue hwritten) (ih hrest hms)
      | some m =>
        obtain ⟨hm, hname⟩ := knows_of_find? hfind
        refine .known hfind ?_ ((h.members m hm).reads hblanks hvalue hwritten) (ih hrest hms)
        have hcount := honce p.1 (List.mem_map.2 ⟨m, hm, hname⟩)
        simp only [List.map_cons, List.count_append, List.count_cons_self] at hcount
        have hnone : p.1 ∉ seen.map Prod.fst := List.count_eq_zero.1 (by omega)
        rw [valueOf, Option.map_eq_none_iff, List.find?_eq_none]
        rintro q hq hsame
        exact hnone (List.mem_map.2 ⟨q, hq, beq_iff_eq.1 hsame⟩)

/-- **Each mapping with these members is read.** -/
theorem KeepsTexts.parse_of_isMapping {reader : Reader β}
    {finish : List (String × α) → Except Cause β} {b : β} {text : List Char}
    (h : r.KeepsTexts said) (hreader : ∀ c : Cursor, c.skipBlanks.peek = some '{' →
      reader depthLimit c = r.readMapping finish depthLimit c.skipBlanks)
    (honce : r.NamesOnce (form.map Prod.fst))
    (hfinish : finish (form.map fun p => (p.1, said p.2)) = .ok b)
    (htext : IsMapping (form.map fun p => (p.1, some p.2)) text) :
    parse reader (Utf8.bytes text) = .ok b := by
  obtain ⟨before, inside, behind, ms, hbefore, hbehind, rfl, hms, hmembers⟩ :=
    members_of_isMapping htext
  have hfits : Fits r [] ms (form.map fun p => (p.1, said p.2)) := h.fits honce hms
  exact parse_of_members hreader hfits hfinish hmembers hbefore hbehind

end Record

end SignIn.Json
