import SignIn.Json.Record
import SignIn.Proofs.Json.Skip

/-!
# Records are read

A mapping is read member by member, and what the induction over the members has to know of a value
is only that its reader takes exactly the text of the value. That is `Json.Reads`. A member that the
record does not know has to be passed over, which is `Json.Passes`.

How a mapping is spelled makes no difference: names and strings can be written with any escapes, and
there can be blanks anywhere. `Json.Members` says which members a text has. A mapping that was
written, without blanks and with no more escapes than it needs, is one such text.

## Main definitions

* `Json.Reads` — what reading takes of a text
* `Json.Members` — the members of a mapping as they are spelled
* `Json.Fits` — how the members of a mapping are read by a record

## Main results

* `Json.reads_of_isTextOf`, `Json.reads_writeInteger` — scalars are read
* `Json.readMembers_of_fits` — and the members of a mapping
* `Json.parse_writeMapping` — a written mapping is read as the record of its values
-/

namespace SignIn.Json

open Digits

variable {α β : Type}

/-- The reader takes exactly the text `written` and reads it as `a`. -/
def Reads (reader : Reader α) (written : String) (a : α) : Prop :=
  ∀ depth (c : Cursor) rest, c.rest = Utf8.encode written ++ rest → Delimited rest →
    ∃ c', reader depth c = .ok (a, c') ∧ c'.rest = rest

/-! ### Scalars -/

theorem Reads.map {reader : Reader α} {written : String} {a : α} (h : Reads reader written a)
    (f : α → β) : Reads (reader.map f) written (f a) := by
  intro depth c rest hc hrest
  obtain ⟨c', hread, hc'⟩ := h depth c rest hc hrest
  refine ⟨c', ?_, hc'⟩
  rw [Reader.map, hread]
  rfl

theorem Reads.attempt {reader : Reader α} {written : String} {a : α} (h : Reads reader written a) :
    Reads (attempt reader) written (some a) := by
  intro depth c rest hc hrest
  obtain ⟨c', hread, hc'⟩ := h depth c rest hc hrest
  refine ⟨c', ?_, hc'⟩
  rw [Json.attempt, hread]

variable {c : Cursor} {rest : Bytes} {blanks value text : List Char} {s written : String}

/-- A string comes next, behind its quote. -/
theorem scanText_of_isTextOf (hvalue : IsTextOf s value) (h : c.rest = Utf8.bytes value ++ rest) :
    c.peek = some '"' ∧ ∃ c', scanText c.advance = .ok (s, c') ∧ c'.rest = rest := by
  obtain ⟨hspells⟩ := hvalue
  obtain ⟨hpeek, hadvance⟩ := Cursor.of_char (by decide) h
  rw [Utf8.bytes_append, List.append_assoc, Utf8.bytes_cons_of_lt (by decide)] at hadvance
  exact ⟨hpeek, scanText_spelled hspells hadvance⟩

/-- A string comes next, behind blanks. -/
theorem readText_of_isTextOf (hblanks : Blanks blanks) (hvalue : IsTextOf s value) (depth : Nat)
    (h : c.rest = Utf8.bytes (blanks ++ value) ++ rest) :
    ∃ c', readText depth c = .ok (s, c') ∧ c'.rest = rest := by
  obtain @⟨content, hspells⟩ := hvalue
  obtain ⟨hbehind, -, -⟩ := Cursor.of_blanks hblanks (by decide) (by decide) h
  obtain ⟨hpeek, c', hscan, hc'⟩ := scanText_of_isTextOf (.intro hspells) hbehind
  refine ⟨c', ?_, hc'⟩
  simp only [readText, hpeek, hscan]

/-- A string is read, however it is spelled. -/
theorem reads_of_isTextOf (hblanks : Blanks blanks) (hvalue : IsTextOf s value)
    (hwritten : written.toList = blanks ++ value) : Reads readText written s := by
  intro depth c rest hc _
  rw [Utf8.encode_eq_bytes, hwritten] at hc
  exact readText_of_isTextOf hblanks hvalue depth hc

theorem reads_writeText (s : String) : Reads readText (writeText s) s :=
  reads_of_isTextOf .nil (isTextOf_writeText s) (List.nil_append _).symm

/-- A written string comes next. -/
theorem scanText_writeText (h : c.rest = Utf8.encode (writeText s) ++ rest) :
    c.skipBlanks = c ∧ c.peek = some '"' ∧
      ∃ c', scanText c.advance = .ok (s, c') ∧ c'.rest = rest := by
  rw [Utf8.encode_eq_bytes] at h
  obtain ⟨hpeek, hscan⟩ := scanText_of_isTextOf (isTextOf_writeText s) h
  obtain ⟨b, tail, hb⟩ := List.exists_cons_of_ne_nil (Cursor.rest_ne_nil_of_peek hpeek)
  refine ⟨Cursor.skipBlanks_of_cons hb ?_, hpeek, hscan⟩
  rw [Cursor.peek_of_cons hb, Option.some.injEq, Utf8.ofNat_toNat_eq_iff] at hpeek
  obtain rfl : b = 0x22 := UInt8.toNat_inj.1 hpeek
  decide

theorem toList_writeInteger (n : Nat) : (writeInteger n).toList = Nat.toDigits 10 n := by
  have hdigits : writeInteger n = String.ofList (Nat.toDigits 10 n) := rfl
  rw [hdigits, String.toList_ofList]

/-- A whole number was scanned, and it is in range. -/
theorem readInteger_of_scanNumber {c' : Cursor} {d : Char} {n : Int} (depth : Nat)
    (hpeek : c.skipBlanks.peek = some d) (hd : d.isDigit)
    (hscan : scanNumber false c.skipBlanks = .ok (.integer n, c')) (hn : n < 1 <<< 63) :
    readInteger depth c = .ok (n, c') := by
  have hminus : d ≠ '-' := by
    rintro rfl
    exact absurd hd (by decide)
  rw [readInteger]
  simp only [hpeek]
  rw [if_pos hd, scanInteger, hscan]
  simp only [ok_bind, if_pos hn]
  rfl

theorem reads_writeInteger {n : Nat} (hn : (n : Int) < 1 <<< 63) (hlimit : n ≤ significandLimit) :
    Reads readInteger (writeInteger n) n := by
  intro depth c rest hc hrest
  rw [Utf8.encode_eq_bytes, toList_writeInteger] at hc
  obtain ⟨d, ds, hdigits⟩ := List.exists_cons_of_ne_nil (Nat.toDigits_ne_nil (b := 10) (n := n))
  have hd : d.isDigit = true := isDigit_toDigits n d (hdigits ▸ List.mem_cons_self)
  have hhead := isHead_of_isDigit hd
  rw [hdigits] at hc
  obtain ⟨hbehind, hpeek, -⟩ := Cursor.of_blanks .nil hhead.ascii hhead.noBlank hc
  rw [← hdigits] at hbehind
  obtain ⟨c', hscan, hc'⟩ := scanNumber_toDigits hbehind hrest hlimit
  exact ⟨c', readInteger_of_scanNumber depth hpeek hd hscan hn, hc'⟩

theorem passes_writeText (s : String) : Passes (writeText s) := by
  obtain ⟨content, hspells, hwritten⟩ :
      ∃ content, Spells content s.toList ∧ (writeText s).toList = '"' :: (content ++ ['"']) := by
    obtain h := isTextOf_writeText s
    generalize (writeText s).toList = value at h
    obtain ⟨hspells⟩ := h
    exact ⟨_, hspells, rfl⟩
  exact passes_of_isValue .nil (.atom (.text hspells.isContent)) hwritten

theorem passes_writeInteger (n : Nat) : Passes (writeInteger n) := by
  have hnumber : IsNumber (Nat.toDigits 10 n) := by
    have hunsigned := IsUnsigned.intro (isWhole_toDigits n) .none .none
    rw [List.append_nil, List.append_nil] at hunsigned
    exact .positive hunsigned
  exact passes_of_isValue .nil (.atom (.number hnumber)) (toList_writeInteger n)

/-! ### The spelling of a mapping -/

/-- What stands in front of a member: nothing if it is the first, and otherwise a comma. -/
inductive IsComma : (first : Bool) → List Char → Prop
  | first : IsComma true []
  | behind {blanks : List Char} (h : Blanks blanks) : IsComma false (blanks ++ [','])

/-- The text holds these members and ends in front of the closing bracket. A member is given by its
name and by what stands behind its colon. -/
inductive Members : (first : Bool) → List (String × String) → List Char → Prop
  | nil {first : Bool} {blanks : List Char} (h : Blanks blanks) : Members first [] blanks
  | cons {first : Bool} {name value : String} {ms : List (String × String)}
      {comma before written behind text : List Char} (hcomma : IsComma first comma)
      (hbefore : Blanks before) (hname : Spells written name.toList) (hbehind : Blanks behind)
      (h : Members false ms text) :
      Members first ((name, value) :: ms) (comma ++ (before ++ '"' :: (written ++ '"' ::
        (behind ++ ':' :: (value.toList ++ text)))))

/-- Members as they are written, with a comma in front of each but the first. -/
def writtenMembers : (first : Bool) → List (String × String) → List Char
  | _, [] => []
  | first, (name, value) :: ms =>
    (if first then [] else [',']) ++ ('"' :: (name.toList.flatMap escapeChar ++ '"' :: ':' ::
      (value.toList ++ writtenMembers false ms)))

theorem toList_writeMapping (ms : List (String × String)) :
    (writeMapping ms).toList = '{' :: (writtenMembers true ms ++ ['}']) := by
  have hmembers : (String.intercalate "," (ms.map fun m => writeText m.1 ++ ":" ++ m.2)).toList =
      writtenMembers true ms := by
    induction ms with
    | nil => rfl
    | cons m ms ih =>
      obtain ⟨name, value⟩ := m
      cases ms with
      | nil => simp [writtenMembers, writeText]
      | cons n ms =>
        rw [List.map_cons] at ih
        rw [List.map_cons, List.map_cons, String.intercalate_cons_cons, String.toList_append,
          String.toList_append, ih]
        simp [writtenMembers, writeText]
  rw [writeMapping, String.toList_append, String.toList_append, hmembers]
  rfl

theorem members_written (first : Bool) (ms : List (String × String)) :
    Members first ms (writtenMembers first ms) := by
  induction ms generalizing first with
  | nil => exact .nil .nil
  | cons m ms ih =>
    obtain ⟨name, value⟩ := m
    cases first with
    | true => exact .cons .first .nil (spells_flatMap name.toList) .nil (ih false)
    | false => exact .cons (.behind .nil) .nil (spells_flatMap name.toList) .nil (ih false)

/-- A member, given by its name and by what stands behind its colon, is a member of this name with
this string for its value, or with any value. -/
def IsMemberText (m : String × String) (n : String × Option String) : Prop :=
  m.1 = n.1 ∧ ∃ blanks value, Blanks blanks ∧ m.2.toList = blanks ++ value ∧ IsValue value ∧
    ∀ s, n.2 = some s → IsTextOf s value

/-- Items are taken apart behind the colon of each, and not at the commas. -/
theorem members_cons {i : Item} {n : String × Option String} (hmember : i.IsMember n)
    {first : Bool} {comma : List Char} (hcomma : IsComma first comma) :
    ∃ m : String × String, IsMemberText m n ∧ ∀ {ms : List (String × String)} {text : List Char},
      Members false ms (i.trail ++ text) → Members first (m :: ms) (comma ++ (i.text ++ text)) := by
  obtain ⟨⟨written, hname, hlabel⟩, hvalue, htext, -⟩ := hmember
  obtain ⟨lead, value, trail⟩ := i
  obtain @⟨before, behind, ahead, hbefore, hbehind, hahead⟩ := hlabel
  refine ⟨(n.1, String.ofList (ahead ++ value)), ⟨rfl, ahead, value, hahead,
    String.toList_ofList, hvalue, htext⟩, ?_⟩
  intro ms text hmembers
  have hcons := @Members.cons _ _ (String.ofList (ahead ++ value)) _ _ _ _ _ _ hcomma hbefore hname
    hbehind hmembers
  rw [String.toList_ofList] at hcons
  simpa [Item.text] using hcons

theorem members_of_items {items : List Item} {ns : List (String × Option String)}
    (h : List.Forall₂ Item.IsMember items ns) {trail : List Char} (htrail : Blanks trail) :
    ∃ ms, List.Forall₂ IsMemberText ms ns ∧ Members false ms (trail ++ Item.behind items) := by
  induction h generalizing trail with
  | nil => exact ⟨[], .nil, .nil (by simpa [Item.behind] using htrail)⟩
  | @cons i n items ns hmember _ ih =>
    obtain ⟨m, hm, hcons⟩ := members_cons hmember (.behind htrail)
    obtain ⟨ms, hms, hmembers⟩ := ih hmember.trail
    refine ⟨m :: ms, .cons hm hms, ?_⟩
    have htext := hcons hmembers
    simpa [Item.behind] using htext

/-- A mapping of the grammar, taken apart for a reader. -/
theorem members_of_isMapping {ns : List (String × Option String)} (h : IsMapping ns text) :
    ∃ before inside behind ms, Blanks before ∧ Blanks behind ∧
      text = before ++ '{' :: (inside ++ '}' :: behind) ∧ List.Forall₂ IsMemberText ms ns ∧
        Members true ms inside := by
  obtain ⟨before, inside, behind, hbefore, hbehind, rfl, hinside⟩ := h
  obtain ⟨rfl, hblanks⟩ | ⟨hne, items, hitems, rfl⟩ := hinside
  · exact ⟨before, inside, behind, [], hbefore, hbehind, rfl, .nil, .nil hblanks⟩
  · cases hitems with
    | nil => exact absurd rfl hne
    | @cons i n items ns hmember hitems =>
      obtain ⟨m, hm, hcons⟩ := members_cons hmember .first
      obtain ⟨ms, hms, hmembers⟩ := members_of_items hitems hmember.trail
      exact ⟨before, _, behind, m :: ms, hbefore, hbehind, rfl, .cons hm hms, hcons hmembers⟩

variable {ms : List (String × String)} {key : String} {first : Bool} {tail : List Char}

/-- What stands behind a value of a mapping ends it. -/
theorem delimited_members (h : Members false ms text) :
    Delimited (Utf8.bytes (text ++ '}' :: tail) ++ rest) := by
  cases h with
  | nil hblanks => exact delimited_of_blanks hblanks (by decide)
  | cons hcomma hbefore hname hbehind h =>
    cases hcomma with
    | behind hblanks =>
      rw [List.append_assoc, List.append_assoc]
      exact delimited_of_blanks hblanks (by decide)

theorem length_le_members (h : Members first ms text) : ms.length ≤ (Utf8.bytes text).length := by
  induction h with
  | nil => exact Nat.zero_le _
  | cons hcomma hbefore hname hbehind h ih =>
    simp only [Utf8.bytes_append, Utf8.bytes_cons, Utf8.utf8EncodeChar_of_lt
      (show '"'.toNat < 0x80 by decide), List.length_append, List.length_cons]
    omega

/-- The mapping ends. -/
theorem nextKey_of_brace (first : Bool) (hblanks : Blanks blanks)
    (h : c.rest = Utf8.bytes (blanks ++ '}' :: tail) ++ rest) : nextKey first c = .ok none := by
  obtain ⟨-, hpeek, -⟩ := Cursor.of_blanks hblanks (by decide) (by decide) h
  rw [nextKey]
  simp only [hpeek]
  rfl

/-- A key comes next, behind a comma unless it is the first. -/
theorem nextKey_of_spells {comma before content : List Char} (hcomma : IsComma first comma)
    (hbefore : Blanks before) (hname : Spells content key.toList)
    (h : c.rest = Utf8.bytes (comma ++ (before ++ '"' :: (content ++ '"' :: text))) ++ rest) :
    ∃ c', nextKey first c = .ok (some (key, c')) ∧ c'.rest = Utf8.bytes text ++ rest := by
  have hscan : ∀ {c : Cursor},
      c.rest = Utf8.bytes (before ++ '"' :: (content ++ '"' :: text)) ++ rest →
        c.skipBlanks.peek = some '"' ∧ ∃ c', scanText c.skipBlanks.advance = .ok (key, c') ∧
          c'.rest = Utf8.bytes text ++ rest := by
    intro c h
    obtain ⟨-, hpeek, hinside⟩ := Cursor.of_blanks hbefore (by decide) (by decide) h
    rw [Utf8.bytes_append, List.append_assoc, Utf8.bytes_cons_of_lt (by decide)] at hinside
    exact ⟨hpeek, scanText_spelled hname hinside⟩
  cases hcomma with
  | first =>
    obtain ⟨hpeek, c', hscan, hc'⟩ := hscan h
    refine ⟨c', ?_, hc'⟩
    rw [nextKey]
    simp only [hpeek, hscan]
    rfl
  | behind hblanks =>
    rw [List.append_assoc] at h
    obtain ⟨-, hpeek, hadvance⟩ := Cursor.of_blanks hblanks (by decide) (by decide) h
    obtain ⟨hquote, c', hscan, hc'⟩ := hscan hadvance
    refine ⟨c', ?_, hc'⟩
    rw [nextKey]
    simp only [hpeek, hquote, hscan]
    rfl

theorem skipColon_of_colon (hblanks : Blanks blanks)
    (h : c.rest = Utf8.bytes (blanks ++ ':' :: text) ++ rest) :
    ∃ c', skipColon c = .ok c' ∧ c'.rest = Utf8.bytes text ++ rest := by
  obtain ⟨-, hpeek, hadvance⟩ := Cursor.of_blanks hblanks (by decide) (by decide) h
  refine ⟨c.skipBlanks.advance, ?_, hadvance⟩
  rw [skipColon]
  simp only [hpeek]

/-! ### Members -/

/-- How a record reads the members of a written mapping: a member that it knows by the member's
reader, and one that it does not know by the reader of all others, or not at all. `seen` holds what
was read already. -/
inductive Fits (r : Record α) : (seen : List (String × α)) → List (String × String) →
    (pairs : List (String × α)) → Prop
  | nil (seen : List (String × α)) : Fits r seen [] []
  | known {seen pairs : List (String × α)} {ms : List (String × String)} {name value : String}
      {m : Member α} {a : α} (hfind : r.members.find? (·.name == name) = some m)
      (hseen : Record.valueOf seen name = none) (hread : Reads m.read value a)
      (h : Fits r ((name, a) :: seen) ms pairs) :
      Fits r seen ((name, value) :: ms) ((name, a) :: pairs)
  | other {seen pairs : List (String × α)} {ms : List (String × String)} {name value : String}
      {reader : Reader α} {a : α} (hothers : r.others = some reader)
      (hfind : r.members.find? (·.name == name) = none) (hread : Reads reader value a)
      (h : Fits r ((name, a) :: seen) ms pairs) :
      Fits r seen ((name, value) :: ms) ((name, a) :: pairs)
  | unknown {seen pairs : List (String × α)} {ms : List (String × String)} {name value : String}
      (hothers : r.others = none) (hfind : r.members.find? (·.name == name) = none)
      (hpass : Passes value) (h : Fits r seen ms pairs) : Fits r seen ((name, value) :: ms) pairs

variable {r : Record α} {seen pairs : List (String × α)}

theorem readMember_of_known {m : Member α} {a : α} {c₁ c₂ : Cursor} {depth : Nat}
    (hfind : r.members.find? (·.name == key) = some m) (hseen : Record.valueOf seen key = none)
    (hcolon : skipColon c = .ok c₁) (hread : m.read depth c₁ = .ok (a, c₂)) :
    r.readMember depth seen key c = .ok (some a, c₂) := by
  rw [Record.readMember, hfind]
  simp only [hseen, Option.isSome_none, Bool.false_eq_true, if_false, pure_bind, hcolon, ok_bind,
    hread]
  rfl

theorem readMember_of_other {reader : Reader α} {a : α} {c₁ c₂ : Cursor} {depth : Nat}
    (seen : List (String × α)) (hothers : r.others = some reader)
    (hfind : r.members.find? (·.name == key) = none) (hcolon : skipColon c = .ok c₁)
    (hread : reader depth c₁ = .ok (a, c₂)) :
    r.readMember depth seen key c = .ok (some a, c₂) := by
  rw [Record.readMember, hfind, hothers]
  simp only [pure_bind, hcolon, ok_bind, hread]
  rfl

theorem readMember_of_unknown {c₁ c₂ : Cursor} {depth : Nat} (seen : List (String × α))
    (hothers : r.others = none) (hfind : r.members.find? (·.name == key) = none)
    (hcolon : skipColon c = .ok c₁) (hskip : skipAny c₁ = .ok c₂) :
    r.readMember depth seen key c = .ok (none, c₂) := by
  rw [Record.readMember, hfind, hothers]
  simp only [pure_bind, hcolon, ok_bind, hskip]
  rfl

/-- One round of the loop takes a key and the value of its member. -/
theorem readMembers_of_member {first : Bool} {c₁ c₂ : Cursor} {value : Option α} {depth : Nat}
    (fuel : Nat) (hnext : nextKey first c = .ok (some (key, c₁)))
    (hmember : r.readMember depth seen key c₁ = .ok (value, c₂)) :
    r.readMembers depth (fuel + 1) first seen c =
      r.readMembers depth fuel false ((value.map (key, ·)).toList ++ seen) c₂ := by
  rw [Record.readMembers, hnext]
  simp only [ok_bind, hmember]

/-- The members of a mapping are read up to its bracket. -/
theorem readMembers_of_fits (hfits : Fits r seen ms pairs) (depth : Nat) (fuel : Nat)
    (hfuel : ms.length < fuel) (hmembers : Members first ms text)
    (h : c.rest = Utf8.bytes (text ++ '}' :: tail) ++ rest) :
    ∃ blanks c', r.readMembers depth fuel first seen c = .ok (seen.reverse ++ pairs, c') ∧
      Blanks blanks ∧ c'.rest = Utf8.bytes (blanks ++ '}' :: tail) ++ rest := by
  -- Each round of the loop takes the comma, the key and the colon of one member, and then its value.
  have hround : ∀ {first : Bool} {name value : String} {ms : List (String × String)}
      {text : List Char} {c : Cursor}, Members first ((name, value) :: ms) text →
        c.rest = Utf8.bytes (text ++ '}' :: tail) ++ rest →
          ∃ behind c₁ c₂, nextKey first c = .ok (some (name, c₁)) ∧ skipColon c₁ = .ok c₂ ∧
            Members false ms behind ∧
              c₂.rest = Utf8.encode value ++ (Utf8.bytes (behind ++ '}' :: tail) ++ rest) := by
    intro first name value ms text c hmembers h
    cases hmembers with
    | @cons _ _ _ _ comma before written behind text hcomma hbefore hname hbehind hmembers =>
      have htext : c.rest = Utf8.bytes (comma ++ (before ++ '"' :: (written ++ '"' ::
          (behind ++ ':' :: (value.toList ++ (text ++ '}' :: tail)))))) ++ rest := by
        simpa using h
      obtain ⟨c₁, hnext, hc₁⟩ := nextKey_of_spells hcomma hbefore hname htext
      obtain ⟨c₂, hcolon, hc₂⟩ := skipColon_of_colon hbehind hc₁
      refine ⟨text, c₁, c₂, hnext, hcolon, hmembers, ?_⟩
      rw [hc₂, Utf8.encode_eq_bytes, Utf8.bytes_append, List.append_assoc]
  induction hfits generalizing first fuel c text with
  | nil seen =>
    obtain ⟨fuel, rfl⟩ := Nat.exists_eq_succ_of_ne_zero (Nat.ne_zero_of_lt hfuel)
    cases hmembers with
    | nil hblanks =>
      refine ⟨_, c, ?_, hblanks, h⟩
      rw [Record.readMembers, nextKey_of_brace first hblanks h, List.append_nil]
      rfl
  | @known seen pairs ms name value m a hfind hseen hread _ ih =>
    obtain ⟨fuel, rfl⟩ := Nat.exists_eq_succ_of_ne_zero (Nat.ne_zero_of_lt hfuel)
    obtain ⟨behind, c₁, c₂, hnext, hcolon, hmembers, hc₂⟩ := hround hmembers h
    obtain ⟨c₃, hvalue, hc₃⟩ := hread depth c₂ _ hc₂ (delimited_members hmembers)
    obtain ⟨blanks, c', hrest, hc'⟩ := ih fuel (Nat.lt_of_succ_lt_succ hfuel) hmembers hc₃
    refine ⟨blanks, c', ?_, hc'⟩
    rw [List.reverse_cons, List.append_assoc, List.singleton_append] at hrest
    rw [readMembers_of_member fuel hnext (readMember_of_known hfind hseen hcolon hvalue)]
    exact hrest
  | @other seen pairs ms name value reader a hothers hfind hread _ ih =>
    obtain ⟨fuel, rfl⟩ := Nat.exists_eq_succ_of_ne_zero (Nat.ne_zero_of_lt hfuel)
    obtain ⟨behind, c₁, c₂, hnext, hcolon, hmembers, hc₂⟩ := hround hmembers h
    obtain ⟨c₃, hvalue, hc₃⟩ := hread depth c₂ _ hc₂ (delimited_members hmembers)
    obtain ⟨blanks, c', hrest, hc'⟩ := ih fuel (Nat.lt_of_succ_lt_succ hfuel) hmembers hc₃
    refine ⟨blanks, c', ?_, hc'⟩
    rw [List.reverse_cons, List.append_assoc, List.singleton_append] at hrest
    rw [readMembers_of_member fuel hnext (readMember_of_other seen hothers hfind hcolon hvalue)]
    exact hrest
  | @unknown seen pairs ms name value hothers hfind hpass _ ih =>
    obtain ⟨fuel, rfl⟩ := Nat.exists_eq_succ_of_ne_zero (Nat.ne_zero_of_lt hfuel)
    obtain ⟨behind, c₁, c₂, hnext, hcolon, hmembers, hc₂⟩ := hround hmembers h
    obtain ⟨c₃, hskip, hc₃⟩ := hpass c₂ _ hc₂ (delimited_members hmembers)
    obtain ⟨blanks, c', hrest, hc'⟩ := ih fuel (Nat.lt_of_succ_lt_succ hfuel) hmembers hc₃
    refine ⟨blanks, c', ?_, hc'⟩
    rw [readMembers_of_member fuel hnext (readMember_of_unknown seen hothers hfind hcolon hskip)]
    exact hrest

theorem endMapping_of_brace (hblanks : Blanks blanks)
    (h : c.rest = Utf8.bytes (blanks ++ '}' :: tail) ++ rest) :
    ∃ c', endMapping c = .ok c' ∧ c'.rest = Utf8.bytes tail ++ rest := by
  obtain ⟨-, hpeek, hadvance⟩ := Cursor.of_blanks hblanks (by decide) (by decide) h
  refine ⟨c.skipBlanks.advance, ?_, hadvance⟩
  rw [endMapping]
  simp only [hpeek]

/-! ### Mappings -/

/-- A mapping is read from its bracket on, and something is made of its pairs. -/
theorem readMapping_of_members {finish : List (String × α) → Except Cause β} {b : β} (depth : Nat)
    (hdepth : 1 < depth) (hfits : Fits r [] ms pairs) (hfinish : finish pairs = .ok b)
    (hmembers : Members true ms text)
    (h : c.rest = Utf8.bytes ('{' :: (text ++ '}' :: tail)) ++ rest) :
    ∃ c', r.readMapping finish depth c = .ok (b, c') ∧ c'.rest = Utf8.bytes tail ++ rest := by
  obtain ⟨-, hinside⟩ := Cursor.of_char (by decide) h
  have hfuel : ms.length < c.advance.rest.length + 1 := by
    have := length_le_members hmembers
    rw [hinside, Utf8.bytes_append, List.length_append, List.length_append]
    omega
  obtain ⟨blanks, c₁, hread, hblanks, hc₁⟩ :=
    readMembers_of_fits hfits (depth - 1) _ hfuel hmembers hinside
  obtain ⟨c₂, hend, hc₂⟩ := endMapping_of_brace hblanks hc₁
  refine ⟨c₂, ?_, hc₂⟩
  rw [Record.readMapping, if_neg (Nat.not_le.2 hdepth)]
  simp only [hread, ok_bind, List.reverse_nil, List.nil_append, hfinish, Record.place, hend]
  rfl

/-- What is made of a mapping is made of the pairs behind its bracket, and the closing one comes
behind them. -/
theorem of_readMapping_eq_ok {finish : List (String × α) → Except Cause β} {b : β} {depth : Nat}
    {c' : Cursor} (h : r.readMapping finish depth c = .ok (b, c')) :
    ∃ pairs c₁, r.readMembers (depth - 1) (c.advance.rest.length + 1) true [] c.advance =
      .ok (pairs, c₁) ∧ finish pairs = .ok b ∧ endMapping c₁ = .ok c' := by
  rw [Record.readMapping] at h
  split at h
  · cases h
  · obtain ⟨⟨pairs, c₁⟩, hmembers, h⟩ := of_bind_eq_ok h
    obtain ⟨b', hplace, h⟩ := of_bind_eq_ok h
    obtain ⟨c₂, hend, h⟩ := of_bind_eq_ok h
    obtain ⟨rfl, rfl⟩ := Prod.mk.inj (Except.ok.inj h)
    cases hfinish : finish pairs with
    | error cause =>
      rw [hfinish] at hplace
      cases hplace
    | ok b'' =>
      rw [hfinish] at hplace
      obtain rfl : b'' = b' := Except.ok.inj hplace
      exact ⟨pairs, c₁, hmembers, hfinish, hend⟩

/-- A text is read if its reader takes all of it but blanks. -/
theorem parse_of_reader {reader : Reader β} {bs : Bytes} {b : β} {c' : Cursor}
    (h : reader depthLimit (Cursor.ofBytes bs) = .ok (b, c')) (hblanks : Blanks blanks)
    (hc' : c'.rest = Utf8.bytes blanks) : parse reader bs = .ok b := by
  have hover : c'.skipBlanks.peek = none := by
    refine Cursor.peek_of_nil (Cursor.rest_skipBlanks hblanks nofun ?_)
    rw [hc', List.append_nil]
  rw [parse, h]
  simp only [ok_bind, hover]
  rfl

/-- What a text is read as was read by its reader, and only blanks are left. -/
theorem of_parse_eq_ok {reader : Reader β} {bs : Bytes} {b : β} (h : parse reader bs = .ok b) :
    ∃ c', reader depthLimit (Cursor.ofBytes bs) = .ok (b, c') ∧ c'.skipBlanks.peek = none := by
  obtain ⟨⟨b', c'⟩, hread, h⟩ := of_bind_eq_ok h
  dsimp only at h
  split at h
  · next hover =>
    obtain rfl := Except.ok.inj h
    exact ⟨c', hread, hover⟩
  · cases h

/-- A mapping is read by every reader that takes its bracket for the start of this record. -/
theorem parse_of_members {reader : Reader β} {finish : List (String × α) → Except Cause β} {b : β}
    {before behind : List Char} (hreader : ∀ c : Cursor, c.skipBlanks.peek = some '{' →
      reader depthLimit c = r.readMapping finish depthLimit c.skipBlanks)
    (hfits : Fits r [] ms pairs) (hfinish : finish pairs = .ok b) (hmembers : Members true ms text)
    (hbefore : Blanks before) (hbehind : Blanks behind) :
    parse reader (Utf8.bytes (before ++ '{' :: (text ++ '}' :: behind))) = .ok b := by
  let start := Cursor.ofBytes (Utf8.bytes (before ++ '{' :: (text ++ '}' :: behind)))
  have hstart : start.rest = Utf8.bytes (before ++ '{' :: (text ++ '}' :: behind)) ++ [] :=
    (List.append_nil _).symm
  obtain ⟨hrest, hpeek, -⟩ := Cursor.of_blanks hbefore (by decide) (by decide) hstart
  obtain ⟨c', hmapping, hc'⟩ :=
    readMapping_of_members depthLimit (by decide) hfits hfinish hmembers hrest
  rw [List.append_nil] at hc'
  exact parse_of_reader ((hreader start hpeek).trans hmapping) hbehind hc'

/-- A mapping is read as the record of its values. -/
theorem parse_record_of_members {values : List α} {before behind : List Char}
    (hfits : Fits r [] ms pairs) (hvalues : r.collect pairs = .ok values)
    (hmembers : Members true ms text) (hbefore : Blanks before) (hbehind : Blanks behind) :
    parse r.read (Utf8.bytes (before ++ '{' :: (text ++ '}' :: behind))) = .ok values := by
  refine parse_of_members (fun c hpeek => ?_) hfits hvalues hmembers hbefore hbehind
  rw [Record.read]
  simp only [hpeek]

/-- A written mapping is read by every reader that takes its bracket for the start of this
record. -/
theorem parse_of_readMapping {reader : Reader β} {finish : List (String × α) → Except Cause β}
    {b : β} (hreader : ∀ c : Cursor, c.skipBlanks.peek = some '{' →
      reader depthLimit c = r.readMapping finish depthLimit c.skipBlanks)
    (hfits : Fits r [] ms pairs) (hfinish : finish pairs = .ok b) :
    parse reader (Utf8.encode (writeMapping ms)) = .ok b := by
  rw [Utf8.encode_eq_bytes, toList_writeMapping]
  exact parse_of_members hreader hfits hfinish (members_written true ms) .nil .nil

/-- A written mapping is read as the record of its values. -/
theorem parse_writeMapping {values : List α} (hfits : Fits r [] ms pairs)
    (hvalues : r.collect pairs = .ok values) :
    parse r.read (Utf8.encode (writeMapping ms)) = .ok values := by
  rw [Utf8.encode_eq_bytes, toList_writeMapping]
  exact parse_record_of_members hfits hvalues (members_written true ms) .nil .nil

end SignIn.Json
