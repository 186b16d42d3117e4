import Mathlib.Data.List.Forall2
import SignIn.Json.Walk

/-!
# The grammar of JSON

Here it is said without a reader which texts are JSON. Everything is a predicate of a list of
characters, one for each rule of the grammar.

A string between its quotes need not stand for a text. A long escape writes a unit of UTF-16, and a
surrogate without its partner is no character. The grammar lets such a string pass, and whoever only
has to find the end of it need not care; whoever wants to know what it says does. So there are two
predicates: `Json.IsContent` for what may stand between quotes, and `Json.Spells` for what stands
for a given text.

A sequence and a mapping are written alike, brackets around items with commas between them. What
differs is only what stands in front of the value of an item, which is a name and a colon in a
mapping and nothing in a sequence.

## Main definitions

* `Json.Spells` — the ways to write a text
* `Json.IsContent`, `Json.IsNumber` — what a string or a number looks like
* `Json.IsValue` — what a value looks like
* `Json.IsMapping` — a mapping with these members
-/

namespace SignIn.Json

/-! ### Blanks -/

/-- The characters that may stand anywhere between the parts of a text. -/
def blankChars : List Char := [' ', '\t', '\n', '\r']

/-- A stretch of blanks. -/
def Blanks (text : List Char) : Prop := ∀ x ∈ text, x ∈ blankChars

instance (text : List Char) : Decidable (Blanks text) :=
  List.decidableBAll (fun x => x ∈ blankChars) text

theorem Blanks.nil : Blanks [] := nofun

/-! ### Strings -/

/-- A character that stands for itself in a string. -/
def IsOrdinary (x : Char) : Prop := 0x20 ≤ x.toNat ∧ x ≠ '"' ∧ x ≠ '\\'

instance (x : Char) : Decidable (IsOrdinary x) := inferInstanceAs (Decidable (_ ∧ _ ∧ _))

/-- The letters of the short escapes, and what they stand for. -/
def shortEscapes : List (Char × Char) :=
  [('"', '"'), ('\\', '\\'), ('/', '/'), ('b', '\x08'), ('f', '\x0c'), ('n', '\n'), ('r', '\r'),
    ('t', '\t')]

/-- A hexadecimal digit in upper or lower case. -/
def IsHexDigit (x : Char) (n : Nat) : Prop := n < 16 ∧ (x = n.digitChar ∨ x = n.digitChar.toUpper)

instance (x : Char) (n : Nat) : Decidable (IsHexDigit x n) :=
  inferInstanceAs (Decidable (_ ∧ (_ ∨ _)))

/-- A long escape writes a number of 16 bits with four digits. -/
inductive IsLongEscape : List Char → Nat → Prop
  | intro {x y z w : Char} {a b c d : Nat} (hx : IsHexDigit x a) (hy : IsHexDigit y b)
      (hz : IsHexDigit z c) (hw : IsHexDigit w d) :
      IsLongEscape ['\\', 'u', x, y, z, w] (16 * (16 * (16 * a + b) + c) + d)

/-- The numbers of the surrogates that lead a pair. -/
def IsLeadSurrogate (n : Nat) : Prop := 0xD800 ≤ n ∧ n ≤ 0xDBFF

/-- The numbers of the surrogates that end a pair. -/
def IsTrailSurrogate (n : Nat) : Prop := 0xDC00 ≤ n ∧ n ≤ 0xDFFF

instance (n : Nat) : Decidable (IsLeadSurrogate n) := inferInstanceAs (Decidable (_ ∧ _))

instance (n : Nat) : Decidable (IsTrailSurrogate n) := inferInstanceAs (Decidable (_ ∧ _))

/-- `Spells written text`: between quotes, `written` stands for `text`. Each character can be
written as itself, by a short escape, by a long one, or by two long ones for a pair of surrogates,
as far as there is such a way for it. -/
inductive Spells : (written text : List Char) → Prop
  | nil : Spells [] []
  | ordinary {x : Char} {written text : List Char} (hx : IsOrdinary x) (h : Spells written text) :
      Spells (x :: written) (x :: text)
  | short {x y : Char} {written text : List Char} (hx : (x, y) ∈ shortEscapes)
      (h : Spells written text) : Spells ('\\' :: x :: written) (y :: text)
  | long {escape : List Char} {n : Nat} {written text : List Char} (hn : IsLongEscape escape n)
      (hlead : ¬IsLeadSurrogate n) (htrail : ¬IsTrailSurrogate n) (h : Spells written text) :
      Spells (escape ++ written) (Char.ofNat n :: text)
  | pair {escape escape' : List Char} {n n' : Nat} {written text : List Char}
      (hn : IsLongEscape escape n) (hn' : IsLongEscape escape' n') (hlead : IsLeadSurrogate n)
      (htrail : IsTrailSurrogate n') (h : Spells written text) :
      Spells (escape ++ (escape' ++ written))
        (Char.ofNat ((n - 0xD800) * 0x400 + (n' - 0xDC00) + 0x10000) :: text)

/-- What may stand between quotes, whether it stands for a text or not. -/
inductive IsContent : List Char → Prop
  | nil : IsContent []
  | ordinary {x : Char} {written : List Char} (hx : IsOrdinary x) (h : IsContent written) :
      IsContent (x :: written)
  | short {x y : Char} {written : List Char} (hx : (x, y) ∈ shortEscapes) (h : IsContent written) :
      IsContent ('\\' :: x :: written)
  | long {escape : List Char} {n : Nat} {written : List Char} (hn : IsLongEscape escape n)
      (h : IsContent written) : IsContent (escape ++ written)

/-- What stands for a text may stand between quotes. -/
theorem Spells.isContent {written text : List Char} (h : Spells written text) :
    IsContent written := by
  induction h with
  | nil => exact .nil
  | ordinary hx _ ih => exact .ordinary hx ih
  | short hx _ ih => exact .short hx ih
  | long hn _ _ _ ih => exact .long hn ih
  | pair hn hn' _ _ _ ih => exact .long hn (.long hn' ih)

/-! ### Numbers -/

/-- One or more decimal digits. -/
def IsDigits (text : List Char) : Prop := text ≠ [] ∧ ∀ d ∈ text, d.isDigit = true

/-- The whole part of a number: a zero, or digits of which the first is none. -/
inductive IsWhole : List Char → Prop
  | zero : IsWhole ['0']
  | digits {d : Char} {ds : List Char} (hd : d ≠ '0') (h : IsDigits (d :: ds)) : IsWhole (d :: ds)

/-- The fraction of a number, if it has one. -/
inductive IsFraction : List Char → Prop
  | none : IsFraction []
  | some {ds : List Char} (h : IsDigits ds) : IsFraction ('.' :: ds)

/-- The exponent of a number, if it has one. -/
inductive IsExponent : List Char → Prop
  | none : IsExponent []
  | some {e : Char} {sign ds : List Char} (he : e = 'e' ∨ e = 'E')
      (hsign : sign ∈ [[], ['+'], ['-']]) (h : IsDigits ds) : IsExponent (e :: (sign ++ ds))

/-- A number without its sign. -/
inductive IsUnsigned : List Char → Prop
  | intro {whole fraction exponent : List Char} (hwhole : IsWhole whole)
      (hfraction : IsFraction fraction) (hexponent : IsExponent exponent) :
      IsUnsigned (whole ++ (fraction ++ exponent))

/-- A number. -/
inductive IsNumber : List Char → Prop
  | positive {text : List Char} (h : IsUnsigned text) : IsNumber text
  | negative {text : List Char} (h : IsUnsigned text) : IsNumber ('-' :: text)

/-! ### Values -/

/-- A value without parts. -/
inductive IsAtom : List Char → Prop
  | null : IsAtom ['n', 'u', 'l', 'l']
  | true : IsAtom ['t', 'r', 'u', 'e']
  | false : IsAtom ['f', 'a', 'l', 's', 'e']
  | number {text : List Char} (h : IsNumber text) : IsAtom text
  | text {written : List Char} (h : IsContent written) : IsAtom ('"' :: (written ++ ['"']))

/-- The bracket that opens a frame. -/
def Frame.opening : Frame → Char
  | .sequence => '['
  | .mapping => '{'

/-- The bracket that closes a frame. -/
def Frame.bracket : Frame → Char
  | .sequence => ']'
  | .mapping => '}'

/-- What stands in front of a value in a mapping: a name in quotes, of which `written` is the
content, and a colon. -/
inductive IsLabel (written : List Char) : List Char → Prop
  | intro {before behind ahead : List Char} (hbefore : Blanks before) (hbehind : Blanks behind)
      (hahead : Blanks ahead) :
      IsLabel written (before ++ '"' :: (written ++ '"' :: (behind ++ ':' :: ahead)))

/-- What stands in front of a value in a frame. -/
def Frame.IsLead : Frame → List Char → Prop
  | .sequence, lead => Blanks lead
  | .mapping, lead => ∃ written, IsContent written ∧ IsLabel written lead

/-- A value in a frame, with what stands in front of it and the blanks behind it. -/
structure Item where
  lead : List Char
  value : List Char
  trail : List Char

namespace Item

/-- An item as it is written. -/
def text (i : Item) : List Char := i.lead ++ (i.value ++ i.trail)

/-- Items with a comma in front of each. -/
def behind (items : List Item) : List Char := items.flatMap fun i => ',' :: i.text

/-- Items with commas between them. -/
def join : List Item → List Char
  | [] => []
  | i :: items => i.text ++ behind items

end Item

/-- A value. -/
inductive IsValue : List Char → Prop
  | atom {text : List Char} (h : IsAtom text) : IsValue text
  | empty (frame : Frame) {inside : List Char} (h : Blanks inside) :
      IsValue (frame.opening :: (inside ++ [frame.bracket]))
  | frame (frame : Frame) {items : List Item} (hne : items ≠ [])
      (hlead : ∀ i ∈ items, frame.IsLead i.lead) (hvalue : ∀ i ∈ items, IsValue i.value)
      (htrail : ∀ i ∈ items, Blanks i.trail) :
      IsValue (frame.opening :: (Item.join items ++ [frame.bracket]))

/-! ### Members -/

/-- The value is a string that stands for this text. -/
inductive IsTextOf (s : String) : List Char → Prop
  | intro {written : List Char} (h : Spells written s.toList) :
      IsTextOf s ('"' :: (written ++ ['"']))

/-- The item is a member of this name. If a text is given, the value of the member is a string that
stands for it; otherwise it is any value. -/
structure Item.IsMember (i : Item) (m : String × Option String) : Prop where
  label : ∃ written, Spells written m.1.toList ∧ IsLabel written i.lead
  value : IsValue i.value
  text : ∀ s, m.2 = some s → IsTextOf s i.value
  trail : Blanks i.trail

/-- The text is a mapping with these members, in this order. -/
def IsMapping (members : List (String × Option String)) (text : List Char) : Prop :=
  ∃ before inside behind, Blanks before ∧ Blanks behind ∧
    text = before ++ '{' :: (inside ++ '}' :: behind) ∧
      ((members = [] ∧ Blanks inside) ∨
        members ≠ [] ∧ ∃ items, List.Forall₂ Item.IsMember items members ∧ inside = Item.join items)

end SignIn.Json
