/-!
# Text inside a page

A text is put into a page in two places, between tags and inside a quoted attribute. The same
escape serves both: the five characters that could end either of them are written as entities,
and everything else stands for itself.

The text is gone through once for each of the five characters. An entity begins with an ampersand,
so the ampersand is the first of them: later it would be found in entities that are written already.
The relying party and the mock broker do not share code, but each has an escape of its own, and the
two are the same word for word. So there is one here for the pages of both.

## Main definitions

* `Html.entity` — how one character is written
* `Html.escape` — a text as it is written into a page
* `Html.unescape` — and read back, the way a browser does for these five entities
-/

namespace SignIn.Html

/-- How one character is written. -/
def entity (c : Char) : String :=
  match c with
  | '&' => "&amp;"
  | '<' => "&lt;"
  | '>' => "&gt;"
  | '"' => "&quot;"
  | '\'' => "&#39;"
  | c => String.singleton c

/-- Writes a text in place of every occurrence of a character. -/
def replace (cs : List Char) (p : Char × String) : List Char :=
  cs.flatMap fun c => if c = p.1 then p.2.toList else [c]

/-- What is replaced by what, in this order. -/
def replacements : List (Char × String) :=
  [('&', "&amp;"), ('<', "&lt;"), ('>', "&gt;"), ('"', "&quot;"), ('\'', "&#39;")]

/-- A text as it is written into a page, by the relying party and by the mock broker alike: both say
the same five replacements in the same order. What the passes come to is known from lemmas; nobody
should have to follow them where a page is unfolded. -/
@[irreducible] def escape (s : String) : String := String.ofList (replacements.foldl replace s.toList)

/-- One left-to-right scan that replaces the five entities. -/
def unescapeChars : List Char → List Char
  | '&' :: 'a' :: 'm' :: 'p' :: ';' :: rest => '&' :: unescapeChars rest
  | '&' :: 'l' :: 't' :: ';' :: rest => '<' :: unescapeChars rest
  | '&' :: 'g' :: 't' :: ';' :: rest => '>' :: unescapeChars rest
  | '&' :: 'q' :: 'u' :: 'o' :: 't' :: ';' :: rest => '"' :: unescapeChars rest
  | '&' :: '#' :: '3' :: '9' :: ';' :: rest => '\'' :: unescapeChars rest
  | c :: rest => c :: unescapeChars rest
  | [] => []

/-- The text that was written. -/
def unescape (s : String) : String := String.ofList (unescapeChars s.toList)

end SignIn.Html
