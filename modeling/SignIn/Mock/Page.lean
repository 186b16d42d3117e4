import SignIn.Page

/-!
# The pages of the mock broker

Both pages hold a form with hidden fields. One asks the user to confirm and carries the
authentication request along; the other is sent back by the browser on its own and delivers the
callback to the relying party.

Hidden fields are written one to a line, and what they hold is escaped, so a page can be read back
by looking for the text in front of each field.

## Main definitions

* `Mock.Page.confirm`, `Mock.Page.deliver`
* `Mock.Page.hiddenFields` — the fields of a page, as a browser would send them
-/

namespace SignIn.Mock.Page

open SignIn.Page (lines)

/-- What stands before the name of a hidden field, between name and value, and behind the value. -/
def fieldMarks : String × String × String :=
  ("<input type=\"hidden\" name=\"", "\" value=\"", "\" />")

/-- A hidden field. -/
def hiddenInput (field : String × String) : String :=
  "        " ++ fieldMarks.1 ++ Html.escape field.1 ++ fieldMarks.2.1 ++ Html.escape field.2 ++
    fieldMarks.2.2

/-- Hidden fields, one to a line. -/
def hiddenInputs (fields : List (String × String)) : String := lines (fields.map hiddenInput)

/-- Delivers the callback: the form is sent as soon as the page is shown. -/
def deliver (redirectUri : String) (fields : List (String × String)) : String :=
  lines [
    "<!DOCTYPE html>",
    "<html>",
    "<head>",
    "    <title>Redirecting...</title>",
    "</head>",
    "<body onload=\"document.forms[0].submit()\">",
    "    <form method=\"POST\" action=\"" ++ Html.escape redirectUri ++ "\">",
    hiddenInputs fields,
    "        <noscript>",
    "            <p>JavaScript is disabled. Click the button below to continue.</p>",
    "            <button type=\"submit\">Continue</button>",
    "        </noscript>",
    "    </form>",
    "</body>",
    "</html>"]

/-- The looks of the page that asks for a confirmation. -/
def style : List String := [
  "    <style>",
  "        body \x7b",
  "            font-family: -apple-system, BlinkMacSystemFont, sans-serif;",
  "            max-width: 400px;",
  "            margin: 100px auto;",
  "            padding: 20px;",
  "        \x7d",
  "        .warning \x7b",
  "            background: #fff3cd;",
  "            border: 1px solid #ffc107;",
  "            padding: 15px;",
  "            border-radius: 8px;",
  "            margin-bottom: 20px;",
  "        \x7d",
  "        button \x7b",
  "            width: 100%;",
  "            padding: 12px;",
  "            margin-bottom: 10px;",
  "            border: none;",
  "            border-radius: 4px;",
  "            cursor: pointer;",
  "            font-size: 16px;",
  "        \x7d",
  "        .allow \x7b",
  "            background: #007bff;",
  "            color: white;",
  "        \x7d",
  "    </style>"]

/-- Asks whether the user wants to sign in as the one that the request names. -/
def confirm (loginHint : String) (fields : List (String × String)) : String :=
  lines <| [
    "<!DOCTYPE html>",
    "<html>",
    "<head>",
    "    <title>Mock Broker Sign In (DEV ONLY)</title>"] ++
  style ++ [
    "</head>",
    "<body>",
    "    <div class=\"warning\">",
    "        <h2>Development Only</h2>",
    "        <p>This is a <strong>mock broker</strong>. No email is sent.</p>",
    "    </div>",
    "",
    "    <p>Sign in as <strong>" ++ Html.escape loginHint ++ "</strong>?</p>",
    "",
    "    <form action=\"/auth/confirm\" method=\"POST\">",
    hiddenInputs fields,
    "        <button class=\"allow\" type=\"submit\" name=\"decision\" value=\"allow\">Confirm</button>",
    "        <button type=\"submit\" name=\"decision\" value=\"deny\">Deny</button>",
    "    </form>",
    "</body>",
    "</html>"]

/-! ### Reading a page, the way a browser does -/

/-- What stands behind the first occurrence of a text, if there is one. -/
def behind (mark : List Char) : List Char → Option (List Char)
  | [] => if mark.isEmpty then some [] else none
  | c :: cs =>
    if mark.isPrefixOf (c :: cs) then some ((c :: cs).drop mark.length) else behind mark cs

/-- The value of an attribute, from behind its opening quote. -/
def quoted (text : List Char) : String :=
  Html.unescape (String.ofList (text.takeWhile (· ≠ '"')))

/-- The hidden fields of a page; every field takes at least one character. -/
def fieldsFrom : (fuel : Nat) → List Char → List (String × String)
  | 0, _ => []
  | fuel + 1, text =>
    match behind fieldMarks.1.toList text with
    | none => []
    | some text =>
      match behind fieldMarks.2.1.toList text with
      | none => []
      | some value => (quoted text, quoted value) :: fieldsFrom fuel value

/-- The hidden fields of a page. -/
def hiddenFields (page : String) : List (String × String) :=
  fieldsFrom page.toList.length page.toList

end SignIn.Mock.Page
