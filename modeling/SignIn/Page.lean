import SignIn.Text.Html

/-!
# The pages of the relying party

The pages are bare, and whoever drives a browser through a sign-in tells them apart by their titles.
Only the page of a success shows anything that came from outside: the identity, escaped.

## Main definitions

* `Page.login`, `Page.error`, `Page.gotError`, `Page.invalidToken`, `Page.confirmed`
-/

namespace SignIn.Page

/-- Lines of text, joined. -/
def lines (ls : List String) : String := String.intercalate "\n" ls

/-- A page with a title and a body. -/
def page (title body : String) : String :=
  lines [
    "<!DOCTYPE html>",
    "<html>",
    "<head>",
    "    <title>" ++ title ++ "</title>",
    "</head>",
    "<body>",
    body,
    "</body>",
    "</html>"]

/-- Asks for an email address. -/
def login : String :=
  page "RP: Login" <| lines [
    "    <form method=\"post\" action=\"/auth\">",
    "        <input name=\"email\" type=\"email\">",
    "    </form>"]

/-- An authentication could not be started. -/
def error : String := page "RP: Error" ""

/-- The broker or its token endpoint reported a failure. -/
def gotError : String := page "RP: Got error" ""

/-- The token was rejected. -/
def invalidToken : String := page "RP: Invalid token" ""

/-- The user is signed in. -/
def confirmed (identity : String) : String :=
  page "RP: Confirmed" ("    <p>" ++ Html.escape identity ++ "</p>")

end SignIn.Page
