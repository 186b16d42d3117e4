import SignIn.Proofs.Mock.Page

/-!
# Texts from outside in a page

A page consists of texts that are the same in all pages of its kind, and of texts from outside that
stand in between. Which kind of page it is and how many hidden fields it has decides on the former.
A `Template` holds them, with places for the latter, and every page is the template of its kind with
escaped texts in its places.

A browser sees a page as tags with text between them. All tags come from the template, as an escaped
text can neither begin nor end one, nor an attribute in one. So whoever chooses the texts cannot add
a title to a page, and not even a paragraph.

## Main definitions

* `Page.Template`, `Page.Template.fill` — what pages of a kind have in common, and a page of it
* `Page.markup` — the tags of a page, each with the text behind it

## Main results

* `Page.exists_template_confirmed`, `Mock.Page.exists_template_deliver`,
  `Mock.Page.exists_template_confirm` — every page has a template
* `Page.Template.count_fill` — marks are those of the template
* `Page.markup_confirmed` — the tags of the page of a success
* `Page.markup_of_template` — texts from outside do not change the markup
* `Html.escape_in_one_pass` — what escaping is, and that all these pages escape alike
-/

namespace SignIn

namespace Page

/-! ### Templates -/

/-- A part of a page. -/
inductive Part where
  /-- A text that is in all pages of a kind. -/
  | fixed (text : String)
  /-- A place for a text from outside. -/
  | place
  deriving DecidableEq, Repr

/-- What pages of a kind have in common. -/
abbrev Template := List Part

namespace Template

/-- How many texts from outside there are. -/
def places (t : Template) : Nat := t.count .place

/-- The page that holds these texts. -/
def fill : Template → List String → String
  | [], _ => ""
  | .fixed text :: parts, values => text ++ fill parts values
  | .place :: parts, value :: values => Html.escape value ++ fill parts values
  | .place :: parts, [] => fill parts []

/-- How often a character is in the texts that all pages of a kind share. -/
def count (c : Char) : Template → Nat
  | [] => 0
  | .fixed text :: parts => text.toList.count c + count c parts
  | .place :: parts => count c parts

theorem fill_append {t : Template} {values : List String} (h : values.length = t.places)
    (u : Template) (more : List String) :
    fill (t ++ u) (values ++ more) = fill t values ++ fill u more := by
  induction t generalizing values with
  | nil =>
    rw [List.eq_nil_of_length_eq_zero h, fill, String.empty_append]
    rfl
  | cons part parts ih =>
    cases part with
    | fixed text =>
      have hparts : values.length = places parts := by simpa [places] using h
      rw [List.cons_append, fill, fill, ih hparts, String.append_assoc]
    | place =>
      cases values with
      | nil => simp [places] at h
      | cons value values =>
        have hparts : values.length = places parts := by simpa [places] using h
        rw [List.cons_append, List.cons_append, fill, fill, ih hparts, String.append_assoc]

/-- Tags and attributes begin and end in the template, and nowhere else. -/
theorem count_fill {c : Char} (hc : c ∈ Html.marks) (t : Template) (values : List String) :
    (fill t values).toList.count c = t.count c := by
  have hescape (s : String) : (Html.escape s).toList.count c = 0 :=
    List.count_eq_zero.2 (Html.not_mem_escape hc s)
  fun_induction fill t values with
  | case1 => rfl
  | case2 text parts values ih => rw [String.toList_append, List.count_append, ih, count]
  | case3 parts value values ih =>
    rw [String.toList_append, List.count_append, hescape, ih, count, Nat.zero_add]
  | case4 parts ih => rw [ih, count]

end Template

/-! ### What stands around the texts -/

/-- A page is what comes before a text in one of its lines, the text, and what comes behind it. -/
theorem lines_around (ls ms : List String) (before text behind : String) :
    lines (ls ++ (before ++ text ++ behind) :: ms) =
      lines (ls ++ [before]) ++ text ++ lines (behind :: ms) := by
  refine String.toList_inj.1 ?_
  cases ls <;> simp [Mock.Page.toList_lines, Mock.Page.joined]

/-- The page of a success holds the identity. -/
theorem confirmed_eq : ∃ front behind, ∀ identity,
    confirmed identity = front ++ Html.escape identity ++ behind := by
  let top := ["<!DOCTYPE html>", "<html>", "<head>",
    "    <title>" ++ "RP: Confirmed" ++ "</title>", "</head>", "<body>"]
  let bottom := ["</body>", "</html>"]
  refine ⟨lines (top ++ ["    <p>"]), lines ("</p>" :: bottom), fun identity => ?_⟩
  rw [confirmed, page]
  exact lines_around top bottom "    <p>" (Html.escape identity) "</p>"

/-- All pages of a success have a template in common. -/
theorem exists_template_confirmed : ∃ t : Template, t.places = 1 ∧
    ∀ identity, confirmed identity = t.fill [identity] := by
  obtain ⟨front, behind, hpage⟩ := confirmed_eq
  refine ⟨[.fixed front, .place, .fixed behind], rfl, fun identity => ?_⟩
  simp only [hpage, Template.fill, String.append_empty, String.append_assoc]

end Page

namespace Mock.Page

open SignIn.Page

/-- A text in a line of a page, and hidden fields in later lines. -/
theorem lines_fields (top middle bottom : List String) (before text behind : String)
    (fields : List (String × String)) :
    lines (top ++ (before ++ text ++ behind) :: (middle ++ hiddenInputs fields :: bottom)) =
      lines (top ++ [before]) ++ text ++ lines (behind :: middle ++ [""]) ++ hiddenInputs fields ++
        lines ("" :: bottom) := by
  have hfields := lines_around (behind :: middle) bottom "" (hiddenInputs fields) ""
  rw [String.empty_append, String.append_empty] at hfields
  rw [lines_around, ← List.cons_append, hfields]
  simp only [String.append_assoc]

/-- The page that delivers a callback holds the place to which it is sent, and the fields. -/
theorem deliver_eq : ∃ front between behind, ∀ redirectUri fields, deliver redirectUri fields =
    front ++ Html.escape redirectUri ++ between ++ hiddenInputs fields ++ behind := by
  let top := ["<!DOCTYPE html>", "<html>", "<head>", "    <title>Redirecting...</title>", "</head>",
    "<body onload=\"document.forms[0].submit()\">"]
  let bottom := [
    "        <noscript>",
    "            <p>JavaScript is disabled. Click the button below to continue.</p>",
    "            <button type=\"submit\">Continue</button>",
    "        </noscript>",
    "    </form>",
    "</body>",
    "</html>"]
  exact ⟨_, _, _, fun redirectUri fields => lines_fields top [] bottom
    "    <form method=\"POST\" action=\"" (Html.escape redirectUri) "\">" fields⟩

/-- The page that asks for a confirmation holds the one to sign in as, and the fields. -/
theorem confirm_eq : ∃ front between behind, ∀ loginHint fields, confirm loginHint fields =
    front ++ Html.escape loginHint ++ between ++ hiddenInputs fields ++ behind := by
  let top := ["<!DOCTYPE html>", "<html>", "<head>",
      "    <title>Mock Broker Sign In (DEV ONLY)</title>"] ++ style ++ [
    "</head>",
    "<body>",
    "    <div class=\"warning\">",
    "        <h2>Development Only</h2>",
    "        <p>This is a <strong>mock broker</strong>. No email is sent.</p>",
    "    </div>",
    ""]
  let middle := ["", "    <form action=\"/auth/confirm\" method=\"POST\">"]
  let bottom := [
    "        <button class=\"allow\" type=\"submit\" name=\"decision\" value=\"allow\">Confirm</button>",
    "        <button type=\"submit\" name=\"decision\" value=\"deny\">Deny</button>",
    "    </form>",
    "</body>",
    "</html>"]
  exact ⟨_, _, _, fun loginHint fields => lines_fields top middle bottom
    "    <p>Sign in as <strong>" (Html.escape loginHint) "</strong>?</p>" fields⟩

/-! ### Hidden fields -/

/-- The texts that fields bring into a page. -/
def textsOf (fields : List (String × String)) : List String := fields.flatMap fun p => [p.1, p.2]

theorem length_textsOf (fields : List (String × String)) :
    (textsOf fields).length = 2 * fields.length := by
  induction fields with
  | nil => rfl
  | cons p fields ih =>
    have hcons : textsOf (p :: fields) = p.1 :: p.2 :: textsOf fields := rfl
    rw [hcons, List.length_cons, List.length_cons, ih, List.length_cons]
    omega

/-- The template of a hidden field. -/
def inputTemplate : Template :=
  [.fixed ("        " ++ fieldMarks.1), .place, .fixed fieldMarks.2.1, .place, .fixed fieldMarks.2.2]

/-- The template of hidden fields, one to a line. -/
def inputsTemplate : Nat → Template
  | 0 => []
  | 1 => inputTemplate
  | n + 2 => inputTemplate ++ .fixed "\n" :: inputsTemplate (n + 1)

theorem places_inputsTemplate (n : Nat) : (inputsTemplate n).places = 2 * n := by
  fun_induction inputsTemplate n with
  | case1 => rfl
  | case2 => rfl
  | case3 n ih =>
    have hfirst : Template.places inputTemplate = 2 := rfl
    rw [Template.places] at ih hfirst ⊢
    rw [List.count_append, hfirst, List.count_cons_of_ne (by simp), ih]
    omega

theorem fill_inputTemplate (p : String × String) :
    inputTemplate.fill [p.1, p.2] = hiddenInput p := by
  simp only [inputTemplate, Template.fill, hiddenInput, String.append_empty, String.append_assoc]

theorem fill_inputsTemplate (fields : List (String × String)) :
    (inputsTemplate fields.length).fill (textsOf fields) = hiddenInputs fields := by
  induction fields with
  | nil => rfl
  | cons p fields ih =>
    cases fields with
    | nil =>
      have hone : hiddenInputs [p] = hiddenInput p := by simp [hiddenInputs, lines]
      rw [hone]
      exact fill_inputTemplate p
    | cons q fields =>
      have hmore : hiddenInputs (p :: q :: fields) =
          hiddenInput p ++ ("\n" ++ hiddenInputs (q :: fields)) := by
        rw [← String.append_assoc]
        exact String.intercalate_cons_cons
      have hplaces : [p.1, p.2].length = Template.places inputTemplate := rfl
      rw [hmore, ← ih, ← fill_inputTemplate p]
      exact Template.fill_append hplaces _ (textsOf (q :: fields))

/-- The template of a page with a text and a form behind it. -/
def formTemplate (front between behind : String) (n : Nat) : Template :=
  .fixed front :: .place :: .fixed between :: (inputsTemplate n ++ [.fixed behind])

theorem places_formTemplate (front between behind : String) (n : Nat) :
    (formTemplate front between behind n).places = 2 * n + 1 := by
  have hinputs := places_inputsTemplate n
  rw [Template.places] at hinputs ⊢
  simp [formTemplate, List.count_append, hinputs]

theorem fill_formTemplate (front between behind text : String) (fields : List (String × String)) :
    (formTemplate front between behind fields.length).fill (text :: textsOf fields) =
      front ++ Html.escape text ++ between ++ hiddenInputs fields ++ behind := by
  have hplaces : (textsOf fields).length = (inputsTemplate fields.length).places := by
    rw [length_textsOf, places_inputsTemplate]
  have hinputs := Template.fill_append hplaces [.fixed behind] []
  rw [List.append_nil, fill_inputsTemplate] at hinputs
  simp only [formTemplate, Template.fill, hinputs, String.append_empty, String.append_assoc]

/-- All pages that deliver so many fields have a template in common. -/
theorem exists_template_deliver : ∃ t : Nat → Template, (∀ n, (t n).places = 2 * n + 1) ∧
    ∀ redirectUri fields,
      deliver redirectUri fields = (t fields.length).fill (redirectUri :: textsOf fields) := by
  obtain ⟨front, between, behind, hpage⟩ := deliver_eq
  refine ⟨formTemplate front between behind, places_formTemplate front between behind, ?_⟩
  intro redirectUri fields
  rw [hpage, fill_formTemplate]

/-- All pages that ask for a confirmation and carry so many fields have a template in common. -/
theorem exists_template_confirm : ∃ t : Nat → Template, (∀ n, (t n).places = 2 * n + 1) ∧
    ∀ loginHint fields,
      confirm loginHint fields = (t fields.length).fill (loginHint :: textsOf fields) := by
  obtain ⟨front, between, behind, hpage⟩ := confirm_eq
  refine ⟨formTemplate front between behind, places_formTemplate front between behind, ?_⟩
  intro loginHint fields
  rw [hpage, fill_formTemplate]

end Mock.Page

namespace Page

/-! ### Tags -/

/-- Every tag, without the angle brackets, and the text from there to the next one. -/
def tagsFrom : List Char → List (List Char × List Char)
  | [] => []
  | c :: cs =>
    if c = '<' then
      (cs.takeWhile (· ≠ '>'), ((cs.dropWhile (· ≠ '>')).drop 1).takeWhile (· ≠ '<')) :: tagsFrom cs
    else tagsFrom cs

/-- The tags of a page, each with the text behind it. -/
def markup (page : String) : List (String × String) :=
  (tagsFrom page.toList).map fun p => (.ofList p.1, .ofList p.2)

/-- What stands behind the tags of a name. -/
def textsBehind (tag page : String) : List String :=
  ((markup page).filter (·.1 = tag)).map (·.2)

/-- The text of tags, each with the text behind it. -/
def written (tags : List (String × String)) : String :=
  String.join (tags.map fun p => "<" ++ p.1 ++ ">" ++ p.2)

theorem tagsFrom_append {cs : List Char} (h : '<' ∉ cs) (ds : List Char) :
    tagsFrom (cs ++ ds) = tagsFrom ds := by
  induction cs with
  | nil => rfl
  | cons c cs ih =>
    rw [List.mem_cons, not_or] at h
    rw [List.cons_append, tagsFrom, if_neg (Ne.symm h.1), ih h.2]

/-- A tag that is written is read back, with the text behind it. -/
theorem tagsFrom_tag {tag text rest : List Char} (hopen : '<' ∉ tag) (hclose : '>' ∉ tag)
    (htext : '<' ∉ text) (hrest : rest.takeWhile (· ≠ '<') = []) :
    tagsFrom ('<' :: (tag ++ '>' :: (text ++ rest))) = (tag, text) :: tagsFrom rest := by
  have htag : ∀ c ∈ tag, decide (c ≠ '>') = true :=
    fun c hc => decide_eq_true fun heq => hclose (heq ▸ hc)
  have hplain : ∀ c ∈ text, decide (c ≠ '<') = true :=
    fun c hc => decide_eq_true fun heq => htext (heq ▸ hc)
  have hclosing : '<' ∉ ['>'] := by decide
  have hbehind : tagsFrom (tag ++ '>' :: (text ++ rest)) = tagsFrom rest := by
    rw [tagsFrom_append hopen, ← List.singleton_append, tagsFrom_append hclosing,
      tagsFrom_append htext]
  rw [tagsFrom, if_pos rfl, hbehind, List.takeWhile_append_of_pos htag,
    List.takeWhile_cons_of_neg (by simp), List.dropWhile_append_of_pos htag,
    List.dropWhile_cons_of_neg (by simp), List.drop_one, List.tail_cons,
    List.takeWhile_append_of_pos hplain, hrest, List.append_nil, List.append_nil]

/-- A text behind a tag stands for itself, and so does what is inside of a tag. -/
def IsPlain (p : String × String) : Prop :=
  '<' ∉ p.1.toList ∧ '>' ∉ p.1.toList ∧ '<' ∉ p.2.toList

instance : DecidablePred IsPlain := fun p =>
  inferInstanceAs (Decidable ('<' ∉ p.1.toList ∧ '>' ∉ p.1.toList ∧ '<' ∉ p.2.toList))

theorem isPlain_intro {tag text : String} (hopen : '<' ∉ tag.toList) (hclose : '>' ∉ tag.toList)
    (htext : '<' ∉ text.toList) : IsPlain (tag, text) :=
  ⟨hopen, hclose, htext⟩

/-- Tags that are written are read back. -/
theorem markup_written {tags : List (String × String)} (h : ∀ p ∈ tags, IsPlain p) :
    markup (written tags) = tags := by
  have hcons (p : String × String) (tags : List (String × String)) : (written (p :: tags)).toList =
      '<' :: (p.1.toList ++ '>' :: (p.2.toList ++ (written tags).toList)) := by
    simp [written]
  have hstart (tags : List (String × String)) :
      (written tags).toList.takeWhile (· ≠ '<') = [] := by
    cases tags with
    | nil => rfl
    | cons p tags =>
      rw [hcons]
      exact List.takeWhile_cons_of_neg (by simp)
  rw [markup]
  induction tags with
  | nil => rfl
  | cons p tags ih =>
    obtain ⟨hopen, hclose, htext⟩ := h p List.mem_cons_self
    rw [hcons, tagsFrom_tag hopen hclose htext (hstart tags), List.map_cons,
      ih fun q hq => h q (List.mem_cons_of_mem p hq), String.ofList_toList, String.ofList_toList]

/-! ### The tags of the pages -/

/-- The tags of a page: those of its head, and those of its body, which stands behind some text. -/
def tagsOf (title indent : String) (tags : List (String × String)) : List (String × String) :=
  ("!DOCTYPE html", "\n") :: ("html", "\n") :: ("head", "\n    ") :: ("title", title) ::
    ("/title", "\n") :: ("/head", "\n") :: ("body", "\n" ++ indent) ::
    (tags ++ [("/body", "\n"), ("/html", "")])

theorem isPlain_tagsOf {title indent : String} {tags : List (String × String)}
    (htitle : '<' ∉ title.toList) (hindent : '<' ∉ indent.toList) (htags : ∀ p ∈ tags, IsPlain p) :
    ∀ p ∈ tagsOf title indent tags, IsPlain p := by
  have hspace : '<' ∉ ("\n" ++ indent).toList := by
    rw [String.toList_append, List.mem_append, not_or]
    exact ⟨by decide, hindent⟩
  simp only [tagsOf, List.forall_mem_cons, List.forall_mem_append]
  exact ⟨by decide, by decide, by decide, isPlain_intro (by decide) (by decide) htitle, by decide,
    by decide, isPlain_intro (by decide) (by decide) hspace, htags, by decide, by decide, nofun⟩

theorem page_eq_written {title body indent : String} {tags : List (String × String)}
    (hbody : body ++ "\n" = indent ++ written tags) :
    page title body = written (tagsOf title indent tags) := by
  have hchars := congrArg (·.toList ++ "</body>\n</html>".toList) hbody
  refine String.toList_inj.1 ?_
  simpa [page, Mock.Page.toList_lines, Mock.Page.joined, written, tagsOf] using hchars

/-- A page has the tags of its body, besides those that every page has. -/
theorem markup_page {title body indent : String} {tags : List (String × String)}
    (hbody : body ++ "\n" = indent ++ written tags) (htitle : '<' ∉ title.toList)
    (hindent : '<' ∉ indent.toList) (htags : ∀ p ∈ tags, IsPlain p) :
    markup (page title body) = tagsOf title indent tags := by
  rw [page_eq_written hbody]
  exact markup_written (isPlain_tagsOf htitle hindent htags)

/-- The page of a success has these tags, whatever the identity is. -/
theorem markup_confirmed (identity : String) : markup (confirmed identity) =
    tagsOf "RP: Confirmed" "    " [("p", Html.escape identity), ("/p", "\n")] := by
  have hbody : "    <p>" ++ Html.escape identity ++ "</p>" ++ "\n" =
      "    " ++ written [("p", Html.escape identity), ("/p", "\n")] := by
    refine String.toList_inj.1 ?_
    simp [written]
  have hidentity : IsPlain ("p", Html.escape identity) :=
    isPlain_intro (by decide) (by decide) (Html.not_mem_escape (by decide) identity)
  rw [confirmed]
  exact markup_page hbody (by decide) (by decide) (List.forall_mem_cons.2 ⟨hidentity, by decide⟩)

/-- A page has one title, unless there is another one in its body. -/
theorem title_page {title body indent : String} {tags : List (String × String)}
    (hmarkup : markup (page title body) = tagsOf title indent tags)
    (htags : ∀ p ∈ tags, p.1 ≠ "title") : textsBehind "title" (page title body) = [title] := by
  have hnone : tags.filter (·.1 = "title") = [] :=
    List.filter_eq_nil_iff.2 fun p hp => by simpa using htags p hp
  rw [textsBehind, hmarkup, tagsOf]
  simp [hnone]

theorem title_of_empty {title : String} (htitle : '<' ∉ title.toList) :
    textsBehind "title" (page title "") = [title] := by
  have hbody : "" ++ "\n" = "\n" ++ written [] := rfl
  exact title_page (markup_page hbody htitle (by decide) nofun) nofun

theorem title_login : textsBehind "title" login = ["RP: Login"] := by
  let tags := [("form method=\"post\" action=\"/auth\"", "\n        "),
    ("input name=\"email\" type=\"email\"", "\n    "), ("/form", "\n")]
  have hbody : lines [
      "    <form method=\"post\" action=\"/auth\">",
      "        <input name=\"email\" type=\"email\">",
      "    </form>"] ++ "\n" = "    " ++ written tags := by
    decide +kernel
  exact title_page (markup_page hbody (by decide) (by decide) (by decide)) (by decide)

/-- The titles of the pages that tell no success. -/
theorem titles_of_others : ∀ p ∈ [(login, "RP: Login"), (error, "RP: Error"),
    (gotError, "RP: Got error"), (invalidToken, "RP: Invalid token")],
      textsBehind "title" p.1 = [p.2] := by
  simp only [List.forall_mem_cons]
  exact ⟨title_login, title_of_empty (by decide), title_of_empty (by decide),
    title_of_empty (by decide), nofun⟩

theorem title_confirmed (identity : String) :
    textsBehind "title" (confirmed identity) = ["RP: Confirmed"] :=
  title_page (markup_confirmed identity) (by simp)

theorem paragraph_confirmed (identity : String) :
    textsBehind "p" (confirmed identity) = [Html.escape identity] := by
  rw [textsBehind, markup_confirmed]
  simp [tagsOf]

/-- **Texts from outside cannot change the markup of a page.** The page of a success has the same
tags for every identity, among them one title and one paragraph, and the identity is what a browser
shows in the latter. Pages of a kind with as many fields are one template, in which escaped texts
stand; angle brackets and quotes are those of the template, so there are as many of them in one of
these pages as in the other. No other page has the title of a success, and none is one. -/
theorem markup_of_template :
    (∀ identity, markup (confirmed identity) =
        tagsOf "RP: Confirmed" "    " [("p", Html.escape identity), ("/p", "\n")] ∧
      textsBehind "title" (confirmed identity) = ["RP: Confirmed"] ∧
      (textsBehind "p" (confirmed identity)).map Html.unescape = [identity]) ∧
    (∃ t : Template, t.places = 1 ∧ ∀ identity, confirmed identity = t.fill [identity]) ∧
    (∃ t : Nat → Template, (∀ n, (t n).places = 2 * n + 1) ∧ ∀ redirectUri fields,
      Mock.Page.deliver redirectUri fields =
        (t fields.length).fill (redirectUri :: Mock.Page.textsOf fields)) ∧
    (∃ t : Nat → Template, (∀ n, (t n).places = 2 * n + 1) ∧ ∀ loginHint fields,
      Mock.Page.confirm loginHint fields =
        (t fields.length).fill (loginHint :: Mock.Page.textsOf fields)) ∧
    (∀ c ∈ ['<', '>', '"', '\''],
      (∀ s, c ∉ (Html.escape s).toList) ∧
      (∀ identity identity',
        (confirmed identity).toList.count c = (confirmed identity').toList.count c) ∧
      ∀ (text text' : String) (fields fields' : List (String × String)),
        fields.length = fields'.length →
        (Mock.Page.deliver text fields).toList.count c =
          (Mock.Page.deliver text' fields').toList.count c ∧
        (Mock.Page.confirm text fields).toList.count c =
          (Mock.Page.confirm text' fields').toList.count c) ∧
    ∀ p ∈ [(login, "RP: Login"), (error, "RP: Error"), (gotError, "RP: Got error"),
        (invalidToken, "RP: Invalid token")],
      textsBehind "title" p.1 = [p.2] ∧ ∀ identity, confirmed identity ≠ p.1 := by
  obtain ⟨tConfirmed, hplaces, hconfirmed⟩ := exists_template_confirmed
  obtain ⟨tDeliver, hplacesDeliver, hdeliver⟩ := Mock.Page.exists_template_deliver
  obtain ⟨tConfirm, hplacesConfirm, hconfirm⟩ := Mock.Page.exists_template_confirm
  refine ⟨fun identity => ⟨markup_confirmed identity, title_confirmed identity, ?_⟩,
    ⟨tConfirmed, hplaces, hconfirmed⟩, ⟨tDeliver, hplacesDeliver, hdeliver⟩,
    ⟨tConfirm, hplacesConfirm, hconfirm⟩, ?_, ?_⟩
  · rw [paragraph_confirmed, List.map_singleton, Html.unescape_escape]
  · intro c hc
    refine ⟨Html.not_mem_escape hc, fun identity identity' => ?_, ?_⟩
    · rw [hconfirmed, hconfirmed, Template.count_fill hc, Template.count_fill hc]
    · intro text text' fields fields' hlength
      constructor
      · rw [hdeliver, hdeliver, Template.count_fill hc, Template.count_fill hc, hlength]
      · rw [hconfirm, hconfirm, Template.count_fill hc, Template.count_fill hc, hlength]
  · intro p hp
    refine ⟨titles_of_others p hp, fun identity heq => ?_⟩
    have htitle := title_confirmed identity
    rw [heq, titles_of_others p hp] at htitle
    have hother : ∀ p ∈ [(login, "RP: Login"), (error, "RP: Error"), (gotError, "RP: Got error"),
        (invalidToken, "RP: Invalid token")], p.2 ≠ "RP: Confirmed" := by
      simp
    exact hother p hp (List.cons.inj htitle).1

end Page

namespace Html

/-- **The five passes are one**, for every text: each character is written once, and what is written
for another one is left alone. So a text can be escaped piece by piece, and it can be read back.
Every ampersand in an escaped text begins an entity. It is this escape, and no other, by which texts
come into the page of a success and into those of the mock broker. -/
theorem escape_in_one_pass :
    (∀ s, (escape s).toList = s.toList.flatMap fun c => (entity c).toList) ∧
    (∀ s t, escape (s ++ t) = escape s ++ escape t) ∧
    (∀ s, unescape (escape s) = s) ∧
    Function.Injective escape ∧
    (∀ s before behind, (escape s).toList = before ++ '&' :: behind →
      ∃ e ∈ ["&amp;", "&lt;", "&gt;", "&quot;", "&#39;"], e.toList <+: '&' :: behind) ∧
    (∃ front behind, ∀ s, Page.confirmed s = front ++ escape s ++ behind) ∧
    (∃ front between behind, ∀ s fields, Mock.Page.deliver s fields =
      front ++ escape s ++ between ++ Mock.Page.hiddenInputs fields ++ behind) ∧
    (∃ front between behind, ∀ s fields, Mock.Page.confirm s fields =
      front ++ escape s ++ between ++ Mock.Page.hiddenInputs fields ++ behind) ∧
    ∃ front between behind, ∀ s t, Mock.Page.hiddenInput (s, t) =
      front ++ escape s ++ between ++ escape t ++ behind :=
  ⟨toList_escape, escape_append, unescape_escape, escape_injective,
    fun _ _ _ => exists_entity_of_escape, Page.confirmed_eq, Mock.Page.deliver_eq,
    Mock.Page.confirm_eq, _, _, _, fun _ _ => rfl⟩

/-- A text that looks escaped is escaped once more, and only once. -/
example : escape "<&lt;'\">" = "&lt;&amp;lt;&#39;&quot;&gt;" := by decide +kernel

end Html

end SignIn
