import SignIn.Mock.Page
import SignIn.Proofs.Text.Html

/-!
# The fields of a page are read back

A browser finds the hidden fields of a page by the text in front of each. Such a text must not stand
anywhere else: neither in the fixed lines of the page, nor in anything that came from outside, which
is why that is escaped. Every mark of a field starts like an input element, so it is enough that no
other part of the page does. Such a part is `Mock.Page.Calm`.

## Main definitions

* `Mock.Page.Calm` — a part of a page in which no field starts

## Main results

* `Mock.Page.hiddenFields_confirm`, `Mock.Page.hiddenFields_deliver` — the fields of both pages
-/

namespace SignIn.Mock.Page

open SignIn.Page (lines)

/-! ### Calm texts -/

/-- No tag starts with an `i`, and none is open at the end. -/
def Calm : List Char → Prop
  | [] => True
  | [c] => c ≠ '<'
  | c :: d :: cs => (c = '<' → d ≠ 'i') ∧ Calm (d :: cs)

instance Calm.decidable : DecidablePred Calm
  | [] => .isTrue trivial
  | [c] => inferInstanceAs (Decidable (c ≠ '<'))
  | c :: d :: cs =>
    have := Calm.decidable (d :: cs)
    inferInstanceAs (Decidable ((c = '<' → d ≠ 'i') ∧ Calm (d :: cs)))

theorem Calm.nil : Calm [] := trivial

theorem Calm.of_forall {cs : List Char} (h : ∀ c ∈ cs, c ≠ '<') : Calm cs := by
  induction cs with
  | nil => trivial
  | cons c cs ih =>
    have hc := h c List.mem_cons_self
    have hcs := ih fun d hd => h d (List.mem_cons_of_mem c hd)
    cases cs with
    | nil => exact hc
    | cons d cs => exact ⟨fun e => absurd e hc, hcs⟩

theorem calm_escape (s : String) : Calm (Html.escape s).toList :=
  .of_forall fun _ hc => (Html.ne_of_mem_escape hc).2.1

theorem Calm.append {cs ds : List Char} (h : Calm cs) (h' : Calm ds) : Calm (cs ++ ds) := by
  induction cs with
  | nil => exact h'
  | cons c cs ih =>
    cases cs with
    | nil =>
      cases ds with
      | nil => exact h
      | cons d ds => exact ⟨fun e => absurd e h, h'⟩
    | cons d cs => exact ⟨h.1, ih h.2⟩

/-! ### Searching -/

/-- A mark is not found before the place where its first character comes first. -/
theorem behind_append {x : Char} {before : List Char} (h : x ∉ before) (mark rest : List Char) :
    behind (x :: mark) (before ++ (x :: mark ++ rest)) = some rest := by
  induction before with
  | nil =>
    have hfound : (x :: mark).isPrefixOf (x :: (mark ++ rest)) = true := by simp
    rw [List.nil_append, List.cons_append, behind, if_pos hfound]
    simp
  | cons c before ih =>
    have hc : x ≠ c := fun e => h (e ▸ List.mem_cons_self)
    have hnot : (x :: mark).isPrefixOf (c :: (before ++ (x :: mark ++ rest))) = false := by
      simp [List.isPrefixOf, hc]
    rw [List.cons_append, behind, hnot]
    exact ih fun hmem => h (List.mem_cons_of_mem c hmem)

/-- The mark of a field is not found in a calm text. -/
theorem behind_calm {before : List Char} (h : Calm before) (mark rest : List Char) :
    behind ('<' :: 'i' :: mark) (before ++ rest) = behind ('<' :: 'i' :: mark) rest := by
  induction before with
  | nil => rfl
  | cons c before ih =>
    cases before with
    | nil =>
      have hnot : ('<' :: 'i' :: mark).isPrefixOf (c :: rest) = false := by
        simp [List.isPrefixOf, Ne.symm h]
      rw [List.singleton_append, behind, hnot]
      rfl
    | cons d before =>
      have hnot : ('<' :: 'i' :: mark).isPrefixOf (c :: d :: (before ++ rest)) = false := by
        by_cases hc : c = '<'
        · simp [List.isPrefixOf, Ne.symm (h.1 hc)]
        · simp [List.isPrefixOf, Ne.symm hc]
      rw [List.cons_append, List.cons_append, behind, hnot]
      exact ih h.2

theorem behind_calm_eq_none {text : List Char} (h : Calm text) (mark : List Char) :
    behind ('<' :: 'i' :: mark) text = none := by
  have hbehind := behind_calm h mark []
  rwa [List.append_nil] at hbehind

-- What is calm is known from the lemmas above. Nobody should look for it in the characters of a page.
attribute [irreducible] Calm

/-- A quoted text is read back. -/
theorem quoted_escape (s : String) (rest : List Char) :
    quoted ((Html.escape s).toList ++ '"' :: rest) = s := by
  have hplain : ∀ c ∈ (Html.escape s).toList, decide (c ≠ '"') = true :=
    fun c hc => decide_eq_true (Html.ne_of_mem_escape hc).1
  rw [quoted, List.takeWhile_append_of_pos hplain]
  simp

/-! ### Fields -/

/-- The characters of a hidden field from the text in front of its name to the end of its value. -/
def fieldChars (p : String × String) : List Char :=
  fieldMarks.1.toList ++ ((Html.escape p.1).toList ++ (fieldMarks.2.1.toList ++
    (Html.escape p.2).toList))

theorem toList_hiddenInput (p : String × String) :
    (hiddenInput p).toList = "        ".toList ++ (fieldChars p ++ fieldMarks.2.2.toList) := by
  simp only [hiddenInput, fieldChars, String.toList_append, List.append_assoc]

/-- The next field of a page is found and read. -/
theorem fieldsFrom_of_calm {before : List Char} (h : Calm before) (fuel : Nat) (p : String × String)
    (rest : List Char) :
    fieldsFrom (fuel + 1) (before ++ (fieldChars p ++ '"' :: rest)) =
      p :: fieldsFrom fuel ((Html.escape p.2).toList ++ '"' :: rest) := by
  have hfirst : fieldMarks.1.toList = '<' :: 'i' :: "nput type=\"hidden\" name=\"".toList := rfl
  have hsecond : fieldMarks.2.1.toList = '"' :: " value=\"".toList := rfl
  let value := (Html.escape p.2).toList ++ '"' :: rest
  let name := (Html.escape p.1).toList ++ (fieldMarks.2.1.toList ++ value)
  have hshape : fieldChars p ++ '"' :: rest = fieldMarks.1.toList ++ name := by
    simp only [fieldChars, name, value, List.append_assoc]
  have hname :
      behind fieldMarks.1.toList (before ++ (fieldMarks.1.toList ++ name)) = some name := by
    rw [hfirst, behind_calm h]
    exact behind_append (List.not_mem_nil (a := '<')) _ name
  have hvalue : behind fieldMarks.2.1.toList name = some value :=
    behind_append (fun hmem => (Html.ne_of_mem_escape hmem).1 rfl) _ value
  have hquoted : quoted name = p.1 := by
    simp only [name, hsecond]
    exact quoted_escape p.1 _
  rw [hshape, fieldsFrom, hname]
  simp only [hvalue]
  rw [hquoted, quoted_escape]

/-- Lines, each behind a line break. -/
def joined (ls : List String) : List Char := ls.flatMap fun l => '\n' :: l.toList

theorem toList_lines (l : String) (ls : List String) :
    (lines (l :: ls)).toList = l.toList ++ joined ls := by
  rw [lines]
  induction ls generalizing l with
  | nil => simp [joined]
  | cons m ls ih =>
    rw [String.intercalate_cons_cons, String.toList_append, String.toList_append, ih]
    simp [joined]

theorem joined_cons (l : String) (ls : List String) :
    joined (l :: ls) = '\n' :: (l.toList ++ joined ls) := by
  rw [joined, List.flatMap_cons]
  rfl

theorem joined_append (ls ms : List String) : joined (ls ++ ms) = joined ls ++ joined ms :=
  List.flatMap_append

theorem calm_joined {ls : List String} (h : ∀ l ∈ ls, Calm l.toList) : Calm (joined ls) := by
  induction ls with
  | nil => exact .nil
  | cons l ls ih =>
    have hbreak : Calm ['\n'] := by decide
    have hline := hbreak.append (h l List.mem_cons_self)
    exact hline.append (ih fun m hm => h m (List.mem_cons_of_mem l hm))

/-- Fields between calm texts are read, and nothing else. -/
theorem fieldsFrom_joined {before after : List Char} (hbefore : Calm before) (hafter : Calm after)
    (fields : List (String × String)) {fuel : Nat} (hfuel : fields.length ≤ fuel) :
    fieldsFrom fuel (before ++ (joined (fields.map hiddenInput) ++ after)) = fields := by
  induction fields generalizing before fuel with
  | nil =>
    have hnone : behind fieldMarks.1.toList (before ++ after) = none :=
      behind_calm_eq_none (hbefore.append hafter) _
    cases fuel with
    | zero => rfl
    | succ fuel =>
      rw [List.map_nil, fieldsFrom]
      simp only [joined, List.flatMap_nil, List.nil_append, hnone]
  | cons p fields ih =>
    obtain ⟨fuel, rfl⟩ := Nat.exists_eq_add_of_le' (Nat.one_le_of_lt hfuel)
    have hindent : Calm "\n        ".toList := by decide
    have hend : Calm "\" />".toList := by decide
    let rest := joined (fields.map hiddenInput) ++ after
    have hshape : joined ((p :: fields).map hiddenInput) ++ after =
        "\n        ".toList ++ (fieldChars p ++ '"' :: (" />".toList ++ rest)) := by
      rw [List.map_cons, joined, List.flatMap_cons, toList_hiddenInput]
      simp [rest, joined, fieldMarks]
    have hrest : (Html.escape p.2).toList ++ '"' :: (" />".toList ++ rest) =
        ((Html.escape p.2).toList ++ "\" />".toList) ++ rest := by
      simp
    rw [hshape, ← List.append_assoc, fieldsFrom_of_calm (hbefore.append hindent), hrest,
      ih ((calm_escape p.2).append hend) (Nat.le_of_succ_le_succ hfuel)]

theorem length_le_joined (ls : List String) : ls.length ≤ (joined ls).length := by
  induction ls with
  | nil => exact Nat.le_refl 0
  | cons l ls ih =>
    rw [joined_cons, List.length_cons, List.length_cons, List.length_append]
    omega

/-- The lines of hidden fields. Where there are none, an empty line stands in their place. -/
theorem joined_hiddenInputs (fields : List (String × String)) :
    ∃ gap, Calm gap ∧ joined [hiddenInputs fields] = joined (fields.map hiddenInput) ++ gap := by
  cases fields with
  | nil => exact ⟨['\n'], by decide, rfl⟩
  | cons p ps =>
    refine ⟨[], .nil, ?_⟩
    rw [joined_cons, hiddenInputs, List.map_cons, toList_lines, joined_cons]
    simp [joined]

/-- The fields between the lines of a page. -/
theorem hiddenFields_lines {first : String} {before after : List String}
    (hfirst : Calm first.toList)
    (hbefore : ∀ l ∈ before, Calm l.toList) (hafter : ∀ l ∈ after, Calm l.toList)
    (fields : List (String × String)) :
    hiddenFields (lines (first :: (before ++ hiddenInputs fields :: after))) = fields := by
  obtain ⟨gap, hgap, hinputs⟩ := joined_hiddenInputs fields
  have htext : (lines (first :: (before ++ hiddenInputs fields :: after))).toList =
      first.toList ++ joined before ++
        (joined (fields.map hiddenInput) ++ (gap ++ joined after)) := by
    rw [toList_lines, joined_append, ← List.singleton_append, joined_append, hinputs]
    simp only [List.append_assoc]
  have hlength := length_le_joined (fields.map hiddenInput)
  rw [hiddenFields, htext]
  refine fieldsFrom_joined (hfirst.append (calm_joined hbefore))
    (hgap.append (calm_joined hafter)) _ ?_
  rw [List.length_map] at hlength
  simp only [List.length_append]
  omega

/-! ### Pages -/

/-- A line that holds an escaped text. -/
theorem calm_line {before after : String} (hbefore : Calm before.toList)
    (hafter : Calm after.toList) (s : String) : Calm (before ++ Html.escape s ++ after).toList := by
  rw [String.toList_append, String.toList_append]
  exact (hbefore.append (calm_escape s)).append hafter

/-- The fields of the page that delivers a callback. -/
theorem hiddenFields_deliver (redirectUri : String) (fields : List (String × String)) :
    hiddenFields (deliver redirectUri fields) = fields := by
  let top := ["<html>", "<head>", "    <title>Redirecting...</title>", "</head>",
    "<body onload=\"document.forms[0].submit()\">"]
  let form := "    <form method=\"POST\" action=\"" ++ Html.escape redirectUri ++ "\">"
  let bottom := [
    "        <noscript>",
    "            <p>JavaScript is disabled. Click the button below to continue.</p>",
    "            <button type=\"submit\">Continue</button>",
    "        </noscript>",
    "    </form>",
    "</body>",
    "</html>"]
  have htop : ∀ l ∈ top, Calm l.toList := by decide +kernel
  have hform : Calm form.toList := calm_line (by decide) (by decide) redirectUri
  have hbottom : ∀ l ∈ bottom, Calm l.toList := by decide +kernel
  have hbefore : ∀ l ∈ top ++ [form], Calm l.toList :=
    List.forall_mem_append.2 ⟨htop, List.forall_mem_singleton.2 hform⟩
  have hfirst : Calm "<!DOCTYPE html>".toList := by decide
  exact hiddenFields_lines hfirst hbefore hbottom fields

theorem calm_style : ∀ l ∈ style, Calm l.toList := by decide +kernel

/-- The fields of the page that asks for a confirmation. -/
theorem hiddenFields_confirm (loginHint : String) (fields : List (String × String)) :
    hiddenFields (confirm loginHint fields) = fields := by
  let head := ["<html>", "<head>", "    <title>Mock Broker Sign In (DEV ONLY)</title>"]
  let top := [
    "</head>",
    "<body>",
    "    <div class=\"warning\">",
    "        <h2>Development Only</h2>",
    "        <p>This is a <strong>mock broker</strong>. No email is sent.</p>",
    "    </div>",
    ""]
  let question := "    <p>Sign in as <strong>" ++ Html.escape loginHint ++ "</strong>?</p>"
  let form := ["", "    <form action=\"/auth/confirm\" method=\"POST\">"]
  let bottom := [
    "        <button class=\"allow\" type=\"submit\" name=\"decision\" value=\"allow\">Confirm</button>",
    "        <button type=\"submit\" name=\"decision\" value=\"deny\">Deny</button>",
    "    </form>",
    "</body>",
    "</html>"]
  have hhead : ∀ l ∈ head, Calm l.toList := by decide +kernel
  have htop : ∀ l ∈ top, Calm l.toList := by decide +kernel
  have hquestion : Calm question.toList := calm_line (by decide) (by decide) loginHint
  have hform : ∀ l ∈ form, Calm l.toList := by decide +kernel
  have hbottom : ∀ l ∈ bottom, Calm l.toList := by decide +kernel
  have hfixed : ∀ l ∈ head ++ style ++ top, Calm l.toList :=
    List.forall_mem_append.2 ⟨List.forall_mem_append.2 ⟨hhead, calm_style⟩, htop⟩
  have hbefore : ∀ l ∈ head ++ style ++ top ++ question :: form, Calm l.toList :=
    List.forall_mem_append.2 ⟨hfixed, List.forall_mem_cons.2 ⟨hquestion, hform⟩⟩
  have hfirst : Calm "<!DOCTYPE html>".toList := by decide
  exact hiddenFields_lines hfirst hbefore hbottom fields

end SignIn.Mock.Page
