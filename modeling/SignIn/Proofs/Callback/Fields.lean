import Mathlib.Data.List.Induction
import SignIn.Proofs.Callback.Json
import SignIn.Proofs.Text.Form

/-!
# What a callback holds for a name

A callback is made of a form, and what it holds for a name is the last value of that name in the
form, whether the name is one of the four with a meaning or not. The difference between the two is
what stands for a name that the form does not have: a field with a meaning is there all the same
and empty, and among the other fields there is none.

A request brings two forms, its body and its query. Which of them counts is decided once, by
whether the body is empty, and not name by name. So a query cannot add to a body, and it cannot
stand in for one either, even if nothing in the body has a meaning here.

## Main definitions

* `Callback.source` — the form that counts
* `Callback.Params.held?` — what a callback holds for a name

## Main results

* `Callback.Params.held?_ofForm` — the last value of a form
* `Callback.Params.ofForm_congr` — forms with the same last values bring the same callback
* `Callback.Params.merged_by_name` — what a body and a query make up together
-/

namespace SignIn

/-! ### Dictionaries by their names -/

namespace Dictionary

/-- The dictionary of some pairs has the last value of each name. -/
@[simp]
theorem get?_ofPairs (pairs : Form) (name : String) :
    (ofPairs pairs).get? name = Form.lookup pairs name := by
  induction pairs using List.reverseRecOn with
  | nil => rfl
  | append_singleton pairs last ih =>
    rw [ofPairs, List.foldl_append, List.foldl_cons, List.foldl_nil, get?_insert,
      Form.lookup_append, Form.lookup_singleton, ← ofPairs, ih]
    split <;> rfl

/-- The entries of a dictionary are the names with their texts. -/
theorem mem_entries_iff (d : Dictionary) (name text : String) :
    (name, text) ∈ d.entries ↔ d.get? name = some text := by
  obtain ⟨entries, sorted⟩ := d
  rw [get?]
  dsimp only
  induction entries with
  | nil => simp
  | cons head rest ih =>
    obtain ⟨hhead, hrest⟩ := List.pairwise_cons.1 sorted
    rw [List.mem_cons, List.find?_cons, ih hrest]
    by_cases hname : head.1 = name
    · have hnone : rest.find? (fun e => e.1 == name) = none := by
        refine List.find?_eq_none.2 fun e he heq => ?_
        have hlt := hhead e he
        rw [beq_iff_eq.1 heq, hname] at hlt
        exact String.lt_irrefl name hlt
      simp [hname, hnone, Prod.ext_iff, eq_comm]
    · have hne : (name, text) ≠ head := fun h => hname (h ▸ rfl)
      rw [beq_false_of_ne hname]
      simp [hne]

/-- A dictionary is known by what it has for each name. -/
theorem eq_of_get? {d d' : Dictionary} (h : ∀ name, d.get? name = d'.get? name) : d = d' := by
  have hnodup : ∀ d : Dictionary, d.entries.Nodup := by
    refine fun d => d.sorted.imp fun {a b} hlt heq => ?_
    rw [heq] at hlt
    exact String.lt_irrefl b.1 hlt
  have hmem : ∀ e, e ∈ d.entries ↔ e ∈ d'.entries := fun e => by
    rw [mem_entries_iff d e.1 e.2, mem_entries_iff d' e.1 e.2, h]
  have hperm := (List.perm_ext_iff_of_nodup (hnodup d) (hnodup d')).2 hmem
  refine eq_of_entries (hperm.eq_of_pairwise (fun a b _ _ hab hba => ?_) d.sorted d'.sorted)
  exact absurd (String.lt_trans hab hba) (String.lt_irrefl a.1)

end Dictionary

namespace Callback

/-- The form that counts of the two that a request brings. -/
def source (body query : Form) : Form := if body = [] then query else body

namespace Params

theorem merge_eq (body query : Form) : merge body query = ofForm (source body query) := by
  rw [merge, source]
  cases body <;> rfl

/-- What a callback holds for a name: the field with this name if it has a meaning, and what is
found among the others if it has none. -/
def held? (p : Params) (name : String) : Option String :=
  match name with
  | "error" => some p.error
  | "error_description" => some p.errorDescription
  | "id_token" => some p.idToken
  | "code" => some p.code
  | name => p.extra.get? name

theorem held?_of_not_mem (p : Params) {name : String} (h : name ∉ reserved) :
    p.held? name = p.extra.get? name := by
  rw [held?] <;> rintro rfl <;> exact absurd (by decide) h

/-- What a form does not bring is empty if it has a meaning, and missing otherwise. -/
def absent (name : String) : Option String := if name ∈ reserved then some "" else none

/-- A callback holds the last value of its form. -/
theorem held?_ofForm (form : Form) (name : String) :
    (ofForm form).held? name = (form.lookup name).or (absent name) := by
  by_cases hname : name ∈ reserved
  · have hfield : some ((form.lookup name).getD "") = (form.lookup name).or (absent name) := by
      rw [absent, if_pos hname]
      cases form.lookup name <;> rfl
    rw [← hfield]
    simp only [reserved, List.mem_cons, List.not_mem_nil, or_false] at hname
    rcases hname with rfl | rfl | rfl | rfl <;> rfl
  · rw [held?_of_not_mem _ hname, absent, if_neg hname, Option.or_none, ofForm,
      Dictionary.get?_ofPairs,
      Form.lookup_filter form (fun name => !reserved.contains name) (by simpa using hname)]

/-- Callbacks that hold the same for every name are the same, if the fields with a meaning are
where they belong. -/
theorem eq_of_held? {p q : Params} (hp : p.IsSplit) (hq : q.IsSplit)
    (h : ∀ name, p.held? name = q.held? name) : p = q := by
  have hextra : p.extra = q.extra := by
    refine Dictionary.eq_of_get? fun name => ?_
    by_cases hname : name ∈ reserved
    · rw [hp.get? hname, hq.get? hname]
    · rw [← held?_of_not_mem p hname, ← held?_of_not_mem q hname, h]
  cases p
  cases q
  congr 1
  · exact Option.some.inj (h "error")
  · exact Option.some.inj (h "error_description")
  · exact Option.some.inj (h "id_token")
  · exact Option.some.inj (h "code")

/-- What a form brings depends on the last value of each name and on nothing else, so not on the
order of its names or on values that do not count. -/
theorem ofForm_congr {form form' : Form} (h : ∀ name, form.lookup name = form'.lookup name) :
    ofForm form = ofForm form' := by
  refine eq_of_held? (isSplit_ofForm form) (isSplit_ofForm form') fun name => ?_
  rw [held?_ofForm, held?_ofForm, h]

/-- A body and a query are told apart once, and then read name by name: what the callback holds for
a name is the last value that the form which counts gives to this name. A name that it does not
have is empty if it has a meaning and missing otherwise, and no name with a meaning is among the
other fields. So behind a body that is not empty every query brings the same callback. -/
theorem merged_by_name (body query : Form) :
    (∀ before name value behind, source body query = before ++ (name, value) :: behind →
        (∀ p ∈ behind, p.1 ≠ name) → (merge body query).held? name = some value) ∧
      (∀ name, (∀ p ∈ source body query, p.1 ≠ name) →
        (merge body query).held? name = if name ∈ reserved then some "" else none) ∧
      (∀ name ∈ reserved, (merge body query).extra.get? name = none) ∧
      ∀ query', body ≠ [] → merge body query = merge body query' ∧
        (merge body query).signal = (merge body query').signal := by
  refine ⟨fun before name value behind hsource hlast => ?_, fun name habsent => ?_,
    fun name hname => ?_, fun query' hbody => ?_⟩
  · have hlookup := (Form.lookup_eq_some_iff _ name value).2 ⟨before, behind, hsource, hlast⟩
    rw [merge_eq, held?_ofForm, hlookup, Option.some_or]
  · rw [merge_eq, held?_ofForm, (Form.lookup_eq_none_iff _ name).2 habsent, Option.none_or, absent]
  · rw [merge_eq]
    exact (isSplit_ofForm _).get? hname
  · have hmerge : merge body query = merge body query' := by
      rw [merge_eq, merge_eq, source, source, if_neg hbody, if_neg hbody]
    exact ⟨hmerge, congrArg signal hmerge⟩

/-- A body in which nothing has a meaning but a name comes twice, beside a query with a code. -/
theorem merged_by_name_of_state :
    source [("state", "1"), ("state", "2")] [("code", "abc")] = [("state", "1"), ("state", "2")] ∧
      (merge [("state", "1"), ("state", "2")] [("code", "abc")]).held? "state" = some "2" ∧
      (merge [("state", "1"), ("state", "2")] [("code", "abc")]).held? "code" = some "" ∧
      (merge [("state", "1"), ("state", "2")] [("code", "abc")]).held? "scope" = none ∧
      (merge [("state", "1"), ("state", "2")] [("code", "abc")]).signal =
        (merge [("state", "1"), ("state", "2")] []).signal := by
  obtain ⟨hlast, habsent, -, hquery⟩ :=
    merged_by_name [("state", "1"), ("state", "2")] [("code", "abc")]
  exact ⟨by decide, hlast [("state", "1")] "state" "2" [] (by decide) (by decide),
    habsent "code" (by decide), habsent "scope" (by decide), (hquery [] (by decide)).2⟩

end Params

end Callback

end SignIn
