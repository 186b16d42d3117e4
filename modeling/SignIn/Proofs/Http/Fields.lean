import SignIn.Http.Fields
import SignIn.Proofs.Except
import SignIn.Proofs.Text.Form

/-!
# Posted forms are read back

A form is read back from the body of a request that is short enough. What a handler takes out of it
does not depend on the order of its pairs, nor on pairs of names that the handler does not ask for:
each field has to be there once, or not at all if it has a default.

## Main definitions

* `Http.Field.Holds` — a form has a value for a field

## Main results

* `Http.readFields_eq_ok_iff` — which values are read
* `Http.Request.bodyForm_postForm` — a posted form that is short enough
* `Http.Request.bodyForm_of_long` — a body that is not
* `Http.Request.not_isReadable_of_query` — a query that is too long
-/

namespace SignIn.Http

/-! ### Fields -/

/-- The form has one value for the field, or none, and then the field has a default. -/
def Field.Holds (f : Field) (form : Form) (value : String) : Prop :=
  form.filter (·.1 == f.name) = [(f.name, value)] ∨
    form.filter (·.1 == f.name) = [] ∧ f.absent = some value

theorem Field.Holds.count_le {f : Field} {form : Form} {value : String}
    (h : f.Holds form value) : (form.map Prod.fst).count f.name ≤ 1 := by
  rw [← Form.length_filter]
  obtain h | ⟨h, -⟩ := h
  · simp [h]
  · simp [h]

/-- A field of which there is no second value is looked up. -/
theorem Field.holds_iff {f : Field} {form : Form} {value : String}
    (h : (form.map Prod.fst).count f.name ≤ 1) :
    f.Holds form value ↔ (form.lookup f.name <|> f.absent) = some value := by
  rw [← Form.length_filter] at h
  have hnames : ∀ p ∈ form.filter (·.1 == f.name), p.1 = f.name := by
    intro p hp
    exact eq_of_beq (List.mem_filter.1 hp).2
  rw [Field.Holds, Form.lookup_eq]
  generalize form.filter (·.1 == f.name) = held at h hnames
  match held with
  | [] => simp
  | [p] =>
    obtain ⟨name, v⟩ := p
    obtain rfl : name = f.name := hnames _ List.mem_cons_self
    simp
  | p :: q :: held => simp at h

/-- A value is read where there is one. -/
theorem Field.read_eq_ok_iff {f : Field} {form : Form} {value : String} :
    (match form.lookup f.name <|> f.absent with
      | some value => Except.ok value
      | none => .error (FieldError.missing f.name)) = .ok value ↔
      (form.lookup f.name <|> f.absent) = some value := by
  cases form.lookup f.name <|> f.absent <;> simp

/-- No name comes a second time if none is there twice, nor again after it was seen. -/
theorem firstRepeated?_eq_none_iff {names ns seen : List String} :
    firstRepeated? names ns seen = none ↔
      ∀ n ∈ names, ns.count n ≤ 1 ∧ (n ∈ seen → n ∉ ns) := by
  induction ns generalizing seen with
  | nil => simp [firstRepeated?]
  | cons m ns ih =>
    by_cases hm : m ∈ names
    · by_cases hseen : m ∈ seen
      · simp only [firstRepeated?, List.contains_eq_mem, hm, hseen, decide_true, if_true]
        exact iff_of_false nofun fun h => (h m hm).2 hseen List.mem_cons_self
      · simp only [firstRepeated?, List.contains_eq_mem, hm, hseen, decide_true, if_true,
          decide_false]
        grind
    · simp only [firstRepeated?, List.contains_eq_mem, hm, decide_false]
      grind

/-- Fields are read if the form holds each of them. -/
theorem readFields_eq_ok_iff {fields : List Field} {form : Form} {values : List String} :
    readFields fields form = .ok values ↔
      List.Forall₂ (fun f value => f.Holds form value) fields values := by
  have hrepeated : firstRepeated? (fields.map (·.name)) (form.map Prod.fst) [] = none ↔
      ∀ f ∈ fields, (form.map Prod.fst).count f.name ≤ 1 := by
    simp [firstRepeated?_eq_none_iff]
  constructor
  · intro h
    rw [readFields] at h
    split at h
    · contradiction
    · next hnone =>
      have hread := (List.forall₂_and_left _ _).2
        ⟨hrepeated.1 hnone, forall₂_of_mapM_eq_ok h⟩
      exact hread.imp fun f value ⟨hcount, hvalue⟩ =>
        (Field.holds_iff hcount).2 (Field.read_eq_ok_iff.1 hvalue)
  · intro h
    have hread : List.Forall₂ (fun f value => (form.map Prod.fst).count f.name ≤ 1 ∧
        (form.lookup f.name <|> f.absent) = some value) fields values :=
      h.imp fun f value hholds => ⟨hholds.count_le, (Field.holds_iff hholds.count_le).1 hholds⟩
    obtain ⟨hcount, hvalues⟩ := (List.forall₂_and_left _ _).1 hread
    rw [readFields, hrepeated.2 hcount]
    exact mapM_of_forall₂ (hvalues.imp fun f value hvalue => Field.read_eq_ok_iff.2 hvalue)

namespace Request

variable {request : Request} {form : Form}

/-! ### Targets -/

/-- With a query that fills the target alone there is no room for the path. -/
theorem not_isReadable_of_target {path query : String}
    (htarget : request.target = path ++ "?" ++ query) (h : uriLimit ≤ (Utf8.encode query).length) :
    ¬request.IsReadable := by
  have hmark : (Utf8.encode "?").length = 1 := by decide +kernel
  rw [IsReadable, htarget, Utf8.encode_append, Utf8.encode_append, List.length_append,
    List.length_append, hmark]
  omega

/-- The form does not count to the length of a target. -/
theorem isReadable_postForm {target : String} (h : (ofTarget "POST" target).IsReadable)
    (form : Form) : (postForm target form).IsReadable := h

/-! ### Bodies -/

theorem saysForm_of_formType (htype : request.contentType = some formType) :
    request.saysForm = true := by
  rw [saysForm, htype]
  decide

/-- A form in the body that is short enough is read back. -/
theorem bodyForm_of_encode (htype : request.contentType = some formType)
    (hbody : request.body = Utf8.encode form.encode) (h : request.body.length ≤ bodyLimit) :
    request.bodyForm = .ok form := by
  rw [bodyForm, saysForm_of_formType htype, if_neg (Nat.not_lt.2 h), hbody]
  exact congrArg Except.ok (Form.ofText_encode form)

/-- A body that is too long is not looked at. -/
theorem bodyForm_of_long (htype : request.contentType = some formType)
    (h : bodyLimit < request.body.length) : request.bodyForm = .error .tooLong := by
  rw [bodyForm, saysForm_of_formType htype, if_pos h]
  rfl

theorem bodyForm_postForm {target : String} (h : (postForm target form).body.length ≤ bodyLimit) :
    (postForm target form).bodyForm = .ok form :=
  bodyForm_of_encode rfl rfl h

end Request

end SignIn.Http
