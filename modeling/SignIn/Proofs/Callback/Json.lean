import SignIn.Callback.Json
import SignIn.Proofs.Json.Kept
import SignIn.Token.Grant

/-!
# Written callbacks are read back

A callback is written as one mapping, in which the four fields with a meaning stand beside all the
others. What was written can be told apart again because no other field has one of the four names.
This is so for every callback that a browser can bring, since what it brings is split by name; and
it is so for every callback that was read from JSON, since there the four names are looked up as
well. A callback that was put together in another way could have a second `code` among its other
fields, and it would not be read back.

A grant has one member and nothing beside it, so nothing can be mixed up there.

## Main definitions

* `Callback.Params.IsSplit` — the fields with a meaning are where they belong
* `Callback.Params.IsBrought` — the callbacks that a browser can bring

## Main results

* `Callback.Params.ofJson_toJson`, `Token.Grant.ofJson_toJson` — what was written is read back
* `Callback.Params.isSplit_of_ofJson` — and what was read was split
* `Callback.Params.written_alike` — the whole round trip
-/

namespace SignIn

open Json

namespace Callback.Params

variable {p q : Params}

/-- The fields with a meaning are where they belong: none of their names is among the others. -/
def IsSplit (p : Params) : Prop := ∀ e ∈ p.extra.entries, e.1 ∉ reserved

/-- A browser can bring this callback, in a form or in a request with a body and a query. -/
def IsBrought (p : Params) : Prop :=
  (∃ form, p = ofForm form) ∨ ∃ body query, p = merge body query

/-- Nothing is found under these names among the others. -/
theorem IsSplit.get? (h : p.IsSplit) {name : String} (hname : name ∈ reserved) :
    p.extra.get? name = none := by
  rw [Dictionary.get?, Option.map_eq_none_iff, List.find?_eq_none]
  intro e he hn
  exact h e he (by rwa [beq_iff_eq.1 hn])

theorem isSplit_ofForm (form : Form) : (ofForm form).IsSplit := by
  intro e he
  obtain ⟨pair, hpair, hname⟩ := Dictionary.name_of_mem_ofPairs he
  rw [← hname]
  simpa using (List.mem_filter.1 hpair).2

theorem IsBrought.isSplit (h : p.IsBrought) : p.IsSplit := by
  obtain ⟨form, rfl⟩ | ⟨body, query, rfl⟩ := h
  · exact isSplit_ofForm form
  · rw [merge]
    split
    · exact isSplit_ofForm query
    · exact isSplit_ofForm body

/-! ### What was written is read back -/

/-- The pairs that are read for written members. -/
def textPairs (members : List (String × String)) : List (String × Found) :=
  members.map fun m => (m.1, .text m.2)

/-- The written members. -/
def textMembers (members : List (String × String)) : List (String × String) :=
  members.map fun m => (m.1, writeText m.2)

/-- All members of a callback are kept, whether they have a meaning or not. -/
theorem keepsTexts_record : record.KeepsTexts Found.text where
  others := ⟨readAny, rfl, takesTexts_readAny⟩
  members := by
    intro m hm
    obtain ⟨name, -, rfl⟩ := List.mem_map.1 hm
    exact takesTexts_map_readText fun _ _ h => Found.text.inj h

theorem isMemberText_writeText (name value : String) :
    IsMemberText (name, writeText value) (name, some value) := by
  have htext := isTextOf_writeText value
  refine ⟨rfl, [], (writeText value).toList, .nil, (List.nil_append _).symm, htext.isValue, ?_⟩
  rintro s ⟨⟩
  exact htext

theorem forall₂_textMembers (members : List (String × String)) :
    List.Forall₂ IsMemberText (textMembers members) (members.map fun m => (m.1, some m.2)) := by
  induction members with
  | nil => exact .nil
  | cons m members ih => exact .cons (isMemberText_writeText m.1 m.2) ih

/-- A written callback has each field with a meaning once. -/
theorem IsSplit.namesOnce (h : p.IsSplit) : record.NamesOnce (p.members.map Prod.fst) := by
  intro name hname
  have hnames : p.members.map Prod.fst = reserved ++ p.extra.entries.map Prod.fst := by
    rw [members, List.map_append]
    rfl
  have hextra : name ∉ p.extra.entries.map Prod.fst := by
    intro hmem
    obtain ⟨e, he, rfl⟩ := List.mem_map.1 hmem
    exact h e he hname
  have hreserved : ∀ name ∈ reserved, reserved.count name ≤ 1 := by decide
  rw [hnames, List.count_append, List.count_eq_zero.2 hextra]
  exact hreserved name hname

theorem fits_members (h : p.IsSplit) :
    Fits record [] (textMembers p.members) (textPairs p.members) :=
  keepsTexts_record.fits h.namesOnce (forall₂_textMembers p.members)

theorem mapM_expectText (others : List (String × String)) :
    (textPairs others).mapM (fun p => do return (p.1, ← expectText p.2)) =
      (.ok others : Except Cause (List (String × String))) := by
  induction others with
  | nil => rfl
  | cons head rest ih =>
    rw [textPairs, List.map_cons, List.mapM_cons]
    rw [textPairs] at ih
    rw [ih]
    rfl

theorem filter_textPairs (h : p.IsSplit) :
    (textPairs p.members).filter (fun m => !reserved.contains m.1) =
      textPairs p.extra.entries := by
  have hothers : ∀ m ∈ textPairs p.extra.entries, (!reserved.contains m.1) = true := by
    intro m hm
    obtain ⟨e, he, rfl⟩ := List.mem_map.1 hm
    simpa using h e he
  rw [members, textPairs, List.map_append, List.filter_append]
  exact List.filter_eq_self.2 hothers

/-- The members of a written callback make up that callback. -/
theorem ofMembers_textPairs (h : p.IsSplit) : ofMembers (textPairs p.members) = .ok p := by
  have hsplit : ofMembers (textPairs p.members) =
      .ok { p with extra := Dictionary.ofPairs p.extra.entries } := by
    rw [ofMembers, filter_textPairs h, mapM_expectText]
    rfl
  rw [hsplit, p.extra.ofPairs_entries]

/-- A callback that was written is read back. -/
theorem ofJson_toJson (h : p.IsSplit) : ofJson (Utf8.encode p.toJson) = .ok p := by
  refine parse_of_readMapping (fun c hpeek => ?_) (fits_members h) (ofMembers_textPairs h)
  rw [read]
  simp only [hpeek]

/-- Two callbacks that are written alike are the same. -/
theorem eq_of_toJson (hp : p.IsSplit) (hq : q.IsSplit) (h : p.toJson = q.toJson) : p = q := by
  have hread := ofJson_toJson hp
  rw [h, ofJson_toJson hq] at hread
  exact (Except.ok.inj hread).symm

/-! ### What was read was split -/

/-- The texts of members are kept under the names of these members. -/
theorem map_fst_of_mapM {pairs : List (String × Found)} {others : List (String × String)}
    (h : pairs.mapM (fun p => do return (p.1, ← expectText p.2)) =
      (.ok others : Except Cause (List (String × String)))) :
    others.map Prod.fst = pairs.map Prod.fst := by
  induction pairs generalizing others with
  | nil =>
    obtain rfl := Except.ok.inj h
    rfl
  | cons head rest ih =>
    rw [List.mapM_cons] at h
    obtain ⟨other, hother, h⟩ := of_bind_eq_ok h
    obtain ⟨text, -, hother⟩ := of_bind_eq_ok hother
    obtain ⟨others', hrest, h⟩ := of_bind_eq_ok h
    obtain rfl := Except.ok.inj hother
    obtain rfl := Except.ok.inj h
    rw [List.map_cons, List.map_cons, ih hrest]

/-- The other fields are made of members without a meaning. -/
theorem isSplit_of_ofMembers {pairs : List (String × Found)} (h : ofMembers pairs = .ok p) :
    p.IsSplit := by
  obtain ⟨others, hothers, h⟩ := of_bind_eq_ok h
  obtain ⟨error, -, h⟩ := of_bind_eq_ok h
  obtain ⟨errorDescription, -, h⟩ := of_bind_eq_ok h
  obtain ⟨idToken, -, h⟩ := of_bind_eq_ok h
  obtain ⟨code, -, h⟩ := of_bind_eq_ok h
  obtain rfl := Except.ok.inj h
  intro e he
  obtain ⟨other, hother, hname⟩ := Dictionary.name_of_mem_ofPairs he
  have hmem : e.1 ∈ (pairs.filter fun m => !reserved.contains m.1).map Prod.fst := by
    rw [← map_fst_of_mapM hothers, ← hname]
    exact List.mem_map_of_mem hother
  obtain ⟨m, hm, hname⟩ := List.mem_map.1 hmem
  rw [← hname]
  simpa using (List.mem_filter.1 hm).2

/-- A callback that was read from a text is split, whatever the text. -/
theorem isSplit_of_ofJson {bs : Bytes} (h : ofJson bs = .ok p) : p.IsSplit := by
  obtain ⟨c', hread, -⟩ := of_parse_eq_ok h
  dsimp only [read] at hread
  split at hread
  · obtain ⟨pairs, -, -, hpairs, -⟩ := of_readMapping_eq_ok hread
    exact isSplit_of_ofMembers hpairs
  · cases hread
  · obtain ⟨found, -, hread⟩ := of_bind_eq_ok hread
    cases hread

end Callback.Params

/-! ### Grants -/

namespace Token.Grant

/-- A grant that was written is read back. -/
theorem ofJson_toJson (g : Grant) : ofJson (Utf8.encode g.toJson) = .ok g := by
  have hfits : Fits record [] [("id_token", writeText g.idToken)] [("id_token", g.idToken)] :=
    .known rfl rfl (reads_writeText g.idToken) (.nil _)
  have hparse : parse record.read (Utf8.encode g.toJson) = .ok [g.idToken] :=
    parse_writeMapping hfits rfl
  rw [ofJson, hparse]
  rfl

end Token.Grant

/-! ### The round trip -/

namespace Callback.Params

/-- A callback that a browser can bring is read back as it was written, and no two of them are
written alike. What was read from a text, however it came about, has none of the four names among
its other fields, and it is read back as well. Grants are read back in the same way. -/
theorem written_alike :
    (∀ p : Params, p.IsBrought → ofJson (Utf8.encode p.toJson) = .ok p) ∧
      (∀ p q : Params, p.IsBrought → q.IsBrought → p.toJson = q.toJson → p = q) ∧
      (∀ (bs : Bytes) (p : Params), ofJson bs = .ok p →
        (∀ name ∈ reserved, p.extra.get? name = none) ∧
          ofJson (Utf8.encode p.toJson) = .ok p) ∧
      (∀ g : Token.Grant, Token.Grant.ofJson (Utf8.encode g.toJson) = .ok g) ∧
      ∀ g g' : Token.Grant, g.toJson = g'.toJson → g = g' := by
  refine ⟨fun p hp => ofJson_toJson hp.isSplit, fun p q hp hq h => ?_, fun bs p h => ⟨?_, ?_⟩,
    Token.Grant.ofJson_toJson, fun g g' h => ?_⟩
  · exact eq_of_toJson hp.isSplit hq.isSplit h
  · intro name hname
    exact (isSplit_of_ofJson h).get? hname
  · exact ofJson_toJson (isSplit_of_ofJson h)
  · have hread := Token.Grant.ofJson_toJson g
    rw [h, Token.Grant.ofJson_toJson g'] at hread
    exact (Except.ok.inj hread).symm

end Callback.Params

end SignIn
