import Mathlib.Data.Bool.AllAny
import SignIn.Text.Html

/-!
# Escaped texts are read back

A text is escaped in five passes, and every pass but the first goes over what the earlier ones have
written. It is as if there had been one pass, because a pass works on each character by itself. So
the passes can be followed for a single character: the one for the ampersand comes first, and what
it writes is left alone by all others.

An entity begins with `&`, and `&` itself is always written as an entity. So a browser that replaces
entities from left to right finds exactly those that were written, whatever the text is. None of the
characters that end an attribute or begin a tag is left in an escaped text.

## Main results

* `Html.toList_escape` — five passes are one
* `Html.unescape_escape` — an escaped text is read back
* `Html.ne_of_mem_escape` — which characters an escaped text does not hold
* `Html.exists_entity_of_escape` — where there is an ampersand in an escaped text
-/

namespace SignIn.Html

/-! ### Five passes -/

/-- Passes over a text are passes over each of its characters. The induction is on the passes. -/
theorem foldl_replace (passes : List (Char × String)) (cs : List Char) :
    passes.foldl replace cs = cs.flatMap fun c => passes.foldl replace [c] := by
  induction passes generalizing cs with
  | nil => simp
  | cons p passes ih =>
    have hone (c : Char) : (p :: passes).foldl replace [c] =
        (if c = p.1 then p.2.toList else [c]).flatMap fun d => passes.foldl replace [d] := by
      rw [List.foldl_cons, ih, replace, List.flatMap_singleton]
    rw [List.foldl_cons, ih, replace, List.flatMap_assoc]
    simp only [hone]

theorem replace_singleton_of_ne {c : Char} {p : Char × String} (h : c ≠ p.1) :
    replace [c] p = [c] := by
  rw [replace, List.flatMap_singleton, if_neg h]

/-- What becomes of a single character in the five passes. -/
theorem foldl_replace_singleton (c : Char) : replacements.foldl replace [c] = (entity c).toList := by
  unfold entity
  split
  · decide
  · decide
  · decide
  · decide
  · decide
  · next hamp hlt hgt hquote hapostrophe =>
    rw [replacements, List.foldl_cons, replace_singleton_of_ne hamp, List.foldl_cons,
      replace_singleton_of_ne hlt, List.foldl_cons, replace_singleton_of_ne hgt, List.foldl_cons,
      replace_singleton_of_ne hquote, List.foldl_cons, replace_singleton_of_ne hapostrophe,
      String.toList_singleton]
    rfl

/-- **Five passes are one**, in which each character is written once. -/
theorem toList_escape (s : String) :
    (escape s).toList = s.toList.flatMap fun c => (entity c).toList := by
  rw [escape, String.toList_ofList, foldl_replace]
  simp only [foldl_replace_singleton]

theorem escape_append (s t : String) : escape (s ++ t) = escape s ++ escape t := by
  refine String.toList_inj.1 ?_
  rw [String.toList_append, toList_escape, toList_escape, toList_escape, String.toList_append,
    List.flatMap_append]

/-! ### Reading back -/

/-- A character that does not begin an entity stands for itself. -/
theorem unescapeChars_cons {c : Char} (h : c ≠ '&') (rest : List Char) :
    unescapeChars (c :: rest) = c :: unescapeChars rest := by
  rw [unescapeChars.eq_def]
  split <;> simp_all

/-- What is written for a character is read as that character, whatever stands behind it. -/
theorem unescapeChars_entity (c : Char) (rest : List Char) :
    unescapeChars ((entity c).toList ++ rest) = c :: unescapeChars rest := by
  unfold entity
  split
  · rfl
  · rfl
  · rfl
  · rfl
  · rfl
  · next h _ _ _ _ =>
    rw [String.toList_singleton, List.singleton_append]
    exact unescapeChars_cons h rest

/-- An escaped text is read back. -/
@[simp]
theorem unescape_escape (s : String) : unescape (escape s) = s := by
  have hchars : ∀ cs : List Char, unescapeChars (cs.flatMap fun c => (entity c).toList) = cs := by
    intro cs
    induction cs with
    | nil => rfl
    | cons c cs ih => rw [List.flatMap_cons, unescapeChars_entity, ih]
  rw [unescape, toList_escape, hchars, String.ofList_toList]

theorem escape_injective : Function.Injective escape :=
  Function.LeftInverse.injective unescape_escape

/-! ### What is in an escaped text -/

/-- What a browser takes for the begin or the end of a tag or of an attribute. -/
def marks : List Char := ['<', '>', '"', '\'']

theorem not_mem_entity {c : Char} (h : c ∈ marks) (d : Char) : c ∉ (entity d).toList := by
  have hentities : ∀ p ∈ replacements, ∀ c ∈ marks, c ∉ p.2.toList := by
    simp [replacements, marks]
  unfold entity
  split
  · exact hentities ('&', _) (by decide) c h
  · exact hentities ('<', _) (by decide) c h
  · exact hentities ('>', _) (by decide) c h
  · exact hentities ('"', _) (by decide) c h
  · exact hentities ('\'', _) (by decide) c h
  · next hlt hgt hquote hapostrophe =>
    rw [String.toList_singleton, List.mem_singleton]
    rintro rfl
    simp only [marks, List.mem_cons, List.not_mem_nil, or_false] at h
    obtain h | h | h | h := h
    · exact hlt h
    · exact hgt h
    · exact hquote h
    · exact hapostrophe h

/-- No tag and no attribute begins or ends in an escaped text. -/
theorem not_mem_escape {c : Char} (h : c ∈ marks) (s : String) : c ∉ (escape s).toList := by
  rw [toList_escape, List.mem_flatMap]
  rintro ⟨d, -, hc⟩
  exact not_mem_entity h d hc

/-- The characters of an escaped text neither end a quoted attribute nor begin or end a tag. -/
theorem ne_of_mem_escape {s : String} {c : Char} (h : c ∈ (escape s).toList) :
    c ≠ '"' ∧ c ≠ '<' ∧ c ≠ '>' := by
  refine ⟨?_, ?_, ?_⟩ <;> rintro rfl <;> exact not_mem_escape (by decide) s h

/-- An ampersand in what is written for a character is the first character of an entity. -/
theorem of_entity_eq_append {d : Char} {before behind : List Char}
    (h : (entity d).toList = before ++ '&' :: behind) :
    before = [] ∧ entity d ∈ replacements.map Prod.snd := by
  have htails : ∀ e ∈ replacements.map Prod.snd, '&' ∉ e.toList.tail := by decide
  have hentity {e : String} (he : e ∈ replacements.map Prod.snd)
      (h : e.toList = before ++ '&' :: behind) : before = [] ∧ e ∈ replacements.map Prod.snd := by
    refine ⟨?_, he⟩
    cases before with
    | nil => rfl
    | cons c before =>
      have htail : e.toList.tail = before ++ '&' :: behind := congrArg List.tail h
      exact absurd (htail ▸ List.mem_append_right _ List.mem_cons_self) (htails e he)
  unfold entity at h ⊢
  split at h
  · exact hentity (by decide) h
  · exact hentity (by decide) h
  · exact hentity (by decide) h
  · exact hentity (by decide) h
  · exact hentity (by decide) h
  · next hamp _ _ _ _ =>
    have hmem : '&' ∈ (String.singleton d).toList := h ▸ List.mem_append_right _ List.mem_cons_self
    rw [String.toList_singleton, List.mem_singleton] at hmem
    exact absurd hmem.symm hamp

/-- Where there is an ampersand in an escaped text, an entity begins. -/
theorem exists_entity_of_escape {s : String} {before behind : List Char}
    (h : (escape s).toList = before ++ '&' :: behind) :
    ∃ e ∈ replacements.map Prod.snd, e.toList <+: '&' :: behind := by
  rw [toList_escape] at h
  generalize s.toList = cs at h
  induction cs generalizing before with
  | nil => simp at h
  | cons d cs ih =>
    rw [List.flatMap_cons, List.append_eq_append_iff] at h
    obtain ⟨between, rfl, hrest⟩ | ⟨tail, hentity, hbehind⟩ := h
    · exact ih hrest
    · cases tail with
      | nil =>
        have hnext : (cs.flatMap fun c => (entity c).toList) = [] ++ '&' :: behind := hbehind.symm
        exact ih hnext
      | cons c tail =>
        obtain ⟨rfl, hbehind⟩ := List.cons.inj hbehind
        obtain ⟨rfl, he⟩ := of_entity_eq_append hentity
        exact ⟨entity d, he, _, by rw [hentity, hbehind]; rfl⟩

end SignIn.Html
