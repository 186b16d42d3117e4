import SignIn.Proofs.Json.Shapes
import SignIn.Proofs.Token.Reply

/-!
# Grants that no mapping says

The body of a grant is meant to be a mapping, and a success with any other body is meant to be a
complaint about the body. But the record of the three members can be read from a sequence as well,
and there the token is the third element. So a sequence of texts is a grant if it has no more than
three of them, and the empty sequence is a grant of the empty token.

That is all. No scalar is a grant, no longer sequence and none with anything else in it, nothing
that breaks off, and nothing with anything but blanks behind it.

A body need not be a text to be looked at: a string that is only passed over can be of any bytes.
Whether a body is a mapping is therefore asked of the text as which it is read in the lossy way. In
a sequence every string is read, so a sequence that is a grant is a text.

## Main results

* `Token.Reply.readBody_of_isSequence` — what is read from a sequence
* `Token.Reply.granted_iff_sequence` — and what is read from all that is no mapping
-/

namespace SignIn.Token.Reply

open Json

variable {texts : List String} {text : List Char} {body : Bytes}

theorem hasDefaults_record : record.HasDefaults "" where
  others := rfl
  read := by
    intro m hm
    obtain ⟨name, -, rfl⟩ := List.mem_map.1 hm
    rfl
  absentAtEnd := by
    intro m hm
    obtain ⟨name, -, rfl⟩ := List.mem_map.1 hm
    rfl

/-- A sequence is read as error, description and ID token, as far as it goes. -/
theorem readBody_of_isSequence (h : IsSequence texts text) (hlength : texts.length ≤ 3) :
    readBody (Utf8.bytes text) =
      .ok (texts.getD 0 "", texts.getD 1 "", texts.getD 2 "") := by
  rw [readBody, Record.parse_of_isSequence hasDefaults_record h hlength]
  rcases texts with _ | ⟨error, _ | ⟨description, _ | ⟨idToken, _ | ⟨s, texts⟩⟩⟩⟩
  · rfl
  · rfl
  · rfl
  · rfl
  · simp only [List.length_cons] at hlength
    omega

/-- Nothing is read from a body that is neither a mapping nor a sequence of at most three texts. -/
theorem readBody_ne_ok (hmapping : ¬IsAnyMapping (Utf8.lossy body))
    (hlong : ∀ texts text, body = Utf8.encode text → IsSequence texts text.toList →
      3 < texts.length) (said : String × String × String) : readBody body ≠ .ok said := by
  intro h
  obtain ⟨values, hread, -⟩ := of_bind_eq_ok h
  obtain hbody | ⟨texts, text, hsequence, hlength, rfl⟩ :=
    Record.shape_of_parse hasDefaults_record hread
  · exact hmapping hbody
  · refine absurd (hlong texts (String.ofList text) ?_ ?_) (Nat.not_lt.2 hlength)
    · rw [Utf8.encode_ofList, Utf8.bytes]
    · rwa [String.toList_ofList]

/-- **Without a mapping only short sequences are grants.** A success whose body is no mapping is a
grant if and only if the body is a sequence of at most three texts, and then it is a grant of the
third, or of the empty token if there is none. With any other body it is a complaint. -/
theorem granted_iff_sequence (body : Bytes) (hbody : ¬IsAnyMapping (Utf8.lossy body)) :
    (∀ idToken, parse true body = .ok (.granted idToken) ↔
      ∃ texts text, body = Utf8.encode text ∧ IsSequence texts text.toList ∧ texts.length ≤ 3 ∧
        idToken = texts.getD 2 "") ∧
    ((∀ texts text, body = Utf8.encode text → IsSequence texts text.toList → 3 < texts.length) →
      ∃ reason, parse true body = .error (.invalidResponse reason)) := by
  have hsequence : ∀ {texts : List String} {text : String}, IsSequence texts text.toList →
      texts.length ≤ 3 → parse true (Utf8.encode text) = .ok (.granted (texts.getD 2 "")) := by
    intro texts text h hlength
    rw [parse.eq_def, Utf8.encode_eq_bytes, readBody_of_isSequence h hlength]
  have hcomplaint : (∀ texts text, body = Utf8.encode text → IsSequence texts text.toList →
      3 < texts.length) → ∃ reason, parse true body = .error (.invalidResponse reason) := by
    intro hlong
    cases hread : readBody body with
    | ok said => exact absurd hread (readBody_ne_ok hbody hlong said)
    | error e => exact ⟨e.message, by rw [parse.eq_def, hread]⟩
  refine ⟨fun idToken => ⟨fun hgranted => ?_, ?_⟩, hcomplaint⟩
  · -- Without such a sequence there would be a complaint.
    by_contra hnone
    have hlong : ∀ texts text, body = Utf8.encode text → IsSequence texts text.toList →
        3 < texts.length := by
      intro texts text htext h
      by_contra hlength
      have hshort := Nat.le_of_not_lt hlength
      rw [htext, hsequence h hshort] at hgranted
      cases hgranted
      exact hnone ⟨texts, text, htext, h, hshort, rfl⟩
    obtain ⟨reason, hreason⟩ := hcomplaint hlong
    rw [hreason] at hgranted
    cases hgranted
  · rintro ⟨texts, text, rfl, h, hlength, rfl⟩
    exact hsequence h hlength

/-- A mapping that breaks off is neither a mapping nor a sequence. -/
theorem granted_iff_sequence_truncated :
    ¬IsAnyMapping (Utf8.lossy (Utf8.encode "\x7b\"id_token\":\"t\"")) ∧
    ∃ reason, parse true (Utf8.encode "\x7b\"id_token\":\"t\"") =
      .error (.invalidResponse reason) := by
  have hbody : ¬IsAnyMapping (Utf8.lossy (Utf8.encode "\x7b\"id_token\":\"t\"")) := by
    intro h
    have hbrace := h.brace_mem
    rw [Utf8.lossy_encode] at hbrace
    exact absurd hbrace (by decide)
  refine ⟨hbody, (granted_iff_sequence _ hbody).2 fun texts text htext hsequence => ?_⟩
  obtain rfl := Utf8.encode_injective htext
  exact absurd hsequence.bracket_mem (by decide)

/-- The string in this mapping is no text. -/
def illFormedBody : Bytes := [0x7B, 0x22, 0x78, 0x22, 0x3A, 0x22, 0xFF, 0x22, 0x7D]

/-- A sequence of three texts is no mapping, but it is a grant. So is a mapping that is no text, if
nobody knows the member with the string that is none. -/
theorem granted_without_mapping :
    (¬IsAnyMapping (Utf8.lossy (Utf8.encode "[\"e\",\"d\",\"t\"]")) ∧
      parse true (Utf8.encode "[\"e\",\"d\",\"t\"]") = .ok (.granted "t")) ∧
    (∀ text, illFormedBody ≠ Utf8.encode text) ∧ parse true illFormedBody = .ok (.granted "") := by
  refine ⟨⟨?_, by decide +kernel⟩, ?_, by decide +kernel⟩
  · intro h
    have hbrace := h.brace_mem
    rw [Utf8.lossy_encode] at hbrace
    exact absurd hbrace (by decide)
  · intro text htext
    have hread : Utf8.decode? illFormedBody = none := by decide +kernel
    rw [htext, Utf8.decode?_encode] at hread
    cases hread

end SignIn.Token.Reply
