import SignIn.Mock.Code
import SignIn.Proofs.Json.Record
import SignIn.Proofs.Text.Base64
import SignIn.Proofs.Text.Form

/-!
# Authorization codes are read back

A code is all that the mock broker remembers of a sign-in, so whoever exchanges it has to find in it
exactly what was put there. That is a mapping in base64, so there are two formats to undo. But there
is none to undo between the mock broker and whoever exchanges the code, although the code comes and
goes in queries and forms: nothing in it needs an escape there.

## Main results

* `Mock.Code.decode?_encode` — a code is read back
* `Mock.Code.codes_survive` — and comes through queries and forms as it is
-/

namespace SignIn.Mock.Code

open Json

/-- The members of a written code are those that are read. -/
theorem fits_record (c : Code) : Fits record []
    [("email", writeText c.email), ("nonce", writeText c.nonce),
      ("client_id", writeText c.clientId), ("redirect_uri", writeText c.redirectUri)]
    [("email", c.email), ("nonce", c.nonce), ("client_id", c.clientId),
      ("redirect_uri", c.redirectUri)] := by
  refine .known rfl rfl (reads_writeText c.email) ?_
  refine .known rfl rfl (reads_writeText c.nonce) ?_
  refine .known rfl rfl (reads_writeText c.clientId) ?_
  exact .known rfl rfl (reads_writeText c.redirectUri) (.nil _)

theorem decode?_encode (c : Code) : decode? c.encode = some c := by
  have hparse : parse record.read (Utf8.encode c.toJson) =
      .ok [c.email, c.nonce, c.clientId, c.redirectUri] :=
    parse_writeMapping (fits_record c) rfl
  rw [decode?, encode, Base64.decode_encode]
  simp only [hparse]

/-- Queries and forms keep every byte of a code. -/
theorem kept_of_mem_encode {c : Code} {b : UInt8} (h : b ∈ Utf8.encode c.encode) :
    Percent.isUnreserved b ∧ Form.isKept b := by
  have hkept : ∀ n < 64, Percent.isUnreserved (Base64.digitByte n) ∧
      Form.isKept (Base64.digitByte n) := by
    decide
  rw [encode, Base64.encode_encode, List.mem_map] at h
  obtain ⟨x, hx, rfl⟩ := h
  obtain ⟨n, hn, rfl⟩ := Base64.digit_of_mem_encodeBytes hx
  exact hkept n hn

/-- **Codes survive.** Whatever texts a code is made of, they are read back from it. It consists of
letters, numerals, hyphens and underscores, so it is written in a query or a form as it is. No two
codes are written alike. -/
theorem codes_survive :
    (∀ c : Code, decode? c.encode = some c) ∧
      (∀ c : Code, ∀ x ∈ c.encode.toList, x.isAlphanum = true ∨ x = '-' ∨ x = '_') ∧
      (∀ c : Code, Percent.component c.encode = c.encode ∧ Form.encodeText c.encode = c.encode) ∧
      ∀ c d : Code, c.encode = d.encode → c = d := by
  refine ⟨decode?_encode, fun c x hx => Base64.plain_of_mem_encode hx, fun c => ⟨?_, ?_⟩,
    fun c d h => ?_⟩
  · exact Percent.encode_of_forall_keep Percent.keepsAscii_isUnreserved fun b hb =>
      (kept_of_mem_encode hb).1
  · exact Form.encodeText_of_isKept fun b hb => (kept_of_mem_encode hb).2
  · have hread := decode?_encode c
    rw [h, decode?_encode d] at hread
    exact (Option.some.inj hread).symm

/-- A code of texts that have to be escaped in the mapping, and one without anything in it. -/
theorem codes_survive_escapes :
    decode? (encode ⟨"\"é\\", "\x00😀", "", "/"⟩) = some ⟨"\"é\\", "\x00😀", "", "/"⟩ ∧
      (∀ x ∈ (encode ⟨"\"é\\", "\x00😀", "", "/"⟩).toList,
        x.isAlphanum = true ∨ x = '-' ∨ x = '_') ∧
      encode ⟨"\"é\\", "\x00😀", "", "/"⟩ ≠ encode ⟨"", "", "", ""⟩ := by
  obtain ⟨hread, hplain, -, hinjective⟩ := codes_survive
  refine ⟨hread _, hplain _, fun h => ?_⟩
  have hsame := hinjective _ _ h
  contradiction

end SignIn.Mock.Code
