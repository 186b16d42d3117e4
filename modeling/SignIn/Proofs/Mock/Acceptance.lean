import SignIn.Proofs.Json.Again
import SignIn.Proofs.Mock.IdToken

/-!
# Which tokens of the mock broker are accepted

Two things have to fit together. A token that was issued is accepted by those whom it names, until
it expires and for a minute of leeway, and by nobody else. And a token that is accepted, wherever it
came from, was signed with the secret and says what it was accepted for.

The second one is not read off the check. The check looks at the claims in a reading of its own,
and what it hands on is another reading of the same text; only because no text can be read in two
ways are the issuer, the audience and the lifetime that were checked those of the claims that are
used. The signature is not opened: nothing here depends on how it is computed.

## Main results

* `Mock.Claims.limits_eq` — both readings of the claims agree
* `Mock.IdToken.decode_issue_iff` — who accepts a token that was issued, and until when
* `Mock.IdToken.of_decode_eq_ok` — what a token that is accepted consists of
* `Mock.IdToken.acceptance_exact` — both together
-/

namespace SignIn.Mock

open Json

/-! ### The two readings of the claims -/

namespace Claims

variable {c : Claims} {l : Limits} {bytes : Bytes}

theorem of_ofValues_eq_some {values : List Value} (h : ofValues values = some c) :
    values = [.inl c.iss, .inl c.aud, .inl c.sub, .inl c.email, .inl c.nonce, .inr c.iat,
      .inr c.exp] := by
  unfold ofValues at h
  split at h
  · cases h
    rfl
  · cases h

theorem isScalar_text : IsScalar (readText.map .inl : Reader Value) := isScalar_readText.map _

theorem isScalar_integer : IsScalar (readInteger.map .inr : Reader Value) :=
  isScalar_readInteger.map _

/-- The claims that limit a token are looked for in the text of all its claims. -/
theorem looksAgain : Limits.record.LooksAgain record where
  others := rfl
  others_again := rfl
  isScalar := by
    simp [record, required, isScalar_text, isScalar_integer]
  attempts := by
    simp [Limits.record, withDefault, isScalar_text.isAttempt, isScalar_integer.isAttempt]
  shared := by
    simp [record, Limits.record, required, withDefault]
  required := by
    simp [record, Json.required]
  shorter := by decide
  pos := by decide

/-- What the second reading finds in a text is what the first one has found. -/
theorem limits_eq (hclaims : ofJson bytes = .ok (some c))
    (hlimits : Limits.ofJson bytes = .ok (some l)) : l = c.limits := by
  obtain ⟨values, hvalues, hclaims⟩ := of_map_eq_ok hclaims
  obtain ⟨values', hvalues', hlimits⟩ := of_map_eq_ok hlimits
  obtain rfl := of_ofValues_eq_some hclaims
  unfold Limits.ofValues at hlimits
  split at hlimits
  · next exp nbf sub iss aud =>
    have hexp : some exp = some (some (.inr c.exp)) :=
      looksAgain.value?_eq hvalues hvalues' "exp" (by decide) (by decide)
    have hiss : some iss = some (some (.inl c.iss)) :=
      looksAgain.value?_eq hvalues hvalues' "iss" (by decide) (by decide)
    have haud : some aud = some (some (.inl c.aud)) :=
      looksAgain.value?_eq hvalues hvalues' "aud" (by decide) (by decide)
    cases hexp
    cases hiss
    cases haud
    exact (Option.some.inj hlimits).symm
  · cases hlimits

end Claims

/-! ### Tokens that are accepted -/

namespace IdToken

variable {token issuer audience : String} {now : Int} {c : Claims} {part : List Char}

/-- A header that can be read has no dot. -/
theorem not_mem_of_readHeader {algorithm : Option String} (h : readHeader part = .ok algorithm) :
    '.' ∉ part := by
  obtain ⟨bytes, hpart, -⟩ := of_bind_eq_ok h
  rw [readPart] at hpart
  split at hpart
  · next hdecode =>
    have hdot := Base64.not_mem_of_decode_eq_ok hdecode
    rwa [String.toList_ofList] at hdot
  · cases hpart

theorem of_ofJson_eq_ok {α : Type} {read : Bytes → Except Json.Error (Option α)} {bytes : Bytes}
    {a : α} (h : ofJson read bytes = .ok a) : read bytes = .ok (some a) := by
  rw [ofJson] at h
  split at h
  · next hread =>
    cases h
    exact hread
  · cases h
  · cases h

/-- What limits the use of a token is what it says. -/
theorem limits_of_readClaims {limits : Limits} (h : readClaims part = .ok (c, limits)) :
    limits = c.limits := by
  obtain ⟨bytes, -, h⟩ := of_bind_eq_ok h
  obtain ⟨claims, hclaims, h⟩ := of_bind_eq_ok h
  obtain ⟨limits, hlimits, h⟩ := of_bind_eq_ok h
  cases h
  exact Claims.limits_eq (of_ofJson_eq_ok hclaims) (of_ofJson_eq_ok hlimits)

/-- Claims can be used until they expire, and a little longer, by those whom they name. -/
theorem checkLimits_eq_ok_iff : checkLimits issuer audience now c.limits = .ok () ↔
    0 ≤ c.exp ∧ now ≤ c.exp + leeway ∧ c.iss = issuer ∧ c.aud = audience := by
  rw [checkLimits_limits]
  split_ifs with hexp hlives hissuer haudience
  · simp [Int.not_le.2 hexp]
  · have hlate : ¬now ≤ c.exp + leeway := by omega
    simp [hlate]
  · simp [hissuer]
  · simp [haudience]
  · exact iff_of_true rfl ⟨by omega, by omega, not_not.1 hissuer, not_not.1 haudience⟩

/-- A text with a dot is what is before the last one and what is behind it. -/
theorem eq_of_splitLast {before behind : List Char}
    (h : splitLast token.toList = some (before, behind)) :
    token = String.ofList before ++ "." ++ String.ofList behind ∧ '.' ∉ behind := by
  obtain ⟨htoken, hbehind⟩ := of_splitLast_eq_some h
  refine ⟨String.toList_inj.1 ?_, hbehind⟩
  simp [htoken]

/-- What is accepted was taken apart into a header, claims and a signature, and all of them were
found to be right. -/
theorem of_decode_eq_ok (h : decode token issuer audience now = .ok c) :
    ∃ header payload : String,
      token = header ++ "." ++ payload ++ "." ++ sign secret (header ++ "." ++ payload) ∧
        '.' ∉ header.toList ∧ '.' ∉ payload.toList ∧
        readHeader header.toList = .ok (some "HS256") ∧
        readClaims payload.toList = .ok (c, c.limits) ∧
        checkLimits issuer audience now c.limits = .ok () := by
  rw [decode] at h
  split at h
  · cases h
  · next message signature hsignature =>
    split at h
    · cases h
    · next header payload hparts =>
      obtain ⟨algorithm, hheader, h⟩ := of_bind_eq_ok h
      dsimp only at h
      by_cases halgorithm : algorithm = some "HS256"
      · rw [if_neg (not_not.2 halgorithm)] at h
        by_cases hsigned : String.ofList signature = sign secret (String.ofList message)
        · rw [if_neg (not_not.2 hsigned)] at h
          obtain ⟨⟨claims, limits⟩, hclaims, h⟩ := of_bind_eq_ok h
          obtain ⟨⟨⟩, hchecked, h⟩ := of_bind_eq_ok h
          cases h
          obtain rfl := limits_of_readClaims hclaims
          obtain ⟨htoken, -⟩ := eq_of_splitLast hsignature
          obtain ⟨hmessage, hpayload⟩ := @eq_of_splitLast (String.ofList message) header payload
            (by rwa [String.toList_ofList])
          refine ⟨String.ofList header, String.ofList payload, ?_, ?_, ?_, ?_, ?_, hchecked⟩
          · rw [← hmessage, ← hsigned]
            exact htoken
          · rw [String.toList_ofList]
            exact not_mem_of_readHeader hheader
          · rwa [String.toList_ofList]
          · rw [String.toList_ofList, hheader, halgorithm]
          · rwa [String.toList_ofList]
        · rw [if_pos hsigned] at h
          cases h
      · rw [if_pos halgorithm] at h
        cases h

/-- A token that was issued is accepted until it expires, and a little longer, by those whom it
names. -/
theorem decode_issue_iff {email nonce issuer' audience' : String} {now' : Int}
    (hiat : Claims.InRange now) (hexp : Claims.InRange (now + lifetime)) :
    decode (issue issuer audience email nonce now) issuer' audience' now' = .ok c ↔
      issuer' = issuer ∧ audience' = audience ∧ now' ≤ now + lifetime + leeway ∧
        c = claims issuer audience email nonce now := by
  let issued := claims issuer audience email nonce now
  have hdecode : decode (issue issuer audience email nonce now) issuer' audience' now' = do
      checkLimits issuer' audience' now' issued.limits
      return issued :=
    decode_ofPayload hiat hexp issuer' audience' now'
  rw [hdecode]
  constructor
  · intro h
    obtain ⟨⟨⟩, hchecked, h⟩ := of_bind_eq_ok h
    obtain ⟨-, hlives, hissuer, haudience⟩ := checkLimits_eq_ok_iff.1 hchecked
    exact ⟨hissuer.symm, haudience.symm, hlives, (Except.ok.inj h).symm⟩
  · rintro ⟨rfl, rfl, hlives, rfl⟩
    have hchecked : checkLimits issuer' audience' now' issued.limits = .ok () :=
      checkLimits_eq_ok_iff.2 ⟨hexp.1, hlives, rfl, rfl⟩
    rw [hchecked]
    rfl

/-- **What is issued is accepted for as long as it lives, and what is accepted is genuine.** Times
are in seconds, and a claim holds at most 63 bits of them. -/
theorem acceptance_exact :
    (∀ (issuer audience email nonce issuer' audience' : String) (now now' : Int), 60 ≤ now →
      now ≤ now' → now + 600 < 1 <<< 63 → ∀ c : Claims,
        decode (issue issuer audience email nonce now) issuer' audience' now' = .ok c ↔
          issuer' = issuer ∧ audience' = audience ∧ now' ≤ now + 600 + 60 ∧
            c = ⟨issuer, audience, email, email, nonce, now, now + 600⟩) ∧
    ∀ (token issuer audience : String) (now : Int) (c : Claims),
      decode token issuer audience now = .ok c →
        (∃ header payload signature : String,
          token = header ++ "." ++ payload ++ "." ++ signature ∧
            (∀ part ∈ [header, payload, signature], '.' ∉ part.toList) ∧
            readHeader header.toList = .ok (some "HS256") ∧
            signature = sign secret (header ++ "." ++ payload) ∧
            readClaims payload.toList = .ok (c, c.limits)) ∧
          c.iss = issuer ∧ c.aud = audience ∧ now ≤ c.exp + 60 := by
  constructor
  · intro issuer audience email nonce issuer' audience' now now' hnow _ hlimit c
    have hiat : Claims.InRange now := ⟨by omega, by omega⟩
    have hexp : Claims.InRange (now + lifetime) := ⟨by rw [lifetime]; omega, hlimit⟩
    exact decode_issue_iff hiat hexp
  · intro token issuer audience now c h
    obtain ⟨header, payload, htoken, hheader, hpayload, halgorithm, hclaims, hchecked⟩ :=
      of_decode_eq_ok h
    obtain ⟨-, hlives, hissuer, haudience⟩ := checkLimits_eq_ok_iff.1 hchecked
    refine ⟨⟨header, payload, _, htoken, ?_, halgorithm, rfl, hclaims⟩, hissuer, haudience, hlives⟩
    simp only [List.forall_mem_cons]
    exact ⟨hheader, hpayload, not_mem_encode _, fun _ h => absurd h List.not_mem_nil⟩

/-- In its last second of leeway a token is still accepted, and what was accepted names its
issuer. -/
theorem acceptance_exact_last_second :
    ∃ c : Claims,
      decode (issue "https://broker.example" "https://rp.example" "a@b.com" "n1" 1700000000)
        "https://broker.example" "https://rp.example" 1700000660 = .ok c ∧
      c.exp = 1700000600 ∧ (1700000660 : Int) ≤ c.exp + 60 := by
  have haccepted :=
    (acceptance_exact.1 "https://broker.example" "https://rp.example" "a@b.com" "n1"
      "https://broker.example" "https://rp.example" 1700000000 1700000660 (by decide) (by decide)
      (by decide) _).2 ⟨rfl, rfl, by decide, rfl⟩
  obtain ⟨-, -, -, hlives⟩ := acceptance_exact.2 _ _ _ _ _ haccepted
  exact ⟨_, haccepted, by decide, hlives⟩

end IdToken

end SignIn.Mock
