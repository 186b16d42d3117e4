import SignIn.Mock.IdToken
import SignIn.Proofs.Json.Record
import SignIn.Proofs.Text.Base64
import SignIn.Proofs.Text.Marks

/-!
# Tokens of the mock broker are accepted

A token that the mock broker issued is accepted by everyone who expects its issuer and audience, for
as long as it lives, and with the claims that were put into it. Base64 has no dot, so the two dots
of a token are those that join its parts, and the signature is checked over the same text that was
signed.

## Main definitions

* `Instant.IsReading` — what the clock shows that tokens are issued by
* `Mock.Claims.limits` — what claims say about the limits of their use

## Main results

* `Mock.Claims.ofJson_toJson` — written claims are read back
* `Mock.IdToken.decode_issue` — a token is accepted while it lives
-/

namespace SignIn

/-- What a clock shows. It starts in 1970, and it ends with the calendar. -/
def Instant.IsReading (t : Instant) : Prop := 0 ≤ t ∧ t ≤ latest

namespace Mock

open Json

/-! ### Claims -/

namespace Claims

/-- The members of written claims. -/
def members (c : Claims) : List (String × String) :=
  [("iss", writeText c.iss), ("aud", writeText c.aud), ("sub", writeText c.sub),
    ("email", writeText c.email), ("nonce", writeText c.nonce), ("iat", writeInteger c.iat),
    ("exp", writeInteger c.exp)]

/-- The values of written claims. -/
def pairs (c : Claims) : List (String × Value) :=
  [("iss", .inl c.iss), ("aud", .inl c.aud), ("sub", .inl c.sub), ("email", .inl c.email),
    ("nonce", .inl c.nonce), ("iat", .inr c.iat), ("exp", .inr c.exp)]

/-- A number that a claim can hold. -/
def InRange (n : Int) : Prop := 0 ≤ n ∧ n < 1 <<< 63

/-- A clock shows seconds that a claim can hold, and so does a clock that is ahead by the time for
which a token lives. -/
theorem inRange_of_isReading {t : Instant} (h : t.IsReading) :
    InRange t.unixSeconds ∧ InRange (t.unixSeconds + IdToken.lifetime) := by
  have hlow : (0 : Int) ≤ t := h.1
  have hhigh : (8210266876799999 : Int) ≥ t := h.2
  have hlifetime : IdToken.lifetime = 600 := rfl
  have hseconds : t.unixSeconds = (t : Int) / 1000 := rfl
  have hlimit : (1 <<< 63 : Int) = 9223372036854775808 := rfl
  unfold InRange
  rw [hlifetime, hseconds, hlimit]
  omega

theorem reads_text (s : String) :
    Reads (readText.map .inl : Reader Value) (writeText s) (.inl s) :=
  (reads_writeText s).map _

theorem reads_integer {n : Int} (h : InRange n) :
    Reads (readInteger.map .inr : Reader Value) (writeInteger n) (.inr n) := by
  obtain ⟨n, rfl⟩ := Int.eq_ofNat_of_zero_le h.1
  have hlimit : (n : Int) ≤ significandLimit := Int.le_trans (Int.le_of_lt h.2) (by decide)
  exact (reads_writeInteger h.2 (Int.ofNat_le.1 hlimit)).map _

variable {c : Claims}

theorem fits_record (hiat : InRange c.iat) (hexp : InRange c.exp) :
    Fits record [] c.members c.pairs := by
  refine .known rfl rfl (reads_text c.iss) ?_
  refine .known rfl rfl (reads_text c.aud) ?_
  refine .known rfl rfl (reads_text c.sub) ?_
  refine .known rfl rfl (reads_text c.email) ?_
  refine .known rfl rfl (reads_text c.nonce) ?_
  refine .known rfl rfl (reads_integer hiat) ?_
  exact .known rfl rfl (reads_integer hexp) (.nil _)

/-- What claims say about their limits. -/
def limits (c : Claims) : Limits where
  exp := (some c.exp).filter (0 ≤ ·)
  iss := some c.iss
  aud := some c.aud

theorem fits_limits (hiat : InRange c.iat) (hexp : InRange c.exp) :
    Fits Limits.record [] c.members [("iss", some (.inl c.iss)), ("aud", some (.inl c.aud)),
      ("sub", some (.inl c.sub)), ("exp", some (.inr c.exp))] := by
  obtain ⟨iat, hiat⟩ := Int.eq_ofNat_of_zero_le hiat.1
  refine .known rfl rfl (reads_text c.iss).attempt ?_
  refine .known rfl rfl (reads_text c.aud).attempt ?_
  refine .known rfl rfl (reads_text c.sub).attempt ?_
  refine .unknown rfl rfl (passes_writeText c.email) ?_
  refine .unknown rfl rfl (passes_writeText c.nonce) ?_
  refine .unknown rfl rfl (hiat ▸ passes_writeInteger iat) ?_
  exact .known rfl rfl (reads_integer hexp).attempt (.nil _)

/-- Written claims are read back. -/
theorem ofJson_toJson (hiat : InRange c.iat) (hexp : InRange c.exp) :
    ofJson (Utf8.encode c.toJson) = .ok (some c) := by
  have hvalues : parse record.read (Utf8.encode c.toJson) = .ok (c.pairs.map Prod.snd) :=
    parse_writeMapping (fits_record hiat hexp) rfl
  rw [ofJson, hvalues]
  rfl

/-- What is looked for in written claims is found. -/
theorem limits_toJson (hiat : InRange c.iat) (hexp : InRange c.exp) :
    Limits.ofJson (Utf8.encode c.toJson) = .ok (some c.limits) := by
  have hvalues : parse Limits.record.read (Utf8.encode c.toJson) =
      .ok [some (.inr c.exp), none, some (.inl c.sub), some (.inl c.iss), some (.inl c.aud)] :=
    parse_writeMapping (fits_limits hiat hexp) rfl
  rw [Limits.ofJson, hvalues]
  rfl

end Claims

/-! ### Tokens -/

namespace IdToken

/-- The text before the last dot and the text behind it. -/
theorem splitLast_append {before behind : List Char} (h : '.' ∉ behind) :
    splitLast (before ++ '.' :: behind) = some (before, behind) := by
  rw [splitLast, Marks.dropWhile_reverse h, Marks.takeWhile_reverse h]
  simp only [List.reverse_reverse]

theorem of_splitLast_eq_some {token before behind : List Char}
    (h : splitLast token = some (before, behind)) :
    token = before ++ '.' :: behind ∧ '.' ∉ behind := by
  rw [splitLast] at h
  split at h
  · next hdrop =>
    cases h
    exact Marks.of_dropWhile_reverse hdrop
  · cases h

/-- Base64 has no dot. -/
theorem not_mem_encode (bs : Bytes) : '.' ∉ (Base64.encode bs).toList := by
  intro h
  obtain ⟨n, hn, hdot⟩ := Base64.digit_of_mem_encode h
  exact (Base64.digit_spec hn).2.2.2 hdot.symm

theorem length_parts_le (header payload signature : Bytes) :
    (Utf8.encode (Base64.encode header ++ "." ++ Base64.encode payload ++ "." ++
      Base64.encode signature)).length ≤
        2 * header.length + 2 * payload.length + 2 * signature.length + 2 := by
  have hdot : Utf8.encode "." = [0x2E] := Utf8.encode_ofList ['.']
  have hheader := Base64.length_encode_le header
  have hpayload := Base64.length_encode_le payload
  have hsignature := Base64.length_encode_le signature
  simp only [Utf8.encode_append, List.length_append, hdot, List.length_singleton]
  omega

/-- A token is twice as long as what it says at most, apart from header and signature. -/
theorem length_issue_le (issuer audience email nonce : String) (now : Int) :
    (Utf8.encode (issue issuer audience email nonce now)).length ≤
      2 * (Utf8.encode (claims issuer audience email nonce now).toJson).length + 120 := by
  have hheader : (Utf8.encode header).length = 27 := by decide +kernel
  let payload := Utf8.encode (claims issuer audience email nonce now).toJson
  let message := Base64.encode (Utf8.encode header) ++ "." ++ Base64.encode payload
  have hparts := length_parts_le (Utf8.encode header) payload
    (Sha256.hmac secret (Utf8.encode message))
  have hsignature : (Sha256.hmac secret (Utf8.encode message)).length = 32 := rfl
  rw [hheader, hsignature] at hparts
  refine Nat.le_trans hparts ?_
  show 2 * 27 + 2 * payload.length + 2 * 32 + 2 ≤ 2 * payload.length + 120
  omega

/-- A token is as long as the identity that it confirms at least. -/
theorem length_le_issue (issuer audience email nonce : String) (now : Int) :
    (Utf8.encode (writeText email)).length ≤
      (Utf8.encode (issue issuer audience email nonce now)).length := by
  let payload := (claims issuer audience email nonce now).toJson
  have hmember : (Utf8.encode (writeText email)).length ≤ (Utf8.encode payload).length := by
    have hmem : ("email", writeText email) ∈ [("iss", writeText issuer),
        ("aud", writeText audience), ("sub", writeText email), ("email", writeText email),
        ("nonce", writeText nonce), ("iat", writeInteger now),
        ("exp", writeInteger (now + lifetime))] :=
      .tail _ (.tail _ (.tail _ (.head _)))
    exact Json.length_le_writeMapping hmem
  have hpayload := Base64.length_le_encode (Utf8.encode payload)
  simp only [issue, ofPayload, signed, Utf8.encode_append, List.length_append]
  show _ ≤ _ + (Utf8.encode (Base64.encode (Utf8.encode payload))).length + _ + _
  omega

/-- The algorithm of the header is one that can be named. -/
theorem reads_readAlgorithm {name : String} (h : algorithms.contains name) :
    Reads readAlgorithm (writeText name) name := by
  intro depth c rest hc _
  obtain ⟨hblanks, hpeek, c', hscan, hc'⟩ := scanText_writeText hc
  refine ⟨c', ?_, hc'⟩
  rw [readAlgorithm]
  simp only [hblanks, hpeek, readName, hscan, ok_bind, h, if_true]
  rfl

/-- A text of a header, which does not count. -/
theorem reads_skippedText (s : String) :
    Reads ((SignIn.Json.optional readText).map fun _ => (none : Option String)) (writeText s)
      none := by
  intro depth c rest hc hrest
  obtain ⟨hblanks, hpeek, -⟩ := scanText_writeText hc
  obtain ⟨c', hread, hc'⟩ := reads_writeText s depth c rest hc hrest
  refine ⟨c', ?_, hc'⟩
  rw [Reader.map, SignIn.Json.optional]
  simp only [hblanks, hpeek, hread, ok_bind]
  rfl

theorem fits_headerRecord :
    Fits headerRecord [] [("typ", writeText "JWT"), ("alg", writeText "HS256")]
      [("typ", none), ("alg", some "HS256")] := by
  refine .known rfl rfl (reads_skippedText "JWT") ?_
  exact .known rfl rfl ((reads_readAlgorithm rfl).map _) (.nil _)

theorem header_eq :
    header = writeMapping [("typ", writeText "JWT"), ("alg", writeText "HS256")] := by
  decide

theorem readPart_encode (bs : Bytes) : readPart (Base64.encode bs).toList = .ok bs := by
  rw [readPart, String.ofList_toList, Base64.decode_encode]

theorem readHeader_header :
    readHeader (Base64.encode (Utf8.encode header)).toList = .ok (some "HS256") := by
  have hparse : parse headerRecord.read (Utf8.encode header) =
      .ok [none, some "HS256", none, none, none, none, none, none, none, none] := by
    rw [header_eq]
    exact parse_writeMapping fits_headerRecord rfl
  rw [readHeader, readPart_encode]
  simp only [ok_bind, hparse]
  rfl

theorem readClaims_toJson {c : Claims} (hiat : Claims.InRange c.iat) (hexp : Claims.InRange c.exp) :
    readClaims (Base64.encode (Utf8.encode c.toJson)).toList = .ok (c, c.limits) := by
  rw [readClaims, readPart_encode]
  simp only [ok_bind, ofJson, Claims.ofJson_toJson hiat hexp, Claims.limits_toJson hiat hexp]
  rfl

/-- What is checked of claims. -/
theorem checkLimits_limits (issuer audience : String) (now : Int) (c : Claims) :
    checkLimits issuer audience now c.limits =
      if c.exp < 0 then .error .noExpiry
      else if c.exp < now - leeway then .error .expired
      else if c.iss ≠ issuer then .error .issuer
      else if c.aud ≠ audience then .error .audience
      else .ok () := by
  by_cases hexp : c.exp < 0
  · have hlimits : c.limits.exp = none := by
      simp [Claims.limits, hexp]
    rw [checkLimits, hlimits, if_pos hexp]
  · have hlimits : c.limits.exp = some c.exp := by
      simpa [Claims.limits] using hexp
    rw [checkLimits, hlimits, if_neg hexp]
    simp [Claims.limits]

/-- A token with written claims is taken apart into these claims, which are still to be checked. -/
theorem decode_ofPayload {c : Claims} (hiat : Claims.InRange c.iat) (hexp : Claims.InRange c.exp)
    (issuer audience : String) (now : Int) :
    decode (ofPayload secret c.toJson) issuer audience now = do
      checkLimits issuer audience now c.limits
      return c := by
  let headerPart := Base64.encode (Utf8.encode header)
  let claimsPart := Base64.encode (Utf8.encode c.toJson)
  let message := headerPart ++ "." ++ claimsPart
  have htoken : (ofPayload secret c.toJson).toList =
      message.toList ++ '.' :: (sign secret message).toList := by
    simp [ofPayload, signed, message, headerPart, claimsPart]
  have hsignature : splitLast (ofPayload secret c.toJson).toList =
      some (message.toList, (sign secret message).toList) := by
    rw [htoken]
    exact splitLast_append (not_mem_encode _)
  have hparts : splitLast message.toList = some (headerPart.toList, claimsPart.toList) := by
    have hmessage : message.toList = headerPart.toList ++ '.' :: claimsPart.toList := by
      simp [message]
    rw [hmessage]
    exact splitLast_append (not_mem_encode _)
  rw [decode, hsignature]
  simp only [hparts, headerPart, claimsPart, readHeader_header, readClaims_toJson hiat hexp,
    ok_bind, String.ofList_toList, ne_eq, not_true_eq_false, if_false]

/-- While a token lives, and a little longer, it only matters whom it names. -/
theorem decode_issue_eq {issuer audience email nonce : String} {now now' : Int}
    (hiat : Claims.InRange now) (hexp : Claims.InRange (now + lifetime))
    (hnow : now' ≤ now + lifetime + leeway) (issuer' audience' : String) :
    decode (issue issuer audience email nonce now) issuer' audience' now' =
      if issuer ≠ issuer' then .error .issuer
      else if audience ≠ audience' then .error .audience
      else .ok (claims issuer audience email nonce now) := by
  have hlives : ¬(claims issuer audience email nonce now).exp < now' - leeway := by
    simp only [claims]
    omega
  have hpositive : ¬(claims issuer audience email nonce now).exp < 0 := Int.not_lt.2 hexp.1
  rw [issue, decode_ofPayload hiat hexp, checkLimits_limits, if_neg hpositive, if_neg hlives]
  by_cases hissuer : issuer = issuer'
  · by_cases haudience : audience = audience'
    · simp [claims, hissuer, haudience]
    · simp [claims, hissuer, haudience]
  · simp [claims, hissuer]

/-- A token is accepted while it lives, and a little longer, by those whom it names. -/
theorem decode_issue {issuer audience email nonce : String} {now now' : Int}
    (hiat : Claims.InRange now) (hexp : Claims.InRange (now + lifetime))
    (hnow : now' ≤ now + lifetime + leeway) :
    decode (issue issuer audience email nonce now) issuer audience now' =
      .ok (claims issuer audience email nonce now) := by
  rw [decode_issue_eq hiat hexp hnow, if_neg (not_not.2 rfl), if_neg (not_not.2 rfl)]

end IdToken

end Mock

end SignIn
