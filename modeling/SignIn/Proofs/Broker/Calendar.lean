import SignIn.Proofs.Broker.Client
import SignIn.Proofs.Mock.Client

/-!
# Nonces that outlive the calendar

How long a nonce lives is configured, and it can be configured to live longer than there is time.
Two limits stand in the way of that, one behind the other. A lifetime that is too long to be counted
is noticed and reported. A lifetime that can be counted is added to what the clock shows, and it is
not looked at whether the calendar has the instant at which the nonce would expire.

The first limit is the wider one. It lies beyond the whole calendar, so what it lets through may
still lead out of the calendar, whatever the clock shows. In between an authentication is not
answered at all, although the same lifetime, were it a little longer, would have been reported.

## Main results

* `Broker.Client.latest_lt_of_longestTtl_lt` — the first limit says nothing about the second
* `Broker.Client.authenticate_of_expiry_le`, `Broker.Client.authenticate_of_uncountable`,
  `Broker.Client.authenticate_of_outlived` — an authentication on this side of the limits, beyond
  the first one, and beyond the second one only
* `Broker.Client.authenticate_answers_iff` — which authentications are answered
-/

namespace SignIn.Broker.Client

variable {d : Dialect} {c : Client} {now : Instant} {url : Url}

/-- How a lifetime is refused that is too long to be counted. -/
def uncountable : BrokerError :=
  .protocol "Source duration value is out of range for the target type"

/-- When the nonce of an authentication expires that starts now. -/
def expiry (c : Client) (now : Instant) : Instant := now + c.connection.nonceTtl

/-- The client has not been torn down, and it knows where an authentication starts. -/
def IsReady (d : Dialect) (c : Client) : Prop :=
  c.isDestroyed = false ∧ ∃ url, d.start c.connection = .ok url

/-- What is too long to be counted leads out of the calendar from any of its instants. -/
theorem latest_lt_of_longestTtl_lt (hnow : now.isValid) (h : longestTtl < c.connection.nonceTtl) :
    Instant.latest < c.expiry now := by
  obtain ⟨hearliest, -⟩ := Instant.isValid_iff.1 hnow
  have hearliest : (-8334601228800000 : Int) ≤ now := hearliest
  have hlongest : (9223372036854775807 : Nat) < c.connection.nonceTtl := h
  show (8210266876799999 : Int) < now + (c.connection.nonceTtl : Int)
  omega

/-- A nonce that expires within the calendar starts its authentication. -/
theorem authenticate_of_expiry_le (hnow : now.isValid) (halive : c.isDestroyed = false)
    (hstart : d.start c.connection = .ok url) (h : c.expiry now ≤ Instant.latest)
    (identifier nonce state : String) :
    c.authenticate d identifier nonce state now =
      (.ok (url.appendPairs (d.parameters c.connection identifier nonce state)),
        { c with nonces := c.nonces.put nonce (c.expiry now) }) := by
  have hlongest : c.connection.nonceTtl ≤ longestTtl := Nat.le_of_not_lt fun hlt =>
    Int.not_lt.2 h (latest_lt_of_longestTtl_lt hnow hlt)
  have hvalid : Instant.isValid (now + c.connection.nonceTtl) := by
    obtain ⟨hearliest, -⟩ := Instant.isValid_iff.1 hnow
    refine Instant.isValid_iff.2 ⟨?_, h⟩
    exact Int.le_trans hearliest (Int.le_add_of_nonneg_right (Int.natCast_nonneg _))
  exact authenticate_of_start halive hstart hlongest hvalid identifier nonce state

/-- A lifetime that is too long to be counted is reported. -/
theorem authenticate_of_uncountable (halive : c.isDestroyed = false)
    (hstart : d.start c.connection = .ok url) (h : longestTtl < c.connection.nonceTtl)
    (identifier nonce state : String) :
    c.authenticate d identifier nonce state now = (.error (.broker uncountable), c) := by
  simp [authenticate, halive, hstart, h, uncountable]

/-- A lifetime that can be counted is not answered if it leads out of the calendar. -/
theorem authenticate_of_outlived (halive : c.isDestroyed = false)
    (hstart : d.start c.connection = .ok url) (hlongest : c.connection.nonceTtl ≤ longestTtl)
    (h : Instant.latest < c.expiry now) (identifier nonce state : String) :
    c.authenticate d identifier nonce state now = (.error .calendar, c) := by
  have hinvalid : ¬Instant.isValid (now + c.connection.nonceTtl) := by
    intro hvalid
    exact Int.not_lt.2 (Instant.isValid_iff.1 hvalid).2 h
  have hinsert : c.nonces.insert nonce now c.connection.nonceTtl = none := by
    simp [Nonce.Store.insert, Instant.after?, hinvalid]
  simp [authenticate, halive, hstart, Nat.not_lt.2 hlongest, hinsert]

/-- A client that is not ready says why. -/
theorem authenticate_of_not_isReady (h : ¬c.IsReady d) (identifier nonce state : String) :
    ∃ error, c.authenticate d identifier nonce state now = (.error (.broker error), c) := by
  cases halive : c.isDestroyed with
  | true => exact ⟨.destroyed, by simp [authenticate, halive]⟩
  | false =>
    cases hstart : d.start c.connection with
    | error error => exact ⟨error, by simp [authenticate, halive, hstart]⟩
    | ok url => exact absurd ⟨halive, url, hstart⟩ h

/-- **Which authentications are answered.** A client of the mock broker answers with a URL or with a
reason, unless the lifetime of its nonces can be counted and leads out of the calendar; only then
there is no answer. If the nonce expires within the calendar, the authentication is started and the
nonce is remembered until then. If its lifetime is too long to be counted, that is reported, and so
is whatever keeps the client from being ready. Without a URL nothing is changed. -/
theorem authenticate_answers_iff (flow : Mock.Flow) (mode : Mock.ResponseMode) (c : Client)
    (hnow : now.isValid) (identifier nonce state : String) :
    let d := Mock.dialect flow mode
    let answer := c.authenticate d identifier nonce state now
    ((∃ url, answer.1 = .ok url) ∨ (∃ error, answer.1 = .error (.broker error)) ↔
      ¬(c.IsReady d ∧ c.connection.nonceTtl ≤ longestTtl ∧ Instant.latest < c.expiry now)) ∧
    (c.IsReady d → c.expiry now ≤ Instant.latest → ∃ url, answer =
      (.ok url, { c with nonces := c.nonces.put nonce (c.expiry now) })) ∧
    (c.IsReady d → longestTtl < c.connection.nonceTtl →
      answer = (.error (.broker uncountable), c)) ∧
    (¬c.IsReady d → ∃ error, answer = (.error (.broker error), c)) ∧
    ∀ error, answer.1 = .error error → answer.2 = c := by
  intro d answer
  have hunready : ¬c.IsReady d → ∃ error, answer = (.error (.broker error), c) :=
    fun h => authenticate_of_not_isReady h identifier nonce state
  have hstarted : c.IsReady d → c.expiry now ≤ Instant.latest → ∃ url, answer =
      (.ok url, { c with nonces := c.nonces.put nonce (c.expiry now) }) := by
    rintro ⟨halive, url, hstart⟩ hexpiry
    exact ⟨_, authenticate_of_expiry_le hnow halive hstart hexpiry identifier nonce state⟩
  have huncountable : c.IsReady d → longestTtl < c.connection.nonceTtl →
      answer = (.error (.broker uncountable), c) := by
    rintro ⟨halive, url, hstart⟩ hlongest
    exact authenticate_of_uncountable halive hstart hlongest identifier nonce state
  refine ⟨⟨?_, fun h => ?_⟩, hstarted, huncountable, hunready, ?_⟩
  · rintro hanswered ⟨⟨halive, url, hstart⟩, hlongest, hexpiry⟩
    have hnone : answer = (.error .calendar, c) :=
      authenticate_of_outlived halive hstart hlongest hexpiry identifier nonce state
    simp [hnone] at hanswered
  · by_cases hready : c.IsReady d
    · by_cases hexpiry : c.expiry now ≤ Instant.latest
      · obtain ⟨url, hanswer⟩ := hstarted hready hexpiry
        exact .inl ⟨url, by rw [hanswer]⟩
      · have hlongest : longestTtl < c.connection.nonceTtl := Nat.lt_of_not_le fun hle =>
          h ⟨hready, hle, Int.not_le.1 hexpiry⟩
        exact .inr ⟨uncountable, by rw [huncountable hready hlongest]⟩
    · obtain ⟨error, hanswer⟩ := hunready hready
      exact .inr ⟨error, by rw [hanswer]⟩
  · intro error herror
    obtain ⟨e, hanswer⟩ | ⟨url, -, -, hanswer⟩ :=
      c.authenticate_spec d identifier nonce state now
    · rw [show answer = _ from hanswer]
    · rw [show answer = _ from hanswer] at herror
      contradiction

/-- A client on one machine with its broker, whose nonces live so many seconds. -/
def patientClient (seconds : Nat) : Client :=
  .start {
    brokerUrl := ⟨"http", "", "", some (.domain "localhost"), some 44133, .segments [""], none, none⟩
    redirectUri :=
      ⟨"http", "", "", some (.domain "localhost"), some 44180, .segments ["verify"], none, none⟩
    nonceTtl := .seconds seconds } 0

theorem exists_start_patientClient (seconds : Nat) (flow : Mock.Flow) (mode : Mock.ResponseMode) :
    ∃ url, (Mock.dialect flow mode).start (patientClient seconds).connection = .ok url := by
  have hfound : Mock.IsFound (patientClient seconds).connection.brokerUrl :=
    ⟨rfl, by simp [patientClient, Client.start]⟩
  obtain ⟨url, hstart, -⟩ := Mock.start_dialect hfound flow mode
  exact ⟨url, hstart⟩

/-- Seconds that are one too many to be counted, on a day in 2023. -/
theorem authenticate_answers_iff_uncountable :
    let c := patientClient 9223372036854776
    let now : Instant := 1700000000000
    now.isValid ∧ c.IsReady (Mock.dialect .implicit .query) ∧
      c.authenticate (Mock.dialect .implicit .query) "a@b.com" "n" "" now =
        (.error (.broker uncountable), c) := by
  intro c now
  have hnow : now.isValid := by decide
  have hready : c.IsReady (Mock.dialect .implicit .query) :=
    ⟨rfl, exists_start_patientClient _ _ _⟩
  obtain ⟨-, -, huncountable, -⟩ :=
    authenticate_answers_iff .implicit .query c hnow "a@b.com" "n" ""
  exact ⟨hnow, hready, huncountable hready (by decide)⟩

/-- One second less can be counted, and then there is no answer. -/
theorem authenticate_unanswered :
    let c := patientClient 9223372036854775
    let now : Instant := 1700000000000
    now.isValid ∧ c.authenticate (Mock.dialect .implicit .query) "a@b.com" "n" "" now =
      (.error .calendar, c) := by
  intro c now
  obtain ⟨url, hstart⟩ := exists_start_patientClient 9223372036854775 .implicit .query
  refine ⟨by decide, authenticate_of_outlived rfl hstart (by decide) ?_ "a@b.com" "n" ""⟩
  show (8210266876799999 : Int) < 1700000000000 + ((9223372036854775 * 1000 : Nat) : Int)
  omega

end SignIn.Broker.Client
