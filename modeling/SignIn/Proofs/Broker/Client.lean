import SignIn.Mock.Client
import SignIn.OpenId.Client

/-!
# What the operations of a broker client do

Each operation is described once, by all that it can do. An authentication either changes nothing or
puts one nonce into the store; a verification either changes nothing or takes one nonce out of it;
purging only takes out what is expired. What is proved about clients elsewhere starts from these
descriptions.

They hold for any dialect. What a dialect has to do for them to be of use is to send the nonce
along.

## Main definitions

* `Broker.Dialect.SendsNonce` — the URL of an authentication carries its nonce

## Main results

* `Broker.Client.authenticate_spec`, `Broker.Client.verify_spec`, `Broker.Client.runPurge_spec`
* `Broker.Client.authenticate_of_start`, `Broker.Client.verify_of_check` — when they succeed
* `Broker.Client.verify_of_check_error` — when a token is rejected
* `Broker.sendsNonce_mock`, `Broker.sendsNonce_openId` — the mock broker and any other
-/

namespace SignIn.Broker

/-! ### Dialects -/

/-- The URL of an authentication carries its nonce. -/
def Dialect.SendsNonce (d : Dialect) : Prop :=
  ∀ c identifier nonce state,
    Form.lookup (d.parameters c identifier nonce state) "nonce" = some nonce

theorem sendsNonce_mock (flow : Mock.Flow) (mode : Mock.ResponseMode) :
    (Mock.dialect flow mode).SendsNonce :=
  fun _ _ _ _ => rfl

theorem sendsNonce_openId (endpoint : Url)
    (check : Connection → String → Instant → Except BrokerError Statement) :
    (OpenId.dialectWith endpoint check).SendsNonce :=
  fun _ _ _ _ => rfl

/-! ### Clients -/

namespace Client

variable {d : Dialect} {c : Client} {now : Instant}

/-- An authentication fails and changes nothing, or it is started and its nonce is remembered. -/
theorem authenticate_spec (d : Dialect) (c : Client) (identifier nonce state : String)
    (now : Instant) :
    (∃ error, c.authenticate d identifier nonce state now = (.error error, c)) ∨
      ∃ url, d.start c.connection = .ok url ∧ c.isDestroyed = false ∧
        c.authenticate d identifier nonce state now =
          (.ok (url.appendPairs (d.parameters c.connection identifier nonce state)),
            { c with nonces := c.nonces.put nonce (now + c.connection.nonceTtl) }) := by
  rw [authenticate]
  split
  · exact .inl ⟨_, rfl⟩
  · next halive =>
    cases hstart : d.start c.connection with
    | error e => exact .inl ⟨_, rfl⟩
    | ok url =>
      simp only
      split
      · exact .inl ⟨_, rfl⟩
      · rw [Nonce.Store.insert, Instant.after?]
        by_cases hvalid : Instant.isValid (now + c.connection.nonceTtl)
        · exact .inr ⟨url, rfl, by simpa using halive, by simp [hvalid]⟩
        · exact .inl ⟨.calendar, by simp [hvalid]⟩

/-- A verification fails and changes nothing, or the token is genuine and its nonce is taken out. In
that case it depends on the nonce alone whether the identity of the token is accepted. -/
theorem verify_spec (d : Dialect) (c : Client) (token : String) (now : Instant) :
    (∃ error, c.verify d token now = (.error error, c)) ∨
      ∃ email nonce, d.check c.connection token now = .ok ⟨some email, some nonce⟩ ∧
        token ≠ "" ∧ c.isDestroyed = false ∧
        (c.verify d token now).2 = { c with nonces := c.nonces.erase nonce } ∧
        ((∃ expiry, c.nonces.expiry? nonce = some expiry ∧ now < expiry ∧
            (c.verify d token now).1 = .ok email) ∨
          (c.verify d token now).1 = reject "unknown or expired nonce") := by
  rw [verify]
  split
  · exact .inl ⟨_, rfl⟩
  · next halive =>
    split
    · exact .inl ⟨_, rfl⟩
    · next htoken =>
      split
      · exact .inl ⟨_, rfl⟩
      · exact .inl ⟨_, rfl⟩
      · exact .inl ⟨_, rfl⟩
      · next email nonce hcheck =>
        refine .inr ⟨email, nonce, hcheck, htoken, by simpa using halive, ?_⟩
        rw [Nonce.Store.take]
        cases hexpiry : c.nonces.expiry? nonce with
        | none => exact ⟨rfl, .inr rfl⟩
        | some expiry =>
          by_cases hnow : now < expiry
          · simp [hnow]
          · simp [hnow]

/-- Neither an authentication nor a verification tears a client down, or brings it back. -/
theorem isDestroyed_authenticate (d : Dialect) (c : Client) (identifier nonce state : String)
    (now : Instant) :
    (c.authenticate d identifier nonce state now).2.isDestroyed = c.isDestroyed := by
  obtain ⟨error, h⟩ | ⟨url, -, -, h⟩ := c.authenticate_spec d identifier nonce state now <;> rw [h]

theorem isDestroyed_verify (d : Dialect) (c : Client) (token : String) (now : Instant) :
    (c.verify d token now).2.isDestroyed = c.isDestroyed := by
  obtain ⟨error, h⟩ | ⟨email, nonce, -, -, -, h, -⟩ := c.verify_spec d token now <;> rw [h]

/-- Tearing a client down does, whatever was before. -/
theorem isDestroyed_destroy (c : Client) : c.destroy.isDestroyed = true := by
  rw [destroy]
  split
  · next hdestroyed => exact hdestroyed
  · rfl

/-- An authentication is started if the broker can be reached and the calendar has the instant at
which the nonce expires. -/
theorem authenticate_of_start {url : Url} (halive : c.isDestroyed = false)
    (hstart : d.start c.connection = .ok url) (hlongest : c.connection.nonceTtl ≤ longestTtl)
    (hvalid : Instant.isValid (now + c.connection.nonceTtl)) (identifier nonce state : String) :
    c.authenticate d identifier nonce state now =
      (.ok (url.appendPairs (d.parameters c.connection identifier nonce state)),
        { c with nonces := c.nonces.put nonce (now + c.connection.nonceTtl) }) := by
  have hinsert : c.nonces.insert nonce now c.connection.nonceTtl =
      some (c.nonces.put nonce (now + c.connection.nonceTtl)) := by
    rw [Nonce.Store.insert, Instant.after?, if_pos hvalid, Option.map_some]
  rw [authenticate, halive, if_neg Bool.false_ne_true, hstart]
  simp only [if_neg (Nat.not_lt.2 hlongest), hinsert]

/-- A genuine token is accepted as long as its nonce is not expired. -/
theorem verify_of_check {token email nonce : String} {expiry : Instant}
    (halive : c.isDestroyed = false) (htoken : token ≠ "")
    (hcheck : d.check c.connection token now = .ok ⟨some email, some nonce⟩)
    (hexpiry : c.nonces.expiry? nonce = some expiry) (hnow : now < expiry) :
    c.verify d token now = (.ok email, { c with nonces := c.nonces.erase nonce }) := by
  have htake : c.nonces.take nonce now = (true, c.nonces.erase nonce) := by
    rw [Nonce.Store.take, hexpiry]
    simp [hnow]
  rw [verify, halive, if_neg Bool.false_ne_true, if_neg htoken, hcheck]
  simp only [htake]

/-- A token that is not genuine is rejected, for the reason that it is not. -/
theorem verify_of_check_error {token : String} {error : BrokerError}
    (halive : c.isDestroyed = false) (htoken : token ≠ "")
    (hcheck : d.check c.connection token now = .error error) :
    c.verify d token now = (.error error, c) := by
  rw [verify, halive, if_neg Bool.false_ne_true, if_neg htoken, hcheck]

/-- Purging takes out only what is expired. -/
theorem runPurge_spec (c : Client) (time : Nat) (now : Instant) :
    (c.runPurge time now).connection = c.connection ∧
      (c.runPurge time now).isDestroyed = c.isDestroyed ∧
      ((c.runPurge time now).nonces = c.nonces ∨
        (c.runPurge time now).nonces = (c.nonces.purge now).2) := by
  rw [runPurge]
  cases c.purge with
  | none => exact ⟨rfl, rfl, .inl rfl⟩
  | some task =>
    cases hticks : task.ticksBefore time <;> simp [Nonce.Purge.runBefore, hticks]

end Client

end SignIn.Broker
