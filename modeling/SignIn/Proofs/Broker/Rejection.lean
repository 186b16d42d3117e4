import SignIn.Proofs.Broker.Client
import SignIn.Proofs.Url.Query

/-!
# A rejected token costs nothing

Whoever waits for a token to come back is not disturbed by the tokens of others. A forged token, or
one that comes too late, cannot take away a nonce with which somebody may still sign in: the nonce
of a token is looked at only when nothing else is wrong with the token, and if it is taken out all
the same, it could not have been redeemed any more.

A store may therefore lose something to a rejected token, but nothing that is alive. This is why the
statement is about live nonces and not about the store as a whole. An authentication that is not
started, in contrast, leaves the whole client as it was.

The mock broker and any other broker are treated alike. What their tokens are checked for plays no
part here, and neither does the state in which a client is.

## Main definitions

* `Nonce.Store.live?` — when a nonce expires that can still be redeemed
* `Broker.Client.DiffersAt` — nothing of a client is different but one nonce
* `Broker.Dialect.Spares` — what a client does to the nonces that it was not asked about

## Main results

* `Broker.Client.live?_of_rejected`, `Broker.Client.differsAt_of_accepted` — verifications
* `Broker.Client.differsAt_of_started` — authentications
* `Broker.live_nonces_spared` — all of it, for clients of the mock broker and of any other broker
-/

namespace SignIn

namespace Nonce.Store

variable {s : Store} {now expiry : Instant} {nonce other : String}

/-- When a nonce expires that can still be redeemed at a reading of the clock. -/
def live? (s : Store) (now : Instant) (nonce : String) : Option Instant :=
  (s.expiry? nonce).filter (now < ·)

theorem live?_eq_some_iff :
    s.live? now nonce = some expiry ↔ s.expiry? nonce = some expiry ∧ now < expiry := by
  simp [live?, Option.filter_eq_some_iff]

/-- Taking out a nonce that cannot be redeemed takes out nothing that can. -/
theorem live?_erase (h : s.live? now nonce = none) :
    (s.erase nonce).live? now other = s.live? now other := by
  by_cases hother : other = nonce
  · rw [hother, h, live?, expiry?_erase, if_pos rfl, Option.filter_none]
  · rw [live?, expiry?_erase, if_neg hother, live?]

end Nonce.Store

namespace Broker

namespace Client

variable {d : Dialect} {c client : Client} {now : Instant}
  {token email identifier nonce state : String}

/-- Nothing of the client is different but this nonce, which now expires at the given time, or is
not there. -/
structure DiffersAt (c : Client) (nonce : String) (expiry : Option Instant) (client : Client) :
    Prop where
  atNonce : client.nonces.expiry? nonce = expiry
  elsewhere : ∀ other ≠ nonce, client.nonces.expiry? other = c.nonces.expiry? other
  rest : { client with nonces := c.nonces } = c

theorem differsAt_erase (c : Client) (nonce : String) :
    c.DiffersAt nonce none { c with nonces := c.nonces.erase nonce } where
  atNonce := by simp
  elsewhere other hother := by simp [hother]
  rest := rfl

theorem differsAt_put (c : Client) (nonce : String) (expiry : Instant) :
    c.DiffersAt nonce (some expiry) { c with nonces := c.nonces.put nonce expiry } where
  atNonce := by simp
  elsewhere other hother := by simp [hother]
  rest := rfl

/-! ### Verifications -/

/-- When a token is accepted: the client is in use, the token is genuine and its nonce is alive. -/
structure Accepts (d : Dialect) (c : Client) (now : Instant) (token email nonce : String) :
    Prop where
  inUse : c.isDestroyed = false
  nonempty : token ≠ ""
  genuine : d.check c.connection token now = .ok ⟨some email, some nonce⟩
  alive : (c.nonces.live? now nonce).isSome

theorem verify_of_accepts (h : c.Accepts d now token email nonce) :
    c.verify d token now = (.ok email, { c with nonces := c.nonces.erase nonce }) := by
  obtain ⟨expiry, hexpiry⟩ := Option.isSome_iff_exists.1 h.alive
  obtain ⟨hexpiry, hnow⟩ := Nonce.Store.live?_eq_some_iff.1 hexpiry
  exact verify_of_check h.inUse h.nonempty h.genuine hexpiry hnow

/-- A token is accepted under these conditions and under no others. -/
theorem exists_accepts (h : (c.verify d token now).1 = .ok email) :
    ∃ nonce, c.Accepts d now token email nonce := by
  obtain ⟨error, hanswer⟩ | ⟨email', nonce, hcheck, htoken, halive, -, haccepts⟩ :=
    c.verify_spec d token now
  · rw [hanswer] at h
    contradiction
  · obtain ⟨expiry, hexpiry, hnow, hanswer⟩ | hanswer := haccepts
    · obtain rfl : email' = email := Except.ok.inj (hanswer.symm.trans h)
      have hlive := Nonce.Store.live?_eq_some_iff.2 ⟨hexpiry, hnow⟩
      exact ⟨nonce, halive, htoken, hcheck, Option.isSome_of_eq_some hlive⟩
    · rw [hanswer] at h
      contradiction

/-- An accepted token takes its nonce out, and nothing else. -/
theorem differsAt_of_accepted (h : c.verify d token now = (.ok email, client)) :
    ∃ nonce, c.Accepts d now token email nonce ∧ c.DiffersAt nonce none client := by
  obtain ⟨nonce, haccepts⟩ := exists_accepts (congrArg Prod.fst h)
  obtain ⟨-, rfl⟩ := Prod.mk.inj ((verify_of_accepts haccepts).symm.trans h)
  exact ⟨nonce, haccepts, c.differsAt_erase nonce⟩

/-- A rejected token takes nothing out that is alive. It may take out its own nonce, but only if
that had been too late for any token. -/
theorem live?_of_rejected {error : BrokerError}
    (h : c.verify d token now = (.error error, client)) :
    (∀ nonce, client.nonces.live? now nonce = c.nonces.live? now nonce) ∧
      { client with nonces := c.nonces } = c := by
  obtain ⟨error', hanswer⟩ | ⟨email, nonce, hcheck, htoken, halive, hclient, -⟩ :=
    c.verify_spec d token now
  · obtain ⟨-, rfl⟩ := Prod.mk.inj (hanswer.symm.trans h)
    exact ⟨fun _ => rfl, rfl⟩
  · have hdead : c.nonces.live? now nonce = none := by
      refine Option.eq_none_iff_forall_ne_some.2 fun expiry hlive => ?_
      have haccepts : c.Accepts d now token email nonce :=
        ⟨halive, htoken, hcheck, Option.isSome_of_eq_some hlive⟩
      rw [verify_of_accepts haccepts] at h
      cases h
    rw [h] at hclient
    obtain rfl : client = _ := hclient
    exact ⟨fun other => Nonce.Store.live?_erase hdead, rfl⟩

/-! ### Authentications -/

/-- An authentication that is not started changes nothing. -/
theorem eq_of_unstarted {error : StartError}
    (h : c.authenticate d identifier nonce state now = (.error error, client)) : client = c := by
  obtain ⟨error', hanswer⟩ | ⟨url, -, -, hanswer⟩ :=
    c.authenticate_spec d identifier nonce state now
  · exact (Prod.mk.inj (h.symm.trans hanswer)).2
  · have hfailed := (Prod.mk.inj (h.symm.trans hanswer)).1
    contradiction

/-- An authentication that is started puts its nonce in, and nothing else. -/
theorem differsAt_of_started {url : Url}
    (h : c.authenticate d identifier nonce state now = (.ok url, client)) :
    c.DiffersAt nonce (some (now + c.connection.nonceTtl)) client ∧
      ∃ start, d.start c.connection = .ok start ∧
        url.pairs = start.pairs ++ d.parameters c.connection identifier nonce state := by
  obtain ⟨error, hanswer⟩ | ⟨start, hstart, -, hanswer⟩ :=
    c.authenticate_spec d identifier nonce state now
  · have hfailed := (Prod.mk.inj (h.symm.trans hanswer)).1
    contradiction
  · obtain ⟨hurl, rfl⟩ := Prod.mk.inj (h.symm.trans hanswer)
    refine ⟨c.differsAt_put nonce _, start, hstart, ?_⟩
    rw [Except.ok.inj hurl, Url.pairs_appendPairs]

end Client

/-! ### Both brokers -/

/-- What a client of this dialect does to its nonces at a reading of the clock. Only an accepted
token takes out a nonce that is alive, and that is its own; it is accepted if nothing is wrong with
it. Only an authentication that is started puts a nonce in, and that is the one in its URL. -/
structure Dialect.Spares (d : Dialect) (c : Client) (now : Instant) : Prop where
  rejected : ∀ token error client, c.verify d token now = (.error error, client) →
    (∀ nonce, client.nonces.live? now nonce = c.nonces.live? now nonce) ∧
      { client with nonces := c.nonces } = c
  accepted : ∀ token email client, c.verify d token now = (.ok email, client) →
    ∃ nonce, c.Accepts d now token email nonce ∧ c.DiffersAt nonce none client
  accepts : ∀ token email nonce, c.Accepts d now token email nonce →
    (c.verify d token now).1 = .ok email
  unstarted : ∀ identifier nonce state error client,
    c.authenticate d identifier nonce state now = (.error error, client) → client = c
  started : ∀ identifier nonce state url client,
    c.authenticate d identifier nonce state now = (.ok url, client) →
      Form.lookup url.pairs "nonce" = some nonce ∧
        c.DiffersAt nonce (some (now + c.connection.nonceTtl)) client

/-- All that matters of a dialect is that its URLs carry the nonce. -/
theorem Dialect.SendsNonce.spares {d : Dialect} (hd : d.SendsNonce) (c : Client) (now : Instant) :
    d.Spares c now where
  rejected _ _ _ h := Client.live?_of_rejected h
  accepted _ _ _ h := Client.differsAt_of_accepted h
  accepts _ _ _ h := congrArg Prod.fst (Client.verify_of_accepts h)
  unstarted _ _ _ _ _ h := Client.eq_of_unstarted h
  started identifier nonce state url client h := by
    obtain ⟨hdiffers, start, -, hpairs⟩ := Client.differsAt_of_started h
    refine ⟨?_, hdiffers⟩
    rw [hpairs, Form.lookup_append, hd c.connection identifier nonce state]
    rfl

/-- **A rejected token costs nothing.** Whatever state a client is in and whatever the clock shows,
the nonces that are alive are the same after a token was rejected, for whatever reason, and expire
at the same times. A token that is accepted takes out one nonce, which is its own and was alive, and
leaves all others as they were. An authentication that is not started leaves the client as it was,
and one that is started puts in the nonce of its URL, until the time for it is over, and leaves all
others as they were. This holds of clients of the mock broker and of any other broker, however its
tokens are checked. -/
theorem live_nonces_spared (c : Client) (now : Instant) :
    (∀ flow mode, (Mock.dialect flow mode).Spares c now) ∧
      ∀ endpoint check, (OpenId.dialectWith endpoint check).Spares c now :=
  ⟨fun flow mode => (sendsNonce_mock flow mode).spares c now,
    fun endpoint check => (sendsNonce_openId endpoint check).spares c now⟩

end Broker

end SignIn
