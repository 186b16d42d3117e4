import SignIn.Party.Instance
import SignIn.Proofs.Broker.Client

/-!
# What happens while a user is away

Between the start of an authentication and its callback the user is at the broker, and the relying
party goes on: it starts other authentications, verifies other tokens, rejects what cannot be
accepted, and the purging takes its turns. None of this keeps the nonce of the authentication from
being redeemed before it expires. What would is a second redemption of the same nonce, and the end
of the client.

The clock may stand still, but it never goes back. An authentication that happens to have the same
nonce only makes it live longer.

## Main definitions

* `Party.State.Redeems` — the token is accepted and uses up the nonce
* `Party.Meanwhile` — what happens without the nonce being redeemed
* `Party.Awaits` — the nonce can be redeemed until it expires

## Main results

* `Party.Meanwhile.resume` — the handling of other requests is of that kind
* `Party.Awaits.meanwhile` — nothing that happens meanwhile changes this
-/

namespace SignIn.Party

variable {μ : Type}

/-- The token is accepted, and the nonce in it is used up. -/
def State.Redeems (d : Broker.Dialect) (nonce token : String) (s : State μ) : Prop :=
  ∃ email, d.check s.client.connection token s.now = .ok ⟨some email, some nonce⟩ ∧
    (s.verify d token).2 = .now (.ok email)

/-- What happens at a relying party without this nonce being redeemed, one thing behind the
other. -/
inductive Meanwhile (d : Broker.Dialect) (nonce : String) (s : State μ) : State μ → Prop where
  /-- Nothing. -/
  | nothing : Meanwhile d nonce s s
  /-- An authentication is started, or fails to start. -/
  | authenticate {t : State μ} (h : Meanwhile d nonce s t) (identifier : String) :
    Meanwhile d nonce s (t.authenticate d identifier).1
  /-- A token is rejected, or accepted for another nonce. -/
  | verify {t : State μ} (h : Meanwhile d nonce s t) {token : String}
      (htoken : ¬t.Redeems d nonce token) :
    Meanwhile d nonce s (t.verify d token).1
  /-- Time passes, and the purging does what is due. -/
  | passTime {t : State μ} (h : Meanwhile d nonce s t) (time : Nat) {now : Instant}
      (hnow : t.now ≤ now) :
    Meanwhile d nonce s (t.passTime time now)
  /-- Something happens to the listeners or the log. -/
  | aside {t u : State μ} (h : Meanwhile d nonce s t) (hclient : u.client = t.client)
      (hnow : u.now = t.now) :
    Meanwhile d nonce s u

variable {d : Broker.Dialect} {nonce : String} {s t u : State μ}

theorem Meanwhile.trans (h : Meanwhile d nonce s t) (h' : Meanwhile d nonce t u) :
    Meanwhile d nonce s u := by
  induction h' with
  | nothing => exact h
  | authenticate _ identifier ih => exact ih.authenticate identifier
  | verify _ htoken ih => exact ih.verify htoken
  | passTime _ time hnow ih => exact ih.passTime time hnow
  | aside _ hclient hnow ih => exact ih.aside hclient hnow

/-! ### Requests -/

/-- Announcing a verdict does nothing to the client and takes no time. -/
theorem Setup.announce_client (setup : Setup μ) (p : Callback.Params) (verdict : Callback.Verdict)
    (s : State μ) : (setup.service.announce p verdict s).client = s.client ∧
      (setup.service.announce p verdict s).now = s.now := by
  have hpublish : (setup.service.publish (verdict.event p) s).1.client = s.client ∧
      (setup.service.publish (verdict.event p) s).1.now = s.now := by
    show (s.publish setup.nesting (verdict.event p)).1.client = s.client ∧
      (s.publish setup.nesting (verdict.event p)).1.now = s.now
    rw [State.publish]
    split
    · exact ⟨rfl, rfl⟩
    · exact ⟨rfl, rfl⟩
  rw [Callback.Parties.announce]
  simp only
  split
  · exact hpublish
  · exact hpublish

/-- Whatever request is handled, its next step is something that happens meanwhile, unless it
redeems the nonce. The exchange of a code may take time, in which others go on. -/
theorem Meanwhile.resume {setup : Setup μ} (job : Job) (s : State μ)
    (hexchange : ∀ code redirectUri,
      Meanwhile setup.dialect nonce s (setup.service.exchange code redirectUri s).1)
    (hverify : ∀ p token, job = .callback (.suspended p (.verify token)) →
      ¬s.Redeems setup.dialect nonce token) :
    Meanwhile setup.dialect nonce s (job.resume setup.service s).1 := by
  cases job with
  | authenticate identifier => exact .authenticate .nothing identifier
  | authenticated answer =>
    cases answer with
    | ok url => exact .nothing
    | error e => exact .aside .nothing rfl rfl
  | answered response => exact .nothing
  | callback run =>
    cases run with
    | finished outcome => exact .nothing
    | suspended p progress =>
      cases progress with
      | exchange code => exact hexchange code setup.service.redirectUri
      | verify token => exact .verify .nothing (hverify p token rfl)
      | announce verdict =>
        obtain ⟨hclient, hnow⟩ := setup.announce_client p verdict s
        exact .aside .nothing hclient hnow

/-! ### The nonce of an authentication -/

/-- An authentication was started with this nonce at the time `start`. The nonce can be redeemed
until it expires. -/
structure Awaits (c : Broker.Connection) (nonce : String) (start : Instant) (s : State μ) :
    Prop where
  connection : s.client.connection = c
  alive : s.client.isDestroyed = false
  started : start ≤ s.now
  redeemable : s.now < start + c.nonceTtl →
    ∃ expiry, start + c.nonceTtl ≤ expiry ∧ s.client.nonces.expiry? nonce = some expiry

variable {c : Broker.Connection} {start : Instant}

theorem State.authenticate_client (d : Broker.Dialect) (identifier : String) (s : State μ) :
    (s.authenticate d identifier).1.client = (s.client.authenticate d identifier
        (Nonce.text (s.random s.drawn)) (Broker.stateText (s.random (s.drawn + 1))) s.now).2 ∧
      (s.authenticate d identifier).1.now = s.now := by
  rw [State.authenticate]
  simp only
  split
  · exact ⟨rfl, rfl⟩
  · exact ⟨rfl, rfl⟩
  · exact ⟨rfl, rfl⟩

/-- An authentication that is started changes the client and draws random numbers. -/
theorem State.authenticate_of_ok {identifier : String} {client : Broker.Client} {url : Url}
    (h : s.client.authenticate d identifier (Nonce.text (s.random s.drawn))
      (Broker.stateText (s.random (s.drawn + 1))) s.now = (.ok url, client)) :
    s.authenticate d identifier =
      ({ s with
          client
          drawn := s.drawn + 2 }, .now (.ok url)) := by
  simp only [State.authenticate, h]

/-- An authentication that was started can be redeemed. -/
theorem Awaits.of_authenticate {identifier : String} {url : Url}
    (h : (s.authenticate d identifier).2 = .now (.ok url)) :
    Awaits s.client.connection (Nonce.text (s.random s.drawn)) s.now
        (s.authenticate d identifier).1 ∧
      ∃ target : Url, url = target.appendPairs (d.parameters s.client.connection identifier
        (Nonce.text (s.random s.drawn)) (Broker.stateText (s.random (s.drawn + 1)))) := by
  obtain ⟨error, hfailed⟩ | ⟨target, -, halive, hstarted⟩ := Broker.Client.authenticate_spec d
    s.client identifier (Nonce.text (s.random s.drawn)) (Broker.stateText (s.random (s.drawn + 1)))
    s.now
  · simp only [State.authenticate, hfailed] at h
    cases error with
    | broker e => simp [Delayed.now] at h
    | calendar => simp [Delayed.now] at h
  · have hstate := State.authenticate_of_ok hstarted
    rw [hstate] at h ⊢
    refine ⟨⟨rfl, halive, Int.le_refl _, fun _ => ⟨_, Int.le_refl _, ?_⟩⟩, target, ?_⟩
    · show (s.client.nonces.put _ _).expiry? _ = _
      rw [Nonce.Store.expiry?_put, if_pos rfl]
    · exact (Except.ok.inj (Delayed.after.inj h).2).symm

/-- What matters is in the client and on the clock. -/
theorem Awaits.of_eq (h : Awaits c nonce start s) (hclient : t.client = s.client)
    (hnow : t.now = s.now) : Awaits c nonce start t := by
  obtain ⟨hconnection, halive, hstarted, hredeemable⟩ := h
  exact ⟨hclient ▸ hconnection, hclient ▸ halive, hnow ▸ hstarted, hclient ▸ hnow ▸ hredeemable⟩

theorem Awaits.authenticate (h : Awaits c nonce start s) (identifier : String) :
    Awaits c nonce start (s.authenticate d identifier).1 := by
  obtain ⟨hclient, hnow⟩ := s.authenticate_client d identifier
  obtain ⟨error, hfailed⟩ | ⟨url, -, -, hstarted⟩ := Broker.Client.authenticate_spec d s.client
    identifier (Nonce.text (s.random s.drawn)) (Broker.stateText (s.random (s.drawn + 1))) s.now
  · rw [hfailed] at hclient
    exact h.of_eq hclient hnow
  · rw [hstarted] at hclient
    refine ⟨?_, ?_, hnow ▸ h.started, ?_⟩
    · rw [hclient]
      exact h.connection
    · rw [hclient]
      exact h.alive
    · intro hlives
      rw [hnow] at hlives
      obtain ⟨expiry, hle, hexpiry⟩ := h.redeemable hlives
      rw [hclient, Nonce.Store.expiry?_put]
      by_cases hsame : nonce = Nonce.text (s.random s.drawn)
      · refine ⟨_, ?_, if_pos hsame⟩
        rw [h.connection]
        exact Int.add_le_add_right h.started _
      · exact ⟨expiry, hle, (if_neg hsame).trans hexpiry⟩

/-- A token that does not redeem the nonce leaves it alone. -/
theorem Awaits.verify (h : Awaits c nonce start s) {token : String}
    (htoken : ¬s.Redeems d nonce token) : Awaits c nonce start (s.verify d token).1 := by
  have hnow : (s.verify d token).1.now = s.now := rfl
  have hclient : (s.verify d token).1.client = (s.client.verify d token s.now).2 := rfl
  obtain ⟨error, hfailed⟩ | ⟨email, other, hcheck, hempty, -, htaken, -⟩ :=
    Broker.Client.verify_spec d s.client token s.now
  · rw [hfailed] at hclient
    exact h.of_eq hclient hnow
  · rw [htaken] at hclient
    refine ⟨?_, ?_, hnow ▸ h.started, ?_⟩
    · rw [hclient]
      exact h.connection
    · rw [hclient]
      exact h.alive
    · intro hlives
      rw [hnow] at hlives
      obtain ⟨expiry, hle, hexpiry⟩ := h.redeemable hlives
      have hother : nonce ≠ other := by
        rintro rfl
        have haccepted := Broker.Client.verify_of_check h.alive hempty hcheck hexpiry
          (Int.lt_of_lt_of_le hlives hle)
        refine htoken ⟨email, hcheck, ?_⟩
        show Delayed.now (s.client.verify d token s.now).1 = _
        rw [haccepted]
      rw [hclient, Nonce.Store.expiry?_erase]
      exact ⟨expiry, hle, (if_neg hother).trans hexpiry⟩

/-- Purging keeps the nonce as long as it is not expired. -/
theorem Awaits.passTime (h : Awaits c nonce start s) (time : Nat) {now : Instant}
    (hnow : s.now ≤ now) : Awaits c nonce start (s.passTime time now) := by
  obtain ⟨hconnection, halive, hnonces⟩ := s.client.runPurge_spec time now
  refine ⟨hconnection.trans h.connection, halive.trans h.alive,
    Int.le_trans h.started hnow, ?_⟩
  intro hlives
  have hlives : now < start + c.nonceTtl := hlives
  obtain ⟨expiry, hle, hexpiry⟩ := h.redeemable (Int.lt_of_le_of_lt hnow hlives)
  refine ⟨expiry, hle, ?_⟩
  show (s.client.runPurge time now).nonces.expiry? nonce = some expiry
  obtain hsame | hpurged := hnonces
  · rw [hsame]
    exact hexpiry
  · rw [hpurged]
    exact Nonce.Store.expiry?_purge hexpiry (Int.lt_of_lt_of_le hlives hle)

/-- A nonce that can be redeemed can still be redeemed after all that happened meanwhile. -/
theorem Awaits.meanwhile (h : Awaits c nonce start s) (hmeanwhile : Meanwhile d nonce s t) :
    Awaits c nonce start t := by
  induction hmeanwhile with
  | nothing => exact h
  | authenticate _ identifier ih => exact ih.authenticate identifier
  | verify _ htoken ih => exact ih.verify htoken
  | passTime _ time hnow ih => exact ih.passTime time hnow
  | aside _ hclient hnow ih => exact ih.of_eq hclient hnow

/-- The token of an authentication is accepted before its nonce expires. -/
theorem Awaits.verify_of_check (h : Awaits c nonce start s) {token email : String}
    (htoken : token ≠ "") (hcheck : d.check c token s.now = .ok ⟨some email, some nonce⟩)
    (hlives : s.now < start + c.nonceTtl) : (s.verify d token).2 = .now (.ok email) := by
  obtain ⟨expiry, hle, hexpiry⟩ := h.redeemable hlives
  rw [← h.connection] at hcheck
  have haccepted := Broker.Client.verify_of_check h.alive htoken hcheck hexpiry
    (Int.lt_of_lt_of_le hlives hle)
  show Delayed.now (s.client.verify d token s.now).1 = _
  rw [haccepted]

end SignIn.Party
