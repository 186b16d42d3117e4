import SignIn.Callback.Verification
import SignIn.Proofs.Broker.Client
import SignIn.Proofs.Url.Query

/-!
# One authentication, one acceptance

An identity is accepted because somebody started an authentication. Every acceptance goes back to a
start of its own, so a token that is played back is not accepted again, by whatever way it comes.
Nothing is assumed about nonces here. One that is made up twice is two starts, but the store knows
only one of them, and so at most one acceptance comes of both.

## What is observed

A client is asked by any number of others, in any order and at any reading of the clock. All of it
is kept in a journal, with the answer and with the client as it was afterwards. Callbacks take part
in this as they do at a relying party: a callback is a `Callback.Run`, all of them ask the same
client, and its exchange of a code may be answered by anything.

## The invariant

Of every acceptance the journal has an origin, which is the place of a start. Every nonce that is in
the store has a start too, behind which the client was not torn down, and no acceptance has it for
its origin. So there is an origin left for the acceptance that takes the nonce out of the store.

## Main definitions

* `Broker.Journal`, `Broker.Site` — a client and callbacks, with all that was asked
* `Broker.Redemption` — every acceptance has a start for its origin, each a different one
* `Broker.Journal.Accounted` — the invariant

## Main results

* `Broker.Journal.Accounted.verify` — the step in which an origin is used up
* `Broker.redeemed_once` — the invariant for clients of the mock broker and of any other broker
-/

namespace SignIn.Broker

/-! ### What is asked of a client -/

/-- What is asked of a client, with its answer. -/
inductive Deed where
  | authenticate (identifier nonce state : String) (answer : Except StartError Url)
  /-- A token is verified, for one of the callbacks or for somebody else. -/
  | verify (callback : Option Nat) (token : String) (answer : Except BrokerError String)
  | purge (time : Nat)
  | destroy

/-- Something that was asked of a client, and when. -/
structure Moment where
  now : Instant
  deed : Deed
  /-- The client as it was afterwards. -/
  client : Client

/-- A client and all that was asked of it, the oldest first. -/
structure Journal where
  client : Client
  moments : List Moment

namespace Journal

/-- Keeps what was asked of the client. -/
def note (j : Journal) (now : Instant) (deed : Deed) (client : Client) : Journal :=
  ⟨client, j.moments ++ [⟨now, deed, client⟩]⟩

/-- Starts an authentication. -/
def authenticate (d : Dialect) (identifier nonce state : String) (now : Instant) (j : Journal) :
    Journal :=
  let (answer, client) := j.client.authenticate d identifier nonce state now
  j.note now (.authenticate identifier nonce state answer) client

/-- Verifies a token. -/
def verify (d : Dialect) (callback : Option Nat) (token : String) (now : Instant) (j : Journal) :
    Journal × Except BrokerError String :=
  let (answer, client) := j.client.verify d token now
  (j.note now (.verify callback token answer) client, answer)

/-- Lets the purging do what is due before a time. -/
def purge (time : Nat) (now : Instant) (j : Journal) : Journal :=
  j.note now (.purge time) (j.client.runPurge time now)

/-- Tears the client down. -/
def destroy (now : Instant) (j : Journal) : Journal := j.note now .destroy j.client.destroy

/-- The parties of a callback: the client verifies its token, and its code is exchanged for
anything. -/
def parties (d : Dialect) (c : Connection) (callback : Nat) (now : Instant)
    (grant : Except ExchangeError Token.Grant) : Callback.Parties Journal where
  redirectUri := c.redirectUri.toText
  exchange _ _ j := (j, .now grant)
  verify token j :=
    let (j, answer) := j.verify d (some callback) token now
    (j, .now answer)
  publish _ j := (j, 0)
  log _ j := j

end Journal

/-- What can happen where a client is used. -/
inductive Act where
  | authenticate (identifier nonce state : String)
  | verify (token : String)
  | purge (time : Nat)
  | destroy
  /-- A callback comes in. -/
  | arrive (p : Callback.Params)
  /-- A callback does its next thing; `grant` is what its code is exchanged for, if that is it. -/
  | resume (callback : Nat) (grant : Except ExchangeError Token.Grant)

/-- A client with its journal, and the callbacks that it is asked by, the oldest first. -/
structure Site where
  journal : Journal
  callbacks : List Callback.Run

namespace Site

/-- A new client without callbacks. -/
def start (c : Connection) (time : Nat) : Site := ⟨⟨.start c time, []⟩, []⟩

/-- What happens, at a reading of the clock. -/
def step (d : Dialect) (c : Connection) (site : Site) (now : Instant) : Act → Site
  | .authenticate identifier nonce state =>
    { site with journal := site.journal.authenticate d identifier nonce state now }
  | .verify token => { site with journal := (site.journal.verify d none token now).1 }
  | .purge time => { site with journal := site.journal.purge time now }
  | .destroy => { site with journal := site.journal.destroy now }
  | .arrive p => { site with callbacks := site.callbacks ++ [.start p] }
  | .resume callback grant =>
    match site.callbacks[callback]? with
    | none => site
    | some run =>
      match run.resume (Journal.parties d c callback now grant) site.journal with
      | (journal, .after _ run) => ⟨journal, site.callbacks.set callback run⟩
      | (journal, .never) => { site with journal }

/-- All that happens to a new client. -/
def after (d : Dialect) (c : Connection) (time : Nat) (acts : List (Instant × Act)) : Site :=
  acts.foldl (fun site act => site.step d c act.1 act.2) (start c time)

end Site

/-! ### Acceptances and their origins -/

section Moments

variable {ttl : Duration} {moments : List Moment} {m : Moment} {i j k : Nat} {nonce : String}
  {expiry : Instant}

/-- At place `i` an identity was accepted. -/
def IsAccepted (moments : List Moment) (i : Nat) : Prop :=
  ∃ m callback token email, moments[i]? = some m ∧ m.deed = .verify callback token (.ok email)

/-- At place `i` an identity was accepted for callback `k`. -/
def IsAcceptedFor (moments : List Moment) (k : Nat) (identity : String) (i : Nat) : Prop :=
  ∃ m token, moments[i]? = some m ∧ m.deed = .verify (some k) token (.ok identity)

/-- At place `i` an authentication was started. Its nonce is in the URL, and was remembered until
the time for it is over. -/
def Started (ttl : Duration) (moments : List Moment) (i : Nat) (nonce : String)
    (expiry : Instant) : Prop :=
  ∃ m identifier state url, moments[i]? = some m ∧
    m.deed = .authenticate identifier nonce state (.ok url) ∧
    Form.lookup url.pairs "nonce" = some nonce ∧
    m.client.nonces.expiry? nonce = some expiry ∧ expiry = m.now + ttl

/-- The client was not torn down between two places. -/
def Undisturbed (moments : List Moment) (i j : Nat) : Prop :=
  ∀ k m, i < k → k < j → moments[k]? = some m → m.deed ≠ .destroy

/-- Every acceptance has an earlier start for its origin, each a different one. The token asserts
its identity and the nonce of its origin, whose time was not over, and the client was not torn down
since. -/
structure Redemption (asserts : (token : String) → Instant → (email nonce : String) → Prop)
    (ttl : Duration) (moments : List Moment) (origin : Nat → Nat) : Prop where
  injective : ∀ i j, IsAccepted moments i → IsAccepted moments j → origin i = origin j → i = j
  earlier : ∀ i, IsAccepted moments i → origin i < i
  redeems : ∀ i m callback token email, moments[i]? = some m →
    m.deed = .verify callback token (.ok email) → ∃ nonce expiry,
      Started ttl moments (origin i) nonce expiry ∧ asserts token m.now email nonce ∧
        m.now < expiry ∧ Undisturbed moments (origin i) i

/-! #### One more moment -/

theorem getElem?_concat_cases {n : Moment} (h : (moments ++ [m])[i]? = some n) :
    moments[i]? = some n ∨ i = moments.length ∧ n = m := by
  obtain hlt | rfl | hgt := Nat.lt_trichotomy i moments.length
  · rw [List.getElem?_append_left hlt] at h
    exact .inl h
  · rw [List.getElem?_concat_length] at h
    exact .inr ⟨rfl, (Option.some.inj h).symm⟩
  · rw [List.getElem?_eq_none (by simp; omega)] at h
    contradiction

theorem getElem?_concat {n : Moment} (h : moments[i]? = some n) :
    (moments ++ [m])[i]? = some n := by
  obtain ⟨hlt, -⟩ := List.getElem?_eq_some_iff.1 h
  rw [List.getElem?_append_left hlt, h]

theorem Started.lt (h : Started ttl moments i nonce expiry) : i < moments.length := by
  obtain ⟨n, -, -, -, hn, -⟩ := h
  exact (List.getElem?_eq_some_iff.1 hn).1

theorem Started.concat (h : Started ttl moments i nonce expiry) :
    Started ttl (moments ++ [m]) i nonce expiry := by
  obtain ⟨n, identifier, state, url, hn, h⟩ := h
  exact ⟨n, identifier, state, url, getElem?_concat hn, h⟩

theorem Started.nonce_eq {nonce' : String} {expiry' : Instant}
    (h : Started ttl moments i nonce expiry) (h' : Started ttl moments i nonce' expiry') :
    nonce = nonce' := by
  obtain ⟨n, identifier, state, url, hn, hdeed, -⟩ := h
  obtain ⟨n', identifier', state', url', hn', hdeed', -⟩ := h'
  obtain rfl : n = n' := Option.some.inj (hn.symm.trans hn')
  exact (Deed.authenticate.inj (hdeed.symm.trans hdeed')).2.1

theorem IsAccepted.lt (h : IsAccepted moments i) : i < moments.length := by
  obtain ⟨n, -, -, -, hn, -⟩ := h
  exact (List.getElem?_eq_some_iff.1 hn).1

theorem IsAcceptedFor.concat {identity : String} (h : IsAcceptedFor moments k identity i) :
    IsAcceptedFor (moments ++ [m]) k identity i := by
  obtain ⟨n, token, hn, hdeed⟩ := h
  exact ⟨n, token, getElem?_concat hn, hdeed⟩

theorem IsAccepted.of_concat (h : IsAccepted (moments ++ [m]) i) :
    IsAccepted moments i ∨ i = moments.length ∧
      ∃ callback token email, m.deed = .verify callback token (.ok email) := by
  obtain ⟨n, callback, token, email, hn, hdeed⟩ := h
  obtain hn | ⟨rfl, rfl⟩ := getElem?_concat_cases hn
  · exact .inl ⟨n, callback, token, email, hn, hdeed⟩
  · exact .inr ⟨rfl, callback, token, email, hdeed⟩

theorem Undisturbed.concat (h : Undisturbed moments i j) (hj : j ≤ moments.length) :
    Undisturbed (moments ++ [m]) i j := by
  intro k n hik hkj hn
  rw [List.getElem?_append_left (by omega)] at hn
  exact h k n hik hkj hn

theorem Undisturbed.concat_succ (h : Undisturbed moments i moments.length)
    (hm : m.deed ≠ .destroy) : Undisturbed (moments ++ [m]) i (moments ++ [m]).length := by
  intro k n hik hkj hn
  obtain hn | ⟨rfl, rfl⟩ := getElem?_concat_cases hn
  · exact h k n hik (List.getElem?_eq_some_iff.1 hn).1 hn
  · exact hm

variable {asserts : String → Instant → String → String → Prop} {origin : Nat → Nat}

/-- Whatever is no acceptance needs no origin. -/
theorem Redemption.concat (h : Redemption asserts ttl moments origin)
    (hm : ∀ callback token email, m.deed ≠ .verify callback token (.ok email)) :
    Redemption asserts ttl (moments ++ [m]) origin := by
  have hold : ∀ i, IsAccepted (moments ++ [m]) i → IsAccepted moments i := by
    intro i hi
    obtain hi | ⟨-, callback, token, email, hdeed⟩ := hi.of_concat
    · exact hi
    · exact absurd hdeed (hm callback token email)
  refine ⟨fun i j hi hj => h.injective i j (hold i hi) (hold j hj),
    fun i hi => h.earlier i (hold i hi), fun i n callback token email hn hdeed => ?_⟩
  obtain hn | ⟨-, rfl⟩ := getElem?_concat_cases hn
  · obtain ⟨nonce, expiry, hstarted, hasserts, hnow, hundisturbed⟩ :=
      h.redeems i n callback token email hn hdeed
    have hi : i < moments.length := (List.getElem?_eq_some_iff.1 hn).1
    exact ⟨nonce, expiry, hstarted.concat, hasserts, hnow, hundisturbed.concat (by omega)⟩
  · exact absurd hdeed (hm callback token email)

/-- The origins, with the one of a new acceptance. -/
def extend (origin : Nat → Nat) (place start : Nat) (i : Nat) : Nat :=
  if i = place then start else origin i

/-- An acceptance may have any start for its origin that is the origin of no other one. -/
theorem Redemption.accept (h : Redemption asserts ttl moments origin) {callback : Option Nat}
    {token email : String} (hdeed : m.deed = .verify callback token (.ok email))
    (hstarted : Started ttl moments k nonce expiry)
    (hunused : ∀ i, IsAccepted moments i → origin i ≠ k)
    (hasserts : asserts token m.now email nonce)
    (hnow : m.now < expiry) (hundisturbed : Undisturbed moments k moments.length) :
    Redemption asserts ttl (moments ++ [m]) (extend origin moments.length k) := by
  have hnew : extend origin moments.length k moments.length = k := if_pos rfl
  have hold : ∀ i, i < moments.length → extend origin moments.length k i = origin i :=
    fun i hi => if_neg (by omega)
  refine ⟨fun i j hi hj heq => ?_, fun i hi => ?_, fun i n callback' token' email' hn hdeed' => ?_⟩
  · obtain hi | ⟨rfl, -⟩ := hi.of_concat
    · obtain hj | ⟨rfl, -⟩ := hj.of_concat
      · rw [hold i hi.lt, hold j hj.lt] at heq
        exact h.injective i j hi hj heq
      · rw [hold i hi.lt, hnew] at heq
        exact absurd heq (hunused i hi)
    · obtain hj | ⟨rfl, -⟩ := hj.of_concat
      · rw [hold j hj.lt, hnew] at heq
        exact absurd heq.symm (hunused j hj)
      · rfl
  · obtain hi | ⟨rfl, -⟩ := hi.of_concat
    · rw [hold i hi.lt]
      exact h.earlier i hi
    · rw [hnew]
      exact hstarted.lt
  · obtain hn | ⟨rfl, rfl⟩ := getElem?_concat_cases hn
    · have hi : i < moments.length := (List.getElem?_eq_some_iff.1 hn).1
      obtain ⟨nonce, expiry, hstarted, hasserts, hnow, hundisturbed⟩ :=
        h.redeems i n callback' token' email' hn hdeed'
      rw [hold i hi]
      exact ⟨nonce, expiry, hstarted.concat, hasserts, hnow, hundisturbed.concat (by omega)⟩
    · rw [hdeed] at hdeed'
      obtain ⟨-, rfl, hanswer⟩ := Deed.verify.inj hdeed'
      obtain rfl : email = email' := Except.ok.inj hanswer
      rw [hnew]
      exact ⟨nonce, expiry, hstarted.concat, hasserts, hnow, hundisturbed.concat (Nat.le_refl _)⟩

end Moments

/-! ### What every act preserves -/

/-- What the genuine tokens of a dialect say. -/
def Dialect.Asserts (d : Dialect) (c : Connection) (token : String) (now : Instant)
    (email nonce : String) : Prop :=
  d.check c token now = .ok ⟨some email, some nonce⟩

namespace Journal

/-- Every acceptance has an origin, and for every nonce in the store there is a start that is the
origin of none. -/
structure Accounted (d : Dialect) (c : Connection) (j : Journal) (origin : Nat → Nat) : Prop where
  connection : j.client.connection = c
  forgotten : j.client.isDestroyed = true → j.client.nonces.entries = []
  redemption : Redemption (d.Asserts c) c.nonceTtl j.moments origin
  outstanding : ∀ entry ∈ j.client.nonces.entries, ∃ i,
    Started c.nonceTtl j.moments i entry.1 entry.2 ∧
      (∀ k, IsAccepted j.moments k → origin k ≠ i) ∧ Undisturbed j.moments i j.moments.length

variable {d : Dialect} {c : Connection} {j : Journal} {origin : Nat → Nat}

theorem accounted_start (d : Dialect) (c : Connection) (time : Nat) (origin : Nat → Nat) :
    Accounted d c ⟨.start c time, []⟩ origin := by
  have hnone : ∀ i, ¬IsAccepted [] i := by
    rintro i ⟨m, callback, token, email, hm, -⟩
    simp at hm
  refine ⟨rfl, fun _ => rfl, ⟨fun i _ hi => absurd hi (hnone i), fun i hi => absurd hi (hnone i),
    fun i m callback token email hm => by simp at hm⟩, fun entry hentry => ?_⟩
  simp [Client.start, Nonce.Store.empty] at hentry

/-- A moment without an acceptance and without a teardown. The nonces are those of before, but for
one that this moment may be the start of. -/
theorem Accounted.note (h : Accounted d c j origin) {now : Instant} {deed : Deed} {client : Client}
    (hconnection : client.connection = j.client.connection)
    (halive : client.isDestroyed = true → client.nonces.entries = [])
    (hquiet : ∀ callback token email, deed ≠ .verify callback token (.ok email))
    (hdestroy : deed ≠ .destroy)
    (hentries : ∀ entry ∈ client.nonces.entries, entry ∈ j.client.nonces.entries ∨
      Started c.nonceTtl (j.note now deed client).moments j.moments.length entry.1 entry.2) :
    Accounted d c (j.note now deed client) origin := by
  refine ⟨hconnection.trans h.connection, halive, h.redemption.concat hquiet,
    fun entry hentry => ?_⟩
  have hold : ∀ i, IsAccepted (j.note now deed client).moments i → IsAccepted j.moments i := by
    intro i hi
    obtain hi | ⟨-, callback, token, email, hdeed⟩ := hi.of_concat
    · exact hi
    · exact absurd hdeed (hquiet callback token email)
  obtain hentry | hstarted := hentries entry hentry
  · obtain ⟨i, hstarted, hunused, hundisturbed⟩ := h.outstanding entry hentry
    exact ⟨i, hstarted.concat, fun k hk => hunused k (hold k hk),
      hundisturbed.concat_succ hdestroy⟩
  · refine ⟨j.moments.length, hstarted, fun k hk => ?_, fun k m hik hkj => ?_⟩
    · have hearlier := h.redemption.earlier k (hold k hk)
      have hlt := (hold k hk).lt
      omega
    · have hlength : (j.note now deed client).moments.length = j.moments.length + 1 := by
        simp [Journal.note]
      omega

/-- An authentication that is started is the start of its nonce. -/
theorem Accounted.authenticate (h : Accounted d c j origin) (hd : d.SendsNonce)
    (identifier nonce state : String) (now : Instant) :
    Accounted d c (j.authenticate d identifier nonce state now) origin := by
  rw [Journal.authenticate]
  obtain ⟨error, hanswer⟩ | ⟨url, -, halive, hanswer⟩ :=
    j.client.authenticate_spec d identifier nonce state now
  · rw [hanswer]
    exact h.note rfl h.forgotten (by simp) (by simp) fun entry hentry => .inl hentry
  · rw [hanswer]
    refine h.note rfl (fun hdestroyed => ?_) (by simp) (by simp) fun entry hentry => ?_
    · rw [halive] at hdestroyed
      contradiction
    · obtain ⟨hentry, -⟩ | rfl := Nonce.Store.mem_entries_put.1 hentry
      · exact .inl hentry
      · refine .inr ⟨_, identifier, state, _, List.getElem?_concat_length, rfl, ?_, ?_, ?_⟩
        · rw [Url.pairs_appendPairs, Form.lookup_append,
            hd j.client.connection identifier nonce state]
          rfl
        · simp
        · rw [h.connection]

theorem Accounted.purge (h : Accounted d c j origin) (time : Nat) (now : Instant) :
    Accounted d c (j.purge time now) origin := by
  obtain ⟨hconnection, hdestroyed, hnonces⟩ := j.client.runPurge_spec time now
  have hentries : ∀ entry ∈ (j.client.runPurge time now).nonces.entries,
      entry ∈ j.client.nonces.entries := by
    intro entry hentry
    obtain hnonces | hnonces := hnonces
    · rwa [hnonces] at hentry
    · rw [hnonces, Nonce.Store.mem_entries_purge] at hentry
      exact hentry.1
  refine h.note hconnection (fun hclient => ?_) (by simp) (by simp)
    fun entry hentry => .inl (hentries entry hentry)
  rw [hdestroyed] at hclient
  refine List.eq_nil_iff_forall_not_mem.2 fun entry hentry => ?_
  have hnone := hentries entry hentry
  rw [h.forgotten hclient] at hnone
  exact absurd hnone List.not_mem_nil

theorem Accounted.destroy (h : Accounted d c j origin) (now : Instant) :
    Accounted d c (j.destroy now) origin := by
  have hentries : j.client.destroy.nonces.entries = [] := by
    rw [Client.destroy]
    split
    · next hdestroyed => exact h.forgotten hdestroyed
    · rfl
  have hconnection : j.client.destroy.connection = c := by
    rw [← h.connection, Client.destroy]
    split <;> rfl
  refine ⟨hconnection, fun _ => hentries, h.redemption.concat (by simp), fun entry hentry => ?_⟩
  rw [show (j.destroy now).client = j.client.destroy from rfl, hentries] at hentry
  exact absurd hentry List.not_mem_nil

/-- A verification that accepts an identity takes out the nonce of its token, and with it the start
that is left for it. All other nonces have other starts. -/
theorem Accounted.verify (h : Accounted d c j origin) (callback : Option Nat) (token : String)
    (now : Instant) : ∃ origin, Accounted d c (j.verify d callback token now).1 origin := by
  rw [Journal.verify]
  obtain ⟨error, hanswer⟩ | ⟨email, nonce, hcheck, -, halive, hclient, haccepts⟩ :=
    j.client.verify_spec d token now
  · rw [hanswer]
    exact ⟨origin, h.note rfl h.forgotten (by simp) (by simp) fun entry hentry => .inl hentry⟩
  · generalize j.client.verify d token now = result at hclient haccepts ⊢
    obtain ⟨answer, client⟩ := result
    obtain rfl : client = _ := hclient
    have hdead : ({ j.client with nonces := j.client.nonces.erase nonce } : Client).isDestroyed =
        true → (j.client.nonces.erase nonce).entries = [] := by
      intro hdestroyed
      rw [halive] at hdestroyed
      contradiction
    obtain ⟨expiry, hexpiry, hnow, rfl⟩ | rfl := haccepts
    · obtain ⟨k, hstarted, hunused, hundisturbed⟩ :=
        h.outstanding _ (Nonce.Store.mem_of_expiry? hexpiry)
      refine ⟨extend origin j.moments.length k, h.connection, hdead,
        h.redemption.accept rfl hstarted hunused (h.connection ▸ hcheck) hnow hundisturbed,
        fun entry hentry => ?_⟩
      obtain ⟨hentry, hother⟩ := Nonce.Store.mem_entries_erase.1 hentry
      obtain ⟨i, hstarted', hunused', hundisturbed'⟩ := h.outstanding entry hentry
      refine ⟨i, hstarted'.concat, fun l hl => ?_, hundisturbed'.concat_succ (by simp)⟩
      obtain hl | ⟨rfl, -⟩ := hl.of_concat
      · rw [extend, if_neg (by have := hl.lt; omega)]
        exact hunused' l hl
      · rw [extend, if_pos rfl]
        rintro rfl
        exact hother (hstarted'.nonce_eq hstarted)
    · exact ⟨origin, h.note rfl hdead (by simp [Client.reject]) (by simp) fun entry hentry =>
        .inl (Nonce.Store.mem_entries_erase.1 hentry).1⟩

end Journal

/-! ### Callbacks -/

/-- The identity that a callback has come to, whether it is announced yet or not. -/
def identity? : Callback.Run → Option String
  | .finished (.verified identity) => some identity
  | .suspended _ (.announce (.accepted identity)) => some identity
  | _ => none

theorem identity?_start (p : Callback.Params) : identity? (.start p) = none := by
  rw [Callback.Run.start, Callback.Progress.start]
  cases p.signal <;> rfl

theorem identity?_afterVerify {p : Callback.Params} {answer : Except BrokerError String}
    {identity : String} (h : identity? (.suspended p (.afterVerify answer)) = some identity) :
    answer = .ok identity := by
  cases answer with
  | error error => simp [Callback.Progress.afterVerify, identity?] at h
  | ok email => rw [Option.some.inj h]

/-- What a callback does next: it verifies a token and takes the answer, or it asks the client for
nothing and comes to no new identity. -/
theorem resume_spec (d : Dialect) (c : Connection) (callback : Nat) (now : Instant)
    (grant : Except ExchangeError Token.Grant) (run : Callback.Run) (j : Journal) :
    ∃ delay next j',
      run.resume (Journal.parties d c callback now grant) j = (j', .after delay next) ∧
        ((j' = j ∧ ∀ identity, identity? next = some identity → identity? run = some identity) ∨
          ∃ token, j' = (j.verify d (some callback) token now).1 ∧
            ∀ identity, identity? next = some identity →
              (j.verify d (some callback) token now).2 = .ok identity) := by
  match run with
  | .finished outcome => exact ⟨_, _, _, rfl, .inl ⟨rfl, fun _ h => h⟩⟩
  | .suspended p (.exchange code) =>
    refine ⟨_, _, _, rfl, .inl ⟨rfl, fun identity h => ?_⟩⟩
    cases grant <;> simp [Callback.Progress.afterExchange, identity?] at h
  | .suspended p (.verify token) =>
    exact ⟨_, .suspended p (.afterVerify (j.verify d (some callback) token now).2), _, rfl,
      .inr ⟨token, rfl, fun identity h => identity?_afterVerify h⟩⟩
  | .suspended p (.announce verdict) =>
    have hworld : (Journal.parties d c callback now grant).announce p verdict j = j := by
      rw [Callback.Parties.announce, Journal.parties]
      cases verdict.diagnostic? <;> rfl
    refine ⟨_, _, _, rfl, .inl ⟨hworld, fun identity h => ?_⟩⟩
    cases verdict <;> simp_all [Callback.Verdict.outcome, identity?]

namespace Site

variable {d : Dialect} {c : Connection} {site : Site}

/-- The journal accounts for every acceptance and for every nonce, and a callback that has come to
an identity has asked for it itself. -/
structure Accounted (d : Dialect) (c : Connection) (site : Site) : Prop where
  journal : ∃ origin, site.journal.Accounted d c origin
  asked : ∀ k run identity, site.callbacks[k]? = some run → identity? run = some identity →
    ∃ i, IsAcceptedFor site.journal.moments k identity i

/-- An act that concerns the client only. -/
theorem Accounted.note (h : site.Accounted d c) {j : Journal}
    (hj : ∃ origin, j.Accounted d c origin)
    (hmoments : ∃ m, j.moments = site.journal.moments ++ [m]) :
    Accounted d c { site with journal := j } := by
  obtain ⟨m, hmoments⟩ := hmoments
  refine ⟨hj, fun k run identity hrun hidentity => ?_⟩
  obtain ⟨i, hi⟩ := h.asked k run identity hrun hidentity
  rw [hmoments]
  exact ⟨i, hi.concat⟩

/-- A callback that goes on. -/
theorem Accounted.resume (h : site.Accounted d c) (now : Instant) (callback : Nat)
    (grant : Except ExchangeError Token.Grant) :
    (site.step d c now (.resume callback grant)).Accounted d c := by
  obtain ⟨origin, hjournal⟩ := h.journal
  cases hcallback : site.callbacks[callback]? with
  | none =>
    have hstep : site.step d c now (.resume callback grant) = site := by
      simp [Site.step, hcallback]
    rwa [hstep]
  | some run =>
    obtain ⟨delay, next, j, hresume, hspec⟩ := resume_spec d c callback now grant run site.journal
    have hstep : site.step d c now (.resume callback grant) =
        ⟨j, site.callbacks.set callback next⟩ := by
      simp [Site.step, hcallback, hresume]
    have hget : ∀ k run', (site.callbacks.set callback next)[k]? = some run' →
        (k = callback ∧ run' = next) ∨ site.callbacks[k]? = some run' := by
      intro k run' hrun'
      rw [List.getElem?_set] at hrun'
      split at hrun'
      · next hk =>
        split at hrun'
        · exact .inl ⟨hk.symm, (Option.some.inj hrun').symm⟩
        · contradiction
      · exact .inr hrun'
    rw [hstep]
    obtain ⟨rfl, hidentity⟩ | ⟨token, rfl, hanswer⟩ := hspec
    · refine ⟨h.journal, fun k run' identity hrun' hidentity' => ?_⟩
      obtain ⟨rfl, rfl⟩ | hrun' := hget k run' hrun'
      · exact h.asked k run identity hcallback (hidentity identity hidentity')
      · exact h.asked k run' identity hrun' hidentity'
    · refine ⟨hjournal.verify (some callback) token now, fun k run' identity hrun' hidentity' => ?_⟩
      obtain ⟨rfl, rfl⟩ | hrun' := hget k run' hrun'
      · refine ⟨site.journal.moments.length, _, token, List.getElem?_concat_length, ?_⟩
        rw [← hanswer identity hidentity']
        rfl
      · obtain ⟨i, hi⟩ := h.asked k run' identity hrun' hidentity'
        exact ⟨i, hi.concat⟩

theorem Accounted.step (h : site.Accounted d c) (hd : d.SendsNonce) (now : Instant) (act : Act) :
    (site.step d c now act).Accounted d c := by
  obtain ⟨origin, hjournal⟩ := h.journal
  cases act with
  | authenticate identifier nonce state =>
    exact h.note ⟨origin, hjournal.authenticate hd identifier nonce state now⟩ ⟨_, rfl⟩
  | verify token => exact h.note (hjournal.verify none token now) ⟨_, rfl⟩
  | purge time => exact h.note ⟨origin, hjournal.purge time now⟩ ⟨_, rfl⟩
  | destroy => exact h.note ⟨origin, hjournal.destroy now⟩ ⟨_, rfl⟩
  | arrive p =>
    refine ⟨h.journal, fun k run identity hrun hidentity => ?_⟩
    obtain hlt | rfl | hgt := Nat.lt_trichotomy k site.callbacks.length
    · refine h.asked k run identity ?_ hidentity
      rwa [Site.step, List.getElem?_append_left hlt] at hrun
    · rw [Site.step, List.getElem?_concat_length] at hrun
      rw [← Option.some.inj hrun, identity?_start] at hidentity
      contradiction
    · rw [Site.step, List.getElem?_eq_none (by simp; omega)] at hrun
      contradiction
  | resume callback grant => exact h.resume now callback grant

/-- Whatever happens, everything is accounted for. -/
theorem accounted_after (hd : d.SendsNonce) (c : Connection) (time : Nat)
    (acts : List (Instant × Act)) : (after d c time acts).Accounted d c := by
  have hrun : ∀ site : Site, site.Accounted d c →
      (acts.foldl (fun site act => site.step d c act.1 act.2) site).Accounted d c := by
    induction acts with
    | nil => exact fun _ h => h
    | cons act acts ih => exact fun site h => ih _ (h.step hd act.1 act.2)
  refine hrun _ ⟨⟨id, Journal.accounted_start d c time id⟩, fun k run identity hrun => ?_⟩
  simp [start] at hrun

/-- Callback `k` was accepted. -/
def IsAccepted (site : Site) (k : Nat) : Prop :=
  ∃ identity, site.callbacks[k]? = some (.finished (.verified identity))

/-- Every acceptance goes back to a start of its own, and so does every callback that was accepted:
through a verification that it asked for itself and that was answered with its identity. -/
def RedeemsOnce (site : Site) (ttl : Duration)
    (asserts : (token : String) → Instant → (email nonce : String) → Prop) : Prop :=
  ∃ origin, Redemption asserts ttl site.journal.moments origin ∧ ∃ acceptance : Nat → Nat,
    (∀ k identity, site.callbacks[k]? = some (.finished (.verified identity)) →
      IsAcceptedFor site.journal.moments k identity (acceptance k)) ∧
    ∀ k l, site.IsAccepted k → site.IsAccepted l →
      origin (acceptance k) = origin (acceptance l) → k = l

theorem Accounted.redeemsOnce (h : site.Accounted d c) :
    site.RedeemsOnce c.nonceTtl (d.Asserts c) := by
  obtain ⟨origin, hjournal⟩ := h.journal
  have hchoice : ∀ k, ∃ i, ∀ identity, site.callbacks[k]? = some (.finished (.verified identity)) →
      IsAcceptedFor site.journal.moments k identity i := by
    intro k
    by_cases hk : site.IsAccepted k
    · obtain ⟨identity, hidentity⟩ := hk
      obtain ⟨i, hi⟩ := h.asked k _ identity hidentity rfl
      refine ⟨i, fun identity' hidentity' => ?_⟩
      obtain rfl : identity = identity' := by simpa [hidentity] using hidentity'
      exact hi
    · exact ⟨0, fun identity hidentity => absurd ⟨identity, hidentity⟩ hk⟩
  obtain ⟨acceptance, hacceptance⟩ := Classical.skolem.1 hchoice
  refine ⟨origin, hjournal.redemption, acceptance, hacceptance, fun k l hk hl heq => ?_⟩
  obtain ⟨identity, hidentity⟩ := hk
  obtain ⟨identity', hidentity'⟩ := hl
  obtain ⟨m, token, hm, hdeed⟩ := hacceptance k identity hidentity
  obtain ⟨m', token', hm', hdeed'⟩ := hacceptance l identity' hidentity'
  have hsame : acceptance k = acceptance l :=
    hjournal.redemption.injective _ _ ⟨m, some k, token, identity, hm, hdeed⟩
      ⟨m', some l, token', identity', hm', hdeed'⟩ heq
  rw [hsame, hm'] at hm
  obtain rfl : m' = m := Option.some.inj hm
  exact Option.some.inj (Deed.verify.inj (hdeed.symm.trans hdeed')).1

theorem RedeemsOnce.mono {ttl : Duration}
    {asserts asserts' : String → Instant → String → String → Prop}
    (h : site.RedeemsOnce ttl asserts)
    (hasserts : ∀ token now email nonce,
      asserts token now email nonce → asserts' token now email nonce) :
    site.RedeemsOnce ttl asserts' := by
  obtain ⟨origin, hredemption, hcallbacks⟩ := h
  refine ⟨origin, ⟨hredemption.injective, hredemption.earlier, ?_⟩, hcallbacks⟩
  intro i m callback token email hm hdeed
  obtain ⟨nonce, expiry, hstarted, htoken, hnow⟩ :=
    hredemption.redeems i m callback token email hm hdeed
  exact ⟨nonce, expiry, hstarted, hasserts _ _ _ _ htoken, hnow⟩

end Site

/-! ### The brokers -/

/-- **One authentication is good for one acceptance.** Whatever is asked of a client, by any
number of callbacks and others and at any readings of the clock, every acceptance of an identity
goes back to an earlier start of an authentication, each to a different one: the token asserts
the identity and the nonce that was put into the URL of the start and remembered, the time for
it was not over, and the client was not torn down in between. The same start serves no two
callbacks. This holds of the mock broker, whose tokens are decoded, and of any other broker,
however its tokens are checked. -/
theorem redeemed_once (c : Connection) (time : Nat) (acts : List (Instant × Act)) :
    (∀ flow mode, (Site.after (Mock.dialect flow mode) c time acts).RedeemsOnce c.nonceTtl
      fun token now email nonce => ∃ claims,
        Mock.IdToken.decode token c.issuer c.clientId now.unixSeconds = .ok claims ∧
          claims.email = email ∧ claims.nonce = nonce) ∧
    ∀ endpoint check, (Site.after (OpenId.dialectWith endpoint check) c time acts).RedeemsOnce
      c.nonceTtl fun token now email nonce => check c token now = .ok ⟨some email, some nonce⟩ := by
  refine ⟨fun flow mode => ?_, fun endpoint check => ?_⟩
  · refine (Site.accounted_after (sendsNonce_mock flow mode) c time acts).redeemsOnce.mono
      fun token now email nonce hasserts => ?_
    rw [Dialect.Asserts, Mock.dialect] at hasserts
    cases hdecode : Mock.IdToken.decode token c.issuer c.clientId now.unixSeconds with
    | error e => simp [hdecode] at hasserts
    | ok claims => exact ⟨claims, rfl, by simpa [hdecode] using hasserts⟩
  · exact (Site.accounted_after (sendsNonce_openId endpoint check) c time acts).redeemsOnce

end SignIn.Broker
