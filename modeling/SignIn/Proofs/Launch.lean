import SignIn.Launch
import SignIn.Proofs.Handshake
import SignIn.Proofs.Url.Server

/-!
# The issuer of a mock broker that was started along

A mock broker in the same process names itself in its tokens by the text `http://127.0.0.1:PORT`.
The configuration is pointed at it by reading that text as a URL, and the client takes the issuer
that tokens have to name from how this URL is written. These are two ways to the same text, and they
lead to the same text for every port but one.

The exception is port 80. It is the default of the scheme, so the URL is written without it, while
the server goes on to name it. Then every token that the mock broker issues is rejected, and nobody
can sign in.

## Main definitions

* `Launch.localServer` — the URL at which a mock broker is found

## Main results

* `Broker.Connection.issuer_of_server` — the issuer at a server
* `Launch.pointAt_eq` — the configuration with a mock broker
* `Launch.issuer_agrees_iff` — for which ports tokens are accepted
-/

namespace SignIn

namespace Broker.Connection

/-- A slash at the end is taken away. -/
theorem trimSlashes_append_slash {s : String} {front : List Char} {c : Char}
    (hs : s.toList = front ++ [c]) (hc : c ≠ '/') : trimSlashes (s ++ "/") = s := by
  refine trimSlashes_eq_iff.2 ⟨?_, 1, ?_⟩
  · rw [hs, List.getLast?_concat]
    exact fun hlast => hc (Option.some.inj hlast)
  · rw [String.toList_append]
    rfl

variable {c : Connection} {scheme : String} {host : Url.Host} {port : Nat}

/-- At a server the issuer is named as the server is written. -/
theorem issuer_of_server (hhost : host.Canonical)
    (h : c.brokerUrl = Url.ofServer scheme host port) :
    c.issuer = Url.serverText scheme host (Url.portOfServer scheme port) := by
  let place := host.toText.toList ++ (Url.portText (Url.portOfServer scheme port)).toList
  have hne : place ≠ [] := List.append_ne_nil_of_left_ne_nil (Url.Host.toText_ne_nil hhost) _
  have hlast : place.getLast hne ≠ '/' := by
    intro hslash
    have hmem := (Url.mem_place hhost (List.getLast_mem hne)).2
    rw [hslash] at hmem
    exact hmem (by decide)
  have htext : (Url.serverText scheme host (Url.portOfServer scheme port)).toList =
      (scheme.toList ++ ':' :: '/' :: '/' :: place.dropLast) ++ [place.getLast hne] := by
    rw [Url.toList_serverText, List.append_assoc, List.cons_append, List.cons_append,
      List.cons_append, List.dropLast_concat_getLast hne]
  rw [issuer, h, Url.toText_ofServer]
  exact trimSlashes_append_slash htext hlast

end Broker.Connection

namespace Launch

/-- The URL at which a mock broker on a port is found. -/
def localServer (port : Nat) : Url := Url.ofServer "http" (.ipv4 0x7F000001) port

theorem baseUrl_eq (port : Nat) :
    Mock.baseUrl port = Url.serverText "http" (.ipv4 0x7F000001) (some port) := by
  have haddress : Url.Host.toText (.ipv4 0x7F000001) = "127.0.0.1" := by decide +kernel
  have hport : Url.portText (some port) = ":" ++ toString port := rfl
  have hbase : Mock.baseUrl port = "http://127.0.0.1:" ++ toString port := rfl
  have hfront : "http" ++ "://" ++ "127.0.0.1" = "http://127.0.0.1" := by decide
  have hcolon : "http://127.0.0.1" ++ ":" = "http://127.0.0.1:" := by decide
  rw [hbase, Url.serverText, haddress, hport, hfront, ← String.append_assoc, hcolon]

theorem canonical_localServer : (Url.Host.ipv4 0x7F000001).Canonical := by
  show 0x7F000001 < UInt32.size
  decide

variable {port : Nat}

theorem parse_baseUrl (hport : port ≤ 65535) :
    Url.parse (Mock.baseUrl port) = .ok (localServer port) := by
  rw [baseUrl_eq]
  exact Url.parse_serverText (.inl rfl) canonical_localServer hport

/-- The configuration is pointed at the server and keeps everything else. -/
theorem pointAt_eq (hport : port ≤ 65535) (c : Configuration) :
    ∃ tokenEndpoint, pointAt port c =
      .ok { c with brokerUrl := localServer port, tokenEndpoint } := by
  have hparse := parse_baseUrl hport
  have hroot : (localServer port).isRootless = false := rfl
  have hscheme : (localServer port).scheme ≠ "file" := by
    show "http" ≠ "file"
    decide
  obtain ⟨tokenEndpoint, hjoin, -⟩ :=
    Url.join_slash Broker.Connection.isTarget_token hroot fun hfile => absurd hfile hscheme
  have hendpoint : (localServer port).join "/token" = .ok tokenEndpoint := hjoin
  refine ⟨tokenEndpoint, ?_⟩
  have hserver : (Except.ok (localServer port)).mapError Failure.url =
    Except.ok (localServer port) := rfl
  rw [pointAt, hparse, hserver, ok_bind, hendpoint]
  rfl

/-- The text without the port is another one. -/
theorem issuer_eq_baseUrl_iff {c : Broker.Connection} (h : c.brokerUrl = localServer port) :
    c.issuer = Mock.baseUrl port ↔ port ≠ 80 := by
  have hdefault : Url.defaultPort? "http" = some 80 := rfl
  rw [c.issuer_of_server canonical_localServer h, baseUrl_eq, Url.portOfServer, hdefault]
  split
  · next h80 =>
    refine iff_of_false (fun heq => ?_) (not_not.2 (Option.some.inj h80))
    have hchars := congrArg String.toList heq
    rw [Url.toList_serverText, Url.toList_serverText, Url.toList_portText] at hchars
    simp [Url.portText] at hchars
  · next h80 => exact iff_of_true rfl fun hport => h80 (congrArg some hport)

/-! ### Tokens -/

/-- What the issuer writes into tokens for this client is accepted by it: for every authentication
that was started, whatever happens meanwhile, its nonce is part of the URL, and a token with it is
accepted until nonce or token expire. -/
def AcceptsTokensOf (c : Broker.Connection) (issuer : String) : Prop :=
  ∀ {μ : Type} (flow : Mock.Flow) (mode : Mock.ResponseMode) (s t : Party.State μ)
    (identifier : String) (url : Url) (issued : Instant) (email : String),
    s.client.connection = c →
    (s.authenticate (Mock.dialect flow mode) identifier).2 = .now (.ok url) →
    Party.Meanwhile (Mock.dialect flow mode) s.nextNonce
      (s.authenticate (Mock.dialect flow mode) identifier).1 t →
    issued.IsReading → t.now < s.now + c.nonceTtl →
    t.now.unixSeconds ≤ issued.unixSeconds + Mock.IdToken.lifetime + Mock.IdToken.leeway →
    ("nonce", s.nextNonce) ∈ url.pairs ∧
      (t.verify (Mock.dialect flow mode) (Mock.IdToken.issue issuer c.clientId email s.nextNonce
        issued.unixSeconds)).2 = .now (.ok email)

/-- Nothing that the issuer writes into tokens that have not expired is accepted by the client. -/
def RejectsTokensOf (c : Broker.Connection) (issuer : String) : Prop :=
  ∀ {μ : Type} (flow : Mock.Flow) (mode : Mock.ResponseMode) (s : Party.State μ) (issued : Instant)
    (audience email nonce : String),
    s.client.connection = c → s.client.isDestroyed = false → issued.IsReading →
    s.now.unixSeconds ≤ issued.unixSeconds + Mock.IdToken.lifetime + Mock.IdToken.leeway →
    (s.verify (Mock.dialect flow mode) (Mock.IdToken.issue issuer audience email nonce
      issued.unixSeconds)).2 = .now (.error (.invalidToken "InvalidIssuer"))

theorem acceptsTokensOf_issuer (c : Broker.Connection) : AcceptsTokensOf c c.issuer := by
  intro μ flow mode s t identifier url issued email hconnection hstarted hmeanwhile hissued hlives
    hnow
  subst hconnection
  obtain ⟨hawaits, target, rfl⟩ := Party.Awaits.of_authenticate hstarted
  obtain ⟨hiat, hexp⟩ := Mock.Claims.inRange_of_isReading hissued
  constructor
  · rw [Url.pairs_appendPairs]
    exact List.mem_append_right _ (.tail _ (.tail _ (.head _)))
  · exact (hawaits.meanwhile hmeanwhile).verify_of_check (Mock.issue_ne_empty _ _ _ _ _)
      (Mock.check_issue hiat hexp hnow email s.nextNonce) hlives

theorem rejectsTokensOf_of_ne {c : Broker.Connection} {issuer : String} (h : issuer ≠ c.issuer) :
    RejectsTokensOf c issuer := by
  intro μ flow mode s issued audience email nonce hconnection halive hissued hnow
  subst hconnection
  obtain ⟨hiat, hexp⟩ := Mock.Claims.inRange_of_isReading hissued
  have hcheck := @Mock.check_issue_of_ne s.client.connection flow mode issuer _ hiat hexp _ hnow h
    audience email nonce
  show Delayed.now (s.client.verify _ _ s.now).1 = _
  rw [Broker.Client.verify_of_check_error halive (Mock.issue_ne_empty _ _ _ _ _) hcheck]

/-- **Whom tokens have to name.** A configuration that is pointed at a mock broker on any port but
80 takes for the issuer what the mock broker signs as, and every token that this one issues is
accepted in time. On port 80 it takes the address without the port for the issuer, and every token
is rejected. -/
theorem issuer_agrees_iff {port : Nat} (hport : port ≤ 65535) (c : Configuration) :
    ∃ c', pointAt port c = .ok c' ∧ Url.parse (Mock.baseUrl port) = .ok c'.brokerUrl ∧
      c'.connection.clientId = c.connection.clientId ∧
      (port ≠ 80 → c'.connection.issuer = Mock.baseUrl port ∧
        AcceptsTokensOf c'.connection (Mock.baseUrl port)) ∧
      (port = 80 → c'.connection.issuer = "http://127.0.0.1" ∧
        RejectsTokensOf c'.connection (Mock.baseUrl port)) := by
  obtain ⟨tokenEndpoint, hpoint⟩ := pointAt_eq hport c
  let c' : Configuration := { c with brokerUrl := localServer port, tokenEndpoint }
  have hserver : c'.connection.brokerUrl = localServer port := rfl
  have hissuer := issuer_eq_baseUrl_iff hserver
  refine ⟨c', hpoint, parse_baseUrl hport, rfl, fun hne => ?_, fun h80 => ?_⟩
  · have hbase := hissuer.2 hne
    exact ⟨hbase, hbase ▸ acceptsTokensOf_issuer c'.connection⟩
  · have hother : Mock.baseUrl port ≠ c'.connection.issuer := fun heq => hissuer.1 heq.symm h80
    refine ⟨?_, rejectsTokensOf_of_ne hother⟩
    rw [Broker.Connection.issuer_of_server canonical_localServer hserver, h80]
    decide +kernel

/-- The configuration of a relying party on one machine with its broker. -/
def localConfiguration : Configuration where
  host := "127.0.0.1"
  port := 44180
  brokerUrl := Party.localUrl 44133 ""
  redirectUri := Party.localUrl 44180 "verify"
  tokenEndpoint := Party.localUrl 44133 "token"
  httpTimeout := .seconds 10

theorem issuer_agrees_local : 44133 ≤ 65535 ∧ ∃ c', pointAt 44133 localConfiguration = .ok c' ∧
    c'.connection.issuer = "http://127.0.0.1:44133" ∧
    AcceptsTokensOf c'.connection "http://127.0.0.1:44133" ∧
    ∃ url, (Party.State.authenticate (Mock.dialect .implicit .query) "a@b.com"
      { Party.localState with client := .start c'.connection 0 }).2 = .now (.ok url) := by
  have hport : 44133 ≤ 65535 := by decide
  have hbase : Mock.baseUrl 44133 = "http://127.0.0.1:44133" := by decide
  obtain ⟨c', hpoint, hparse, -, hagrees, -⟩ := issuer_agrees_iff hport localConfiguration
  obtain ⟨hissuer, haccepts⟩ := hagrees (by decide)
  rw [hbase] at hissuer haccepts
  have hurl : c'.brokerUrl = localServer 44133 :=
    Except.ok.inj (hparse.symm.trans (parse_baseUrl hport))
  have hfound : Mock.IsFound c'.connection.brokerUrl := by
    show Mock.IsFound c'.brokerUrl
    rw [hurl]
    exact ⟨rfl, by decide⟩
  obtain ⟨target, hstart, -, -⟩ := Mock.start_dialect hfound .implicit .query
  let client : Broker.Client := .start c'.connection 0
  have halive : client.isDestroyed = false := rfl
  have httl : client.connection.nonceTtl = .seconds (15 * 60) := rfl
  have hlongest : client.connection.nonceTtl ≤ Broker.Client.longestTtl := by
    rw [httl]
    decide
  have hvalid : Instant.isValid (Party.localState.now + client.connection.nonceTtl) := by
    rw [httl]
    decide
  have hstarted := Broker.Client.authenticate_of_start halive hstart hlongest hvalid "a@b.com"
    Party.localState.nextNonce (Broker.stateText 0)
  exact ⟨hport, c', hpoint, hissuer, haccepts, _,
    congrArg Prod.snd (Party.State.authenticate_of_ok hstarted)⟩

/-- A mock broker on port 80 writes `http://127.0.0.1:80` into its tokens, and the relying party
that is pointed at it rejects them. -/
theorem issuer_differs_on_default_port : ∃ c', pointAt 80 localConfiguration = .ok c' ∧
    Mock.baseUrl 80 = "http://127.0.0.1:80" ∧ c'.connection.issuer = "http://127.0.0.1" ∧
    (Party.State.verify (Mock.dialect .implicit .query)
      (Mock.IdToken.issue (Mock.baseUrl 80) c'.connection.clientId "a@b.com"
        Party.localState.nextNonce 0)
      { Party.localState with client := .start c'.connection 0 }).2 =
        .now (.error (.invalidToken "InvalidIssuer")) := by
  have hport : 80 ≤ 65535 := by decide
  obtain ⟨tokenEndpoint, hpoint⟩ := pointAt_eq hport localConfiguration
  let c' : Configuration :=
    { localConfiguration with brokerUrl := localServer 80, tokenEndpoint }
  have hserver : c'.connection.brokerUrl = localServer 80 := rfl
  have hother : Mock.baseUrl 80 ≠ c'.connection.issuer :=
    fun heq => (issuer_eq_baseUrl_iff hserver).1 heq.symm rfl
  have hnow : Party.localState.now.unixSeconds ≤
      Instant.unixSeconds 0 + Mock.IdToken.lifetime + Mock.IdToken.leeway := by decide
  refine ⟨c', hpoint, by decide, ?_, ?_⟩
  · rw [Broker.Connection.issuer_of_server canonical_localServer hserver]
    decide +kernel
  · exact rejectsTokensOf_of_ne hother .implicit .query _ 0 _ _ _ rfl rfl
      ⟨Int.le_refl 0, by decide⟩ hnow

end Launch

end SignIn
