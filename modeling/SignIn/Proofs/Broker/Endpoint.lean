import SignIn.Proofs.Configuration
import SignIn.Proofs.Url.Root
import SignIn.Proofs.Url.Server

/-!
# Where codes are exchanged, and whom tokens have to name

A configuration is told one URL of the broker, and two things follow from it: tokens have to name
the text of this URL without the slashes at its end, and codes are exchanged at `/token`, if no
other place is set. The first is trimming of a text and the second is resolving of a name from the
root, so the one keeps what the other drops.

Both come out as one broker for URLs that name a root only. For any other URL the codes go to the
root nevertheless, while the tokens have to name the whole.

## Main results

* `Broker.Connection.trimSlashes_eq_iff` — what trimming a text leaves
* `Configuration.tokenEndpoint_follows_issuer_iff` — when codes are exchanged under the issuer
-/

namespace SignIn

namespace Broker.Connection

theorem tokenEndpoint_of_join {c : Connection} {url : Url}
    (h : c.brokerUrl.join "/token" = .ok url) : c.tokenEndpoint = .ok url := by
  rw [tokenEndpoint, resolve, h]

/-- Trimming leaves the one front that has no slash at its end and only slashes behind it. -/
theorem trimSlashes_eq_iff {s front : String} :
    trimSlashes s = front ↔ front.toList.getLast? ≠ some '/' ∧
      ∃ n, s.toList = front.toList ++ List.replicate n '/' := by
  let isSlash (c : Char) : Bool := c = '/'
  have htrim : (trimSlashes s).toList = (s.toList.reverse.dropWhile isSlash).reverse :=
    String.toList_ofList
  constructor
  · rintro rfl
    refine ⟨?_, (s.toList.reverse.takeWhile isSlash).length, ?_⟩
    · intro hlast
      have hhead := List.head?_dropWhile_not isSlash s.toList.reverse
      rw [htrim, List.getLast?_reverse] at hlast
      rw [hlast] at hhead
      exact absurd hhead (by decide)
    · have hslashes : s.toList.reverse.takeWhile isSlash =
          List.replicate (s.toList.reverse.takeWhile isSlash).length '/' :=
        List.eq_replicate_of_mem fun c hc =>
          of_decide_eq_true (List.mem_takeWhile_imp hc : isSlash c = true)
      have hsplit : s.toList.reverse.takeWhile isSlash ++ s.toList.reverse.dropWhile isSlash =
          s.toList.reverse := List.takeWhile_append_dropWhile
      rw [hslashes] at hsplit
      have hreverse := congrArg List.reverse hsplit
      rw [List.reverse_append, List.reverse_replicate, List.reverse_reverse, ← htrim] at hreverse
      exact hreverse.symm
  · rintro ⟨hlast, n, hn⟩
    refine String.toList_inj.1 ?_
    have hslashes : ∀ c ∈ List.replicate n '/', isSlash c = true :=
      fun c hc => decide_eq_true (List.eq_of_mem_replicate hc)
    have hkept : front.toList.reverse.dropWhile isSlash = front.toList.reverse := by
      rw [← List.head?_reverse] at hlast
      cases hchars : front.toList.reverse with
      | nil => rfl
      | cons c rest =>
        rw [hchars, List.head?_cons] at hlast
        have hc : isSlash c = false := decide_eq_false fun e => hlast (congrArg some e)
        exact List.dropWhile_cons_of_neg (Bool.eq_false_iff.1 hc)
    rw [htrim, hn, List.reverse_append, List.reverse_replicate,
      List.dropWhile_append_of_pos hslashes, hkept, List.reverse_reverse]

/-- A broker that is known by its root is named like its root. -/
theorem issuer_eq_root_iff {c : Connection} (hurl : c.brokerUrl.Delimited)
    (hroot : c.brokerUrl.isRootless = false) :
    c.issuer = c.brokerUrl.root.toText ↔ c.brokerUrl.IsBare := by
  rw [issuer, trimSlashes_eq_iff]
  exact Url.isWrittenAsRoot_iff hurl hroot

end Broker.Connection

namespace Configuration

open Broker.Connection

variable {setting : Setting → Option String} {c : Configuration}

/-- **When codes are exchanged under the issuer.** If no other place is set, codes are exchanged
where the broker client has it, and that is `/token` behind the root of the broker. It is `/token`
behind the issuer exactly if the broker's URL names a root only. -/
theorem tokenEndpoint_follows_issuer_iff (hunset : setting .tokenEndpoint = none)
    (h : ofSettings setting = .ok c) :
    c.connection.tokenEndpoint = .ok c.tokenEndpoint ∧
      c.tokenEndpoint.toText = c.brokerUrl.root.toText ++ "/token" ∧
      (c.tokenEndpoint.toText = c.connection.issuer ++ "/token" ↔ c.brokerUrl.IsBare) := by
  obtain ⟨hparse, -, hjoin, -⟩ := of_ofSettings_eq_ok h
  have hurl := Url.delimited_of_parse hparse
  have hfound : c.brokerUrl.join ("/" ++ "token") = .ok c.tokenEndpoint := hjoin hunset
  have hroot := Url.isRootless_of_join isTarget_token hfound
  have hendpoint : c.tokenEndpoint = c.brokerUrl.fromRoot "token" :=
    Except.ok.inj (hfound.symm.trans (Url.join_of_delimited isTarget_token hurl hroot))
  have htext : c.tokenEndpoint.toText = c.brokerUrl.root.toText ++ "/token" := by
    rw [hendpoint]
    exact Url.toText_fromRoot c.brokerUrl "token"
  have hissuer : c.connection.issuer = c.brokerUrl.root.toText ↔ c.brokerUrl.IsBare :=
    issuer_eq_root_iff hurl hroot
  refine ⟨tokenEndpoint_of_join (hjoin hunset), htext, ?_⟩
  rw [htext, ← hissuer, eq_comm]
  exact String.append_left_inj "/token"

/-! ### Two brokers -/

/-- A path of one segment on an HTTP server. -/
def urlAt (name : String) (port : Nat) (segment : String) : Url :=
  { Url.ofServer "http" (.domain name) port with path := .segments [segment] }

/-- Settings that name a broker and nothing else. -/
def brokerOnly (text : String) : Setting → Option String
  | .brokerUrl => some text
  | _ => none

/-- Everything else is then as it is without any settings. -/
theorem ofSettings_brokerOnly {text : String} {brokerUrl tokenEndpoint : Url}
    (hparse : Url.parse text = .ok brokerUrl) (hjoin : brokerUrl.join "/token" = .ok tokenEndpoint) :
    ofSettings (brokerOnly text) = .ok {
      host := "127.0.0.1"
      port := 44180
      brokerUrl
      redirectUri := urlAt "localhost" 44180 "verify"
      tokenEndpoint
      httpTimeout := .seconds 10 } := by
  have hbroker : parseUrl .brokerUrl text = .ok brokerUrl := by rw [parseUrl, hparse]
  have hendpoint : endpointOf brokerUrl = .ok tokenEndpoint := by rw [endpointOf, hjoin]
  have hredirect : parseUrl .redirectUri "http://localhost:44180/verify" =
      .ok (urlAt "localhost" 44180 "verify") := by
    have hread : Url.parse "http://localhost:44180/verify" =
        .ok (urlAt "localhost" 44180 "verify") := by
      decide +kernel
    rw [parseUrl, hread]
  have hsteps : ofSettings (brokerOnly text) =
      parseUrl .brokerUrl text >>= fun brokerUrl =>
        endpointOf brokerUrl >>= fun tokenEndpoint =>
          parseUrl .redirectUri "http://localhost:44180/verify" >>= fun redirectUri =>
            .ok {
              host := "127.0.0.1"
              port := 44180
              brokerUrl
              redirectUri
              tokenEndpoint
              httpTimeout := .seconds 10 } := rfl
  rw [hsteps, hbroker, ok_bind, hendpoint, ok_bind, hredirect, ok_bind]

theorem tokenEndpoint_follows_issuer_of_root :
    brokerOnly "http://broker.test:8080" .tokenEndpoint = none ∧
      ∃ c, ofSettings (brokerOnly "http://broker.test:8080") = .ok c ∧
        c.connection.tokenEndpoint = .ok c.tokenEndpoint ∧
        c.tokenEndpoint.toText = "http://broker.test:8080/token" ∧
        c.tokenEndpoint.toText = c.connection.issuer ++ "/token" := by
  have hparse : Url.parse "http://broker.test:8080" = .ok (urlAt "broker.test" 8080 "") := by
    decide +kernel
  have hjoin : (urlAt "broker.test" 8080 "").join "/token" =
      .ok (urlAt "broker.test" 8080 "token") := by
    decide +kernel
  have hbare : (urlAt "broker.test" 8080 "").IsBare := by
    refine ⟨rfl, rfl, ⟨1, rfl, nofun⟩, ?_⟩
    rintro _ ⟨⟩
    decide
  have hsettings := ofSettings_brokerOnly hparse hjoin
  obtain ⟨hclient, -, hfollows⟩ := tokenEndpoint_follows_issuer_iff rfl hsettings
  exact ⟨rfl, _, hsettings, hclient, by decide, hfollows.2 hbare⟩

/-- A broker below the root of a server: tokens have to name the path, and codes are exchanged
without it. -/
theorem tokenEndpoint_leaves_issuer :
    ∃ c, ofSettings (brokerOnly "http://broker.test/base") = .ok c ∧
      c.connection.tokenEndpoint = .ok c.tokenEndpoint ∧
      c.tokenEndpoint.toText = "http://broker.test/token" ∧
      c.connection.issuer = "http://broker.test/base" ∧
      c.tokenEndpoint.toText ≠ c.connection.issuer ++ "/token" := by
  have hparse : Url.parse "http://broker.test/base" = .ok (urlAt "broker.test" 80 "base") := by
    decide +kernel
  have hjoin : (urlAt "broker.test" 80 "base").join "/token" =
      .ok (urlAt "broker.test" 80 "token") := by
    decide +kernel
  refine ⟨_, ofSettings_brokerOnly hparse hjoin, ?_, by decide, by decide, by decide⟩
  exact tokenEndpoint_of_join hjoin

end Configuration

end SignIn
