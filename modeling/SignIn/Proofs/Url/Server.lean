import SignIn.Proofs.Url.Parse

/-!
# The URLs of servers

A server is known by its scheme, its host and its port, and by nothing else. Its URL is read from
these three, and it is not always written with all of them: a port that is the default of the scheme
is left out. On the other hand the path of the root is written, though it was not there.

## Main definitions

* `Url.ofServer` — the URL of a server

## Main results

* `Url.parse_serverText` — how it is read
* `Url.toText_ofServer` — how it is written
-/

namespace SignIn.Url

/-- The port of a server as a URL has it: not at all if it is the default of the scheme. -/
def portOfServer (scheme : String) (port : Nat) : Option Nat :=
  if some port = defaultPort? scheme then none else some port

/-- The URL of a server. -/
def ofServer (scheme : String) (host : Host) (port : Nat) : Url where
  scheme
  username := ""
  password := ""
  host := some host
  port := portOfServer scheme port
  path := .segments [""]
  query := none
  fragment := none

/-- Scheme, host and port of a server, as they are written in front of a path. -/
def serverText (scheme : String) (host : Host) (port : Option Nat) : String :=
  scheme ++ "://" ++ host.toText ++ portText port

theorem toList_serverText (scheme : String) (host : Host) (port : Option Nat) :
    (serverText scheme host port).toList = scheme.toList ++
      ':' :: '/' :: '/' :: (host.toText.toList ++ (portText port).toList) := by
  have hmark : "://".toList = [':', '/', '/'] := rfl
  simp only [serverText, String.toList_append, hmark, List.append_assoc, List.cons_append,
    List.nil_append]

/-- The URL of a server is written with a path. -/
theorem toText_ofServer (scheme : String) (host : Host) (port : Nat) :
    (ofServer scheme host port).toText =
      serverText scheme host (portOfServer scheme port) ++ "/" := by
  apply String.toList_inj.1
  have hhost : (ofServer scheme host port).host = some host := rfl
  rw [toList_toText hhost, String.toList_append, toList_serverText]
  have huser : (ofServer scheme host port).userinfoText.toList = [] := rfl
  have hbehind : behindHost (ofServer scheme host port).path.toText.toList
      (ofServer scheme host port).query (ofServer scheme host port).fragment = ['/'] := by
    have hroot : (Path.segments [""]).toText.toList = ['/'] := by decide
    show behindHost (Path.segments [""]).toText.toList none none = ['/']
    rw [hroot]
    rfl
  rw [huser, hbehind, List.nil_append]
  simp only [List.append_assoc, List.cons_append]
  rfl

section Server

variable {scheme : String} {host : Host} {port : Nat}

theorem graphic_serverText (hscheme : scheme = "http" ∨ scheme = "https") (hhost : host.Canonical)
    (port : Option Nat) {c : Char} (hc : c ∈ (serverText scheme host port).toList) :
    IsGraphic c := by
  have hfront : ∀ c ∈ scheme.toList ++ [':', '/', '/'], IsGraphic c := by
    rcases hscheme with rfl | rfl
    · exact List.all_iff_forall_prop.1 (by decide)
    · exact List.all_iff_forall_prop.1 (by decide)
  have hshape : (serverText scheme host port).toList = (scheme.toList ++ [':', '/', '/']) ++
      (host.toText.toList ++ (portText port).toList) := by
    rw [toList_serverText, List.append_assoc]
    rfl
  rw [hshape] at hc
  rcases List.mem_append.1 hc with hc | hc
  · exact hfront c hc
  · exact (mem_place hhost hc).1

theorem ofParts_nil (hspecial : isSpecial scheme = true) :
    ofParts scheme none host (portOfServer scheme port) [] = ofServer scheme host port := by
  have hpath : pathBehindHost scheme (beforeQuery []) = .segments [""] := by
    rw [beforeQuery, List.takeWhile_nil, pathBehindHost, if_pos hspecial]
  rw [ofParts, hpath, Option.getD_none, List.takeWhile_nil, List.dropWhile_nil, List.drop_nil,
    escapePart_nil]
  rfl

/-- Where nothing follows the port, the path is that of the root. -/
theorem readAuthority_place (hspecial : isSpecial scheme = true) (hhost : host.Canonical)
    (hport : port ≤ 65535) :
    readAuthority scheme (host.toText.toList ++ (portText (some port)).toList) =
      .ok (ofServer scheme host port) := by
  let place := host.toText.toList ++ (portText (some port)).toList
  have hkept : ∀ c ∈ place, (!endsAuthority true c) = true := by
    intro c hc
    rw [endsAuthority_of_mem_place hhost hc]
    rfl
  have htake : place.takeWhile (!endsAuthority true ·) = place :=
    List.takeWhile_eq_self_iff.2 hkept
  have hdrop : place.dropWhile (!endsAuthority true ·) = [] := List.dropWhile_eq_nil_iff.2 hkept
  have huser : splitUserinfo place = (none, place) :=
    splitUserinfo_of_not_mem fun hmem => (mem_place hhost hmem).2 (by decide)
  have hsplit := splitHost_toText hhost (splitHost_portText (some port))
  have hfound : ¬((none = some ([] : List Char) ∧ place.isEmpty ∧ ¬([] : List Char).isEmpty) ∨
      host.toText.toList.isEmpty) :=
    not_or.2 ⟨fun hempty => Option.some_ne_none _ hempty.1.symm,
      fun hempty => Host.toText_ne_nil hhost (List.isEmpty_iff.1 hempty)⟩
  have hdigits : ((portText (some port)).toList.drop 1).takeWhile (· ≠ '\\') =
      Nat.toDigits 10 port := by
    rw [List.takeWhile_eq_self_iff.2 (noBackslash_portText (some port)), toList_portText]
    rfl
  have hbehind : ((portText (some port)).toList.drop 1).dropWhile (· ≠ '\\') = [] :=
    List.dropWhile_eq_nil_iff.2 (noBackslash_portText (some port))
  rw [readAuthority_eq hspecial htake hdrop huser hsplit, if_neg hfound,
    Host.ofSpecial_toText hhost, hdigits, hbehind, readPort_toDigits hport]
  exact congrArg Except.ok (ofParts_nil hspecial)

/-- The URL of a server is read from scheme, host and port. -/
theorem parse_serverText (hscheme : scheme = "http" ∨ scheme = "https") (hhost : host.Canonical)
    (hport : port ≤ 65535) :
    parse (serverText scheme host (some port)) = .ok (ofServer scheme host port) := by
  have hne : host.toText.toList ++ (portText (some port)).toList ≠ [] :=
    List.append_ne_nil_of_left_ne_nil (Host.toText_ne_nil hhost) _
  obtain ⟨c, cs, hcons⟩ := List.exists_cons_of_ne_nil hne
  have hends := endsAuthority_of_mem_place hhost (hcons ▸ List.mem_cons_self)
  have hspecial : isSpecial scheme = true := by
    rcases hscheme with rfl | rfl <;> rfl
  have htext := toList_serverText scheme host (some port)
  have hread := readAuthority_place hspecial hhost hport
  rw [hcons] at htext hread
  rw [parse_of_graphic hscheme htext (fun c hc => graphic_serverText hscheme hhost _ hc)
    (Bool.or_eq_false_iff.1 hends).1]
  exact hread

end Server

end SignIn.Url
