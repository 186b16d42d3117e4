import Mathlib.Data.Bool.AllAny
import SignIn.Proofs.Except
import SignIn.Proofs.Text.Marks
import SignIn.Proofs.Url.Escape
import SignIn.Proofs.Url.Host
import SignIn.Url.Parse

/-!
# URLs are read back

A URL that was read over HTTP schemes is read back from its written form. Every part of it holds
only what its place may hold, so the marks between the parts are found where they were written, and
what reading does to a part was done already.

## Main definitions

* `Url.Normal` — what a URL is like that was read

## Main results

* `Url.of_parse_eq_ok` — the ways in which a URL is read
* `Url.normal_of_parse` — a URL that was read over HTTP is normal
* `Url.parse_toText` — a normal URL is read back
-/

namespace SignIn.Url

/-! ### Paths -/

/-- A segment that a path keeps: it holds no slash, and it is no dots. -/
structure IsSegment (name : String) : Prop where
  escaped : Escaped pathEscapes name.toList
  slash : '/' ∉ name.toList
  backslash : '\\' ∉ name.toList
  dots : dotCount name = 0

theorem isSegment_empty : IsSegment "" :=
  ⟨fun _ hc => absurd hc List.not_mem_nil, List.not_mem_nil, List.not_mem_nil, by decide⟩

theorem addSegment_of_dotCount {name : String} (h : dotCount name = 0) (last : Bool)
    (segments : List String) : addSegment false last segments name = segments ++ [name] := by
  rw [addSegment, h]
  rfl

/-- Segments that are no dots are added as they are. -/
theorem addSegments_of_forall {names : List String} (h : ∀ n ∈ names, dotCount n = 0)
    (base : List String) : addSegments false base names = base ++ names := by
  induction names generalizing base with
  | nil => rw [addSegments, List.append_nil]
  | cons name names ih =>
    have hname := h name List.mem_cons_self
    cases names with
    | nil => rw [addSegments, addSegment_of_dotCount hname]
    | cons next names =>
      rw [addSegments, addSegment_of_dotCount hname,
        ih (fun n hn => h n (List.mem_cons_of_mem name hn)), List.append_assoc]
      · rfl
      · exact fun h => List.cons_ne_nil _ _ h

theorem toList_segments (name : String) (names : List String) :
    (Path.segments (name :: names)).toText.toList =
      '/' :: List.intercalate ['/'] ((name :: names).map String.toList) := by
  rw [Path.toText, List.map_cons, String.join_cons, String.toList_append, String.toList_append]
  induction names generalizing name with
  | nil => simp
  | cons next names ih =>
    rw [List.map_cons, String.join_cons, String.toList_append, String.toList_append, ih]
    simp

/-- Written segments are split again. -/
theorem segmentTexts_intercalate {names : List String} (hne : names ≠ [])
    (h : ∀ n ∈ names, IsSegment n) :
    segmentTexts true (List.intercalate ['/'] (names.map String.toList)) = names := by
  have hslash : ∀ piece ∈ names.map String.toList, '/' ∉ piece := by
    intro piece hpiece
    obtain ⟨n, hn, rfl⟩ := List.mem_map.1 hpiece
    exact (h n hn).slash
  have hid : (List.intercalate ['/'] (names.map String.toList)).map
      (fun c => if isSlash true c then '/' else c) =
        List.intercalate ['/'] (names.map String.toList) := by
    refine (List.map_congr_left fun c hc => ?_).trans (List.map_id _)
    obtain rfl | ⟨piece, hpiece, hc⟩ := mem_intercalate hc
    · rfl
    · obtain ⟨n, hn, rfl⟩ := List.mem_map.1 hpiece
      have hplain : ¬isSlash true c := by
        simp only [isSlash, Bool.true_and, Bool.or_eq_true, decide_eq_true_eq, not_or]
        exact ⟨fun e => (h n hn).slash (e ▸ hc), fun e => (h n hn).backslash (e ▸ hc)⟩
      exact if_neg hplain
  rw [segmentTexts, hid, splitChars_intercalate (fun e => hne (List.map_eq_nil_iff.1 e)) hslash,
    List.map_map]
  refine (List.map_congr_left fun n hn => ?_).trans (List.map_id names)
  rw [Function.comp_apply, escapePart_of_escaped (h n hn).escaped, String.ofList_toList]
  rfl

/-- A path is read back. -/
theorem pathBehindHost_segments {scheme : String} (hspecial : isSpecial scheme = true)
    (hfile : scheme ≠ "file") {names : List String} (hne : names ≠ [])
    (h : ∀ n ∈ names, IsSegment n) :
    pathBehindHost scheme (Path.segments names).toText.toList = .segments names := by
  obtain ⟨name, names, rfl⟩ := List.exists_cons_of_ne_nil hne
  have hslash : isSlash (isSpecial scheme) '/' = true := rfl
  have hscheme : (scheme == "file") = false := beq_eq_false_iff_ne.2 hfile
  rw [toList_segments, pathBehindHost]
  simp only [hslash, if_true]
  rw [pathFrom, segmentsFrom, hspecial, hscheme, segmentTexts_intercalate hne h,
    addSegments_of_forall fun n hn => (h n hn).dots]
  rfl

/-! ### What stands behind the host -/

theorem mem_segments {names : List String} (h : ∀ n ∈ names, IsSegment n) {c : Char}
    (hc : c ∈ (Path.segments names).toText.toList) : IsGraphic c ∧ endsPath c = false := by
  rw [Path.toText, String.toList_join, List.mem_flatMap] at hc
  obtain ⟨text, htext, hc⟩ := hc
  obtain ⟨n, hn, rfl⟩ := List.mem_map.1 htext
  rw [String.toList_append, List.mem_append] at hc
  obtain hc | hc := hc
  · rw [List.mem_singleton.1 hc]
    decide
  · obtain ⟨hgraphic, hnot⟩ := (h n hn).escaped c hc
    have hmarks : ∀ c, endsPath c = true → c ∈ pathEscapes := by
      intro c hc
      simp only [endsPath, Bool.or_eq_true, decide_eq_true_eq] at hc
      obtain rfl | rfl := hc
      · decide
      · decide
    exact ⟨hgraphic, Bool.eq_false_iff.2 fun e => hnot (hmarks c e)⟩

section Behind

variable {path : List Char} {query fragment : Option String}

/-- The written form of what stands behind the host. -/
def behindHost (path : List Char) (query fragment : Option String) : List Char :=
  path ++ ((partText "?" query).toList ++ (partText "#" fragment).toList)

theorem toList_partText (mark text : String) :
    (partText mark (some text)).toList = mark.toList ++ text.toList := String.toList_append

theorem beforeQuery_behindHost (hpath : ∀ c ∈ path, endsPath c = false) :
    beforeQuery (behindHost path query fragment) = path := by
  have hkept : ∀ c ∈ path, (!endsPath c) = true := by
    intro c hc
    rw [hpath c hc]
    rfl
  rw [beforeQuery, behindHost, List.takeWhile_append_of_pos hkept]
  have hnone : ((partText "?" query).toList ++ (partText "#" fragment).toList).takeWhile
      (!endsPath ·) = [] := by
    cases query with
    | some text =>
      rw [toList_partText]
      rfl
    | none =>
      cases fragment with
      | some text =>
        rw [toList_partText]
        rfl
      | none => rfl
  rw [hnone, List.append_nil]

theorem hash_not_mem (hpath : ∀ c ∈ path, endsPath c = false)
    (hquery : ∀ q ∈ query, Escaped (queryEscapes true) q.toList) :
    ∀ c ∈ path ++ (partText "?" query).toList, decide (c ≠ '#') = true := by
  intro c hc
  refine decide_eq_true ?_
  rintro rfl
  obtain hc | hc := List.mem_append.1 hc
  · exact absurd (hpath '#' hc) (by decide)
  · cases query with
    | none => exact absurd hc List.not_mem_nil
    | some text =>
      rw [toList_partText, List.mem_append] at hc
      obtain hc | hc := hc
      · exact absurd hc (by decide)
      · exact (hquery text rfl '#' hc).2 (by decide)

theorem queryOf_behindHost (hpath : ∀ c ∈ path, endsPath c = false)
    (hquery : ∀ q ∈ query, Escaped (queryEscapes true) q.toList) :
    queryOf true (behindHost path query fragment) = query := by
  have hbefore : (behindHost path query fragment).takeWhile (· ≠ '#') =
      path ++ (partText "?" query).toList := by
    rw [behindHost, ← List.append_assoc, List.takeWhile_append_of_pos (hash_not_mem hpath hquery)]
    cases fragment with
    | none => exact List.append_nil _
    | some text =>
      rw [toList_partText]
      exact List.append_nil _
  have hmark : ∀ c ∈ path, decide (c ≠ '?') = true := by
    intro c hc
    refine decide_eq_true ?_
    rintro rfl
    exact absurd (hpath '?' hc) (by decide)
  rw [queryOf, hbefore, List.dropWhile_append_of_pos hmark]
  cases query with
  | none => rfl
  | some text =>
    have htext := escapePart_of_escaped (hquery text rfl)
    rw [String.ofList_toList] at htext
    rw [toList_partText]
    exact congrArg some htext

theorem fragmentOf_behindHost (hpath : ∀ c ∈ path, endsPath c = false)
    (hquery : ∀ q ∈ query, Escaped (queryEscapes true) q.toList)
    (hfragment : ∀ f ∈ fragment, Escaped fragmentEscapes f.toList) :
    fragmentOf (behindHost path query fragment) = fragment := by
  rw [fragmentOf, behindHost, ← List.append_assoc,
    List.dropWhile_append_of_pos (hash_not_mem hpath hquery)]
  cases fragment with
  | none => rfl
  | some text =>
    have htext := escapePart_of_escaped (hfragment text rfl)
    rw [String.ofList_toList] at htext
    rw [toList_partText]
    exact congrArg some htext

end Behind

/-! ### Authorities -/

theorem splitUserinfo_append {info place : List Char} (h : '@' ∉ place) :
    splitUserinfo (info ++ '@' :: place) = (some info, place) := by
  rw [splitUserinfo, Marks.dropWhile_reverse h, Marks.takeWhile_reverse h]
  simp only [List.reverse_reverse]

theorem splitUserinfo_of_not_mem {place : List Char} (h : '@' ∉ place) :
    splitUserinfo place = (none, place) := by
  rw [splitUserinfo, Marks.dropWhile_reverse_of_not_mem h]

/-- Outside of brackets, a host goes on up to a colon. -/
theorem splitHost_outside {part : List Char} (h : ∀ c ∈ part, c ≠ ':' ∧ c ≠ '[')
    (rest : List Char) :
    splitHost false (part ++ rest) =
      (part ++ (splitHost false rest).1, (splitHost false rest).2) := by
  induction part with
  | nil => rfl
  | cons c part ih =>
    obtain ⟨hcolon, hopen⟩ := h c List.mem_cons_self
    have hrest := ih fun d hd => h d (List.mem_cons_of_mem c hd)
    rw [List.cons_append, splitHost]
    simp [hcolon, hopen, hrest]

/-- In brackets, it goes on up to the closing one. -/
theorem splitHost_inside {part : List Char} (h : ∀ c ∈ part, c ≠ ']') (rest : List Char) :
    splitHost true (part ++ rest) = (part ++ (splitHost true rest).1, (splitHost true rest).2) := by
  induction part with
  | nil => rfl
  | cons c part ih =>
    have hclose := h c List.mem_cons_self
    have hrest := ih fun d hd => h d (List.mem_cons_of_mem c hd)
    rw [List.cons_append, splitHost]
    simp [hclose, hrest]

/-- A written host is told from the port behind it. -/
theorem splitHost_toText {host : Host} (h : host.Canonical) {port : List Char}
    (hport : splitHost false port = ([], port)) :
    splitHost false (host.toText.toList ++ port) = (host.toText.toList, port) := by
  have hname : ∀ {name : List Char}, Host.IsName name →
      splitHost false (name ++ port) = (name, port) := by
    intro name hname
    have hmarks : ∀ c ∈ name, c ≠ ':' ∧ c ≠ '[' := fun c hc =>
      ⟨Host.ne_of_isName hname hc (by decide), Host.ne_of_isName hname hc (by decide)⟩
    rw [splitHost_outside hmarks, hport, List.append_nil]
  cases host with
  | domain name => exact hname h.1
  | ipv4 address => exact hname (Host.isName_ipv4Text address)
  | ipv6 pieces =>
    have htext : (Host.toText (.ipv6 pieces)).toList ++ port =
        '[' :: ((Host.ipv6Text pieces).toList ++ ']' :: port) := by
      rw [Host.toText, String.toList_append, String.toList_append]
      simp
    have hinner : ∀ c ∈ (Host.ipv6Text pieces).toList, c ≠ ']' := by
      intro c hc
      obtain rfl | ⟨d, hd, rfl⟩ := Host.mem_ipv6Text hc
      · decide
      · exact (Host.digitChar_spec hd).2.2.2
    have hclose : splitHost true (']' :: port) = ([']'], port) := by
      rw [splitHost]
      simp [hport]
    have hopen : splitHost true ((Host.ipv6Text pieces).toList ++ ']' :: port) =
        ((Host.ipv6Text pieces).toList ++ [']'], port) := by
      rw [splitHost_inside hinner, hclose]
    rw [htext, splitHost]
    simp [hopen, Host.toText]

/-- The written form of a port. -/
theorem toList_portText (p : Nat) : (portText (some p)).toList = ':' :: Nat.toDigits 10 p := by
  have hdigits : (toString p).toList = Nat.toDigits 10 p := String.toList_ofList
  rw [portText, String.toList_append, hdigits]
  rfl

theorem splitHost_portText (port : Option Nat) :
    splitHost false (portText port).toList = ([], (portText port).toList) := by
  cases port with
  | none => rfl
  | some p =>
    rw [toList_portText]
    rfl

/-- A port is read from its digits, and left out if it is the default. -/
theorem readPort_toDigits {port : Nat} (h : port ≤ 65535) (scheme : String) :
    readPort scheme (Nat.toDigits 10 port) =
      .ok (if some port = defaultPort? scheme then none else some port) := by
  have hne : (Nat.toDigits 10 port).isEmpty = false :=
    List.isEmpty_eq_false_iff.2 Nat.toDigits_ne_nil
  rw [readPort, hne, Host.number?_toDigits (by decide) (by decide)]
  simp only [Bool.false_eq_true, if_false, if_neg (Nat.not_lt.2 h)]

/-- A port that is not the default is read back. -/
theorem readPort_portText {scheme : String} {port : Option Nat}
    (h : ∀ p ∈ port, p ≤ 65535 ∧ some p ≠ defaultPort? scheme) :
    readPort scheme ((portText port).toList.drop 1) = .ok port := by
  cases port with
  | none => rfl
  | some p =>
    obtain ⟨hsize, hdefault⟩ := h p rfl
    rw [toList_portText, List.drop_one, List.tail_cons, readPort_toDigits hsize, if_neg hdefault]

/-- A URL with a host. -/
def ofParts (scheme : String) (userinfo : Option (List Char)) (host : Host) (port : Option Nat)
    (rest : List Char) : Url where
  scheme
  username := escapePart userinfoEscapes ((userinfo.getD []).takeWhile (· ≠ ':'))
  password := escapePart userinfoEscapes (((userinfo.getD []).dropWhile (· ≠ ':')).drop 1)
  host := some host
  port
  path := pathBehindHost scheme (beforeQuery rest)
  query := queryOf true rest
  fragment := fragmentOf rest

/-- How a URL is read from its parts. -/
theorem readAuthority_eq {scheme : String} {text authority rest place hostText portPart : List Char}
    {userinfo : Option (List Char)} (hspecial : isSpecial scheme = true)
    (htake : text.takeWhile (!endsAuthority true ·) = authority)
    (hdrop : text.dropWhile (!endsAuthority true ·) = rest)
    (huser : splitUserinfo authority = (userinfo, place))
    (hhost : splitHost false place = (hostText, portPart)) :
    readAuthority scheme text =
      if (userinfo = some [] ∧ place.isEmpty ∧ ¬rest.isEmpty) ∨ hostText.isEmpty then
        .error .emptyHost
      else do
        let host ← Host.ofSpecial hostText
        let port ← readPort scheme ((portPart.drop 1).takeWhile (· ≠ '\\'))
        return ofParts scheme userinfo host port
          ((portPart.drop 1).dropWhile (· ≠ '\\') ++ rest) := by
  rw [readAuthority]
  simp only [hspecial, htake, hdrop, huser, hhost]
  by_cases hempty : userinfo = some [] ∧ place.isEmpty ∧ ¬rest.isEmpty
  · rw [if_pos (Or.inl hempty)]
    exact if_pos hempty
  by_cases hnone : hostText.isEmpty
  · rw [if_pos (Or.inr hnone)]
    exact (if_neg hempty).trans (if_pos ⟨hnone, .inl trivial⟩)
  have hfound : ¬((userinfo = some [] ∧ place.isEmpty ∧ ¬rest.isEmpty) ∨ hostText.isEmpty) :=
    not_or.2 ⟨hempty, hnone⟩
  rw [if_neg hfound]
  refine (if_neg hempty).trans ((if_neg fun h => hnone h.1).trans ((if_pos trivial).trans ?_))
  cases Host.ofSpecial hostText with
  | error e => rfl
  | ok host =>
    cases readPort scheme ((portPart.drop 1).takeWhile (· ≠ '\\')) with
    | error e => rfl
    | ok port => exact if_neg fun h => hnone h.1

/-- What a URL over HTTP is like that was read. -/
structure Normal (u : Url) : Prop where
  scheme : u.scheme = "http" ∨ u.scheme = "https"
  username : Escaped userinfoEscapes u.username.toList
  password : Escaped userinfoEscapes u.password.toList
  host : ∃ host : Host, u.host = some host ∧ host.Canonical
  port : ∀ p ∈ u.port, p ≤ 65535 ∧ some p ≠ defaultPort? u.scheme
  path : ∃ names, u.path = .segments names ∧ names ≠ [] ∧ ∀ n ∈ names, IsSegment n
  query : ∀ q ∈ u.query, Escaped (queryEscapes true) q.toList
  fragment : ∀ f ∈ u.fragment, Escaped fragmentEscapes f.toList

section Written

variable {u : Url} {host : Host}

/-- User name and password are found again in front of a host. -/
theorem splitUserinfo_userinfoText (h : u.Normal) {place : List Char} (hplace : '@' ∉ place) :
    ∃ info, splitUserinfo (u.userinfoText.toList ++ place) = (info, place) ∧ info ≠ some [] ∧
      (info.getD []).takeWhile (· ≠ ':') = u.username.toList ∧
        ((info.getD []).dropWhile (· ≠ ':')).drop 1 = u.password.toList := by
  have hcolon : ∀ c ∈ u.username.toList, decide (c ≠ ':') = true := by
    intro c hc
    refine decide_eq_true ?_
    rintro rfl
    exact (h.username ':' hc).2 (by decide)
  by_cases hpassword : u.password = ""
  · by_cases husername : u.username = ""
    · refine ⟨none, ?_, Option.some_ne_none [] ∘ Eq.symm, ?_, ?_⟩
      · rw [userinfoText, if_pos ⟨husername, hpassword⟩]
        exact splitUserinfo_of_not_mem hplace
      · rw [husername]
        rfl
      · rw [hpassword]
        rfl
    · refine ⟨some (u.username.toList ++ []), ?_, ?_, ?_, ?_⟩
      · rw [userinfoText, if_neg fun hboth => husername hboth.1, if_pos hpassword,
          String.toList_append, List.append_assoc, List.append_nil]
        exact splitUserinfo_append hplace
      · intro hnil
        rw [List.append_nil] at hnil
        exact husername (String.toList_eq_nil_iff.1 (Option.some.inj hnil))
      · rw [Option.getD_some, List.takeWhile_append_of_pos hcolon]
        exact List.append_nil _
      · rw [Option.getD_some, List.dropWhile_append_of_pos hcolon, hpassword]
        rfl
  · refine ⟨some (u.username.toList ++ ':' :: u.password.toList), ?_, ?_, ?_, ?_⟩
    · have hshape : (u.username ++ ":" ++ u.password ++ "@").toList ++ place =
          (u.username.toList ++ ':' :: u.password.toList) ++ '@' :: place := by
        simp
      rw [userinfoText, if_neg fun hboth => hpassword hboth.2, if_neg hpassword, hshape]
      exact splitUserinfo_append hplace
    · intro hnil
      exact List.append_ne_nil_of_right_ne_nil _ (List.cons_ne_nil _ _) (Option.some.inj hnil)
    · rw [Option.getD_some, List.takeWhile_append_of_pos hcolon]
      exact List.append_nil _
    · rw [Option.getD_some, List.dropWhile_append_of_pos hcolon]
      rfl

theorem mem_userinfoText (h : u.Normal) {c : Char} (hc : c ∈ u.userinfoText.toList) :
    IsGraphic c ∧ endsAuthority true c = false := by
  have hends : ∀ c, endsAuthority true c = true → c ∈ userinfoEscapes := by
    intro c hc
    simp only [endsAuthority, isSlash, endsPath, Bool.true_and, Bool.or_eq_true,
      decide_eq_true_eq] at hc
    obtain (rfl | rfl) | rfl | rfl := hc
    · decide
    · decide
    · decide
    · decide
  have hescaped : ∀ {text : List Char}, Escaped userinfoEscapes text → c ∈ text →
      IsGraphic c ∧ endsAuthority true c = false :=
    fun htext hc => ⟨(htext c hc).1, Bool.eq_false_iff.2 fun e => (htext c hc).2 (hends c e)⟩
  have hmark : ∀ x ∈ [':', '@'], IsGraphic x ∧ endsAuthority true x = false :=
    List.all_iff_forall_prop.1 (by decide)
  rw [userinfoText] at hc
  split at hc
  · exact absurd hc List.not_mem_nil
  · split at hc
    · rw [String.toList_append, List.mem_append] at hc
      obtain hc | hc := hc
      · exact hescaped h.username hc
      · exact hmark c (List.mem_cons_of_mem ':' hc)
    · rw [String.toList_append, String.toList_append, String.toList_append, List.mem_append,
        List.mem_append, List.mem_append] at hc
      obtain ((hc | hc) | hc) | hc := hc
      · exact hescaped h.username hc
      · exact hmark c (List.mem_append_left ['@'] hc)
      · exact hescaped h.password hc
      · exact hmark c (List.mem_cons_of_mem ':' hc)

/-- The characters of a written place. -/
theorem mem_place (hhost : host.Canonical) {port : Option Nat} {c : Char}
    (hc : c ∈ host.toText.toList ++ (portText port).toList) :
    IsGraphic c ∧ c ∉ ['/', '\\', '?', '#', '@'] := by
  obtain hc | hc := List.mem_append.1 hc
  · exact Host.mem_toText hhost hc
  · cases port with
    | none => exact absurd hc List.not_mem_nil
    | some p =>
      have hdigit : ∀ n < 58, 48 ≤ n → IsGraphic (Char.ofNat n) ∧
          Char.ofNat n ∉ ['/', '\\', '?', '#', '@'] := by
        decide
      rw [toList_portText, List.mem_cons] at hc
      obtain rfl | hc := hc
      · decide
      · obtain ⟨hlow, hhigh⟩ := Digits.toNat_of_isDigit (Digits.isDigit_toDigits p c hc)
        have hspec := hdigit c.toNat (by omega) hlow
        rwa [Char.ofNat_toNat] at hspec

theorem endsAuthority_of_mem_place (hhost : host.Canonical) {port : Option Nat} {c : Char}
    (hc : c ∈ host.toText.toList ++ (portText port).toList) : endsAuthority true c = false := by
  have hnot := (mem_place hhost hc).2
  simp only [List.mem_cons, List.not_mem_nil, or_false, not_or] at hnot
  obtain ⟨hslash, hbackslash, hquery, hhash, -⟩ := hnot
  simp [endsAuthority, isSlash, endsPath, hslash, hbackslash, hquery, hhash]

/-- Everything between the scheme and the path. -/
theorem mem_authority (h : u.Normal) (hhost : host.Canonical) {c : Char}
    (hc : c ∈ u.userinfoText.toList ++ (host.toText.toList ++ (portText u.port).toList)) :
    IsGraphic c ∧ endsAuthority true c = false := by
  obtain hc | hc := List.mem_append.1 hc
  · exact mem_userinfoText h hc
  · exact ⟨(mem_place hhost hc).1, endsAuthority_of_mem_place hhost hc⟩

theorem isSpecial_of_normal (h : u.Normal) : isSpecial u.scheme = true := by
  obtain hscheme | hscheme := h.scheme
  · rw [hscheme]
    decide
  · rw [hscheme]
    decide

theorem ne_file_of_normal (h : u.Normal) : u.scheme ≠ "file" := by
  obtain hscheme | hscheme := h.scheme
  · rw [hscheme]
    decide
  · rw [hscheme]
    decide

/-- The port is all that stands between the host and the path. -/
theorem noBackslash_portText (port : Option Nat) :
    ∀ c ∈ (portText port).toList.drop 1, decide (c ≠ '\\') = true := by
  intro c hc
  cases port with
  | none => exact absurd hc List.not_mem_nil
  | some p =>
    rw [toList_portText, List.drop_one, List.tail_cons] at hc
    refine decide_eq_true ?_
    rintro rfl
    exact absurd (Digits.isDigit_toDigits p _ hc) (by decide)

/-- The parts of a normal URL make up that URL. -/
theorem ofParts_of_normal (h : u.Normal) (hhost : u.host = some host)
    {info : Option (List Char)} (huser : (info.getD []).takeWhile (· ≠ ':') = u.username.toList)
    (hpassword : ((info.getD []).dropWhile (· ≠ ':')).drop 1 = u.password.toList) :
    ofParts u.scheme info host u.port (behindHost u.path.toText.toList u.query u.fragment) = u := by
  obtain ⟨names, hpath, hne, hnames⟩ := h.path
  have hends : ∀ c ∈ u.path.toText.toList, endsPath c = false := by
    rw [hpath]
    exact fun c hc => (mem_segments hnames hc).2
  have husername : escapePart userinfoEscapes u.username.toList = u.username := by
    rw [escapePart_of_escaped h.username, String.ofList_toList]
  have hpasswordText : escapePart userinfoEscapes u.password.toList = u.password := by
    rw [escapePart_of_escaped h.password, String.ofList_toList]
  have hreadPath : pathBehindHost u.scheme u.path.toText.toList = u.path := by
    rw [hpath]
    exact pathBehindHost_segments (isSpecial_of_normal h) (ne_file_of_normal h) hne hnames
  rw [ofParts, huser, hpassword, husername, hpasswordText, beforeQuery_behindHost hends, hreadPath,
    queryOf_behindHost hends h.query, fragmentOf_behindHost hends h.query h.fragment, ← hhost]

theorem readAuthority_written (h : u.Normal) (hhost : u.host = some host) :
    readAuthority u.scheme (u.userinfoText.toList ++ (host.toText.toList ++
      (portText u.port).toList) ++ behindHost u.path.toText.toList u.query u.fragment) = .ok u := by
  obtain ⟨host', hhost', hcanonical⟩ := h.host
  obtain rfl : host = host' := Option.some.inj (hhost.symm.trans hhost')
  obtain ⟨names, hpath, hne, hnames⟩ := h.path
  let place := host.toText.toList ++ (portText u.port).toList
  let rest := behindHost u.path.toText.toList u.query u.fragment
  have hplace : '@' ∉ place := fun hmem => (mem_place hcanonical hmem).2 (by decide)
  obtain ⟨info, hinfo, hinfoNe, huser, hpassword⟩ := splitUserinfo_userinfoText h hplace
  have hkept : ∀ c ∈ u.userinfoText.toList ++ place, (!endsAuthority true c) = true := by
    intro c hc
    rw [(mem_authority h hcanonical hc).2]
    rfl
  have hrest : ∃ tail, rest = '/' :: tail := by
    obtain ⟨name, names, rfl⟩ := List.exists_cons_of_ne_nil hne
    simp only [rest, hpath, toList_segments, behindHost]
    exact ⟨_, rfl⟩
  obtain ⟨tail, htail⟩ := hrest
  have htake : (u.userinfoText.toList ++ place ++ rest).takeWhile (!endsAuthority true ·) =
      u.userinfoText.toList ++ place := by
    rw [List.takeWhile_append_of_pos hkept, htail]
    exact List.append_nil _
  have hdrop :
      (u.userinfoText.toList ++ place ++ rest).dropWhile (!endsAuthority true ·) = rest := by
    rw [List.dropWhile_append_of_pos hkept, htail]
    rfl
  have hsplit := splitHost_toText hcanonical (splitHost_portText u.port)
  have hfound : ¬((info = some [] ∧ place.isEmpty ∧ ¬rest.isEmpty) ∨ host.toText.toList.isEmpty) :=
    not_or.2 ⟨fun hempty => hinfoNe hempty.1,
      fun hempty => Host.toText_ne_nil hcanonical (List.isEmpty_iff.1 hempty)⟩
  have hdigits : ((portText u.port).toList.drop 1).takeWhile (· ≠ '\\') =
      (portText u.port).toList.drop 1 :=
    List.takeWhile_eq_self_iff.2 (noBackslash_portText u.port)
  have hbehind : ((portText u.port).toList.drop 1).dropWhile (· ≠ '\\') = [] :=
    List.dropWhile_eq_nil_iff.2 (noBackslash_portText u.port)
  rw [readAuthority_eq (isSpecial_of_normal h) htake hdrop hinfo hsplit, if_neg hfound,
    Host.ofSpecial_toText hcanonical, hdigits, hbehind, readPort_portText h.port]
  exact congrArg Except.ok (ofParts_of_normal h hhost huser hpassword)

/-- Everything counts in a text of graphic characters. -/
theorem significant_of_graphic {text : String} (h : ∀ c ∈ text.toList, IsGraphic c) :
    significant text = text.toList := by
  have hblanks : ∀ {cs : List Char}, (∀ c ∈ cs, IsGraphic c) →
      cs.dropWhile (fun c => c.toNat ≤ 0x20) = cs := by
    intro cs hcs
    cases cs with
    | nil => rfl
    | cons c cs =>
      have hc : ¬c.toNat ≤ 0x20 := Nat.not_le.2 (hcs c List.mem_cons_self).1
      exact List.dropWhile_cons_of_neg (by simpa using hc)
  have hreverse : ∀ c ∈ text.toList.reverse, IsGraphic c := fun c hc => h c (List.mem_reverse.1 hc)
  have hkept : ∀ c ∈ text.toList, (c ≠ '\t' && c ≠ '\n' && c ≠ '\r') = true := by
    intro c hc
    have hblank : ∀ x : Char, x.toNat ≤ 0x20 → c ≠ x := by
      rintro x hx rfl
      exact absurd (h c hc).1 (Nat.not_lt.2 hx)
    simp [hblank '\t' (by decide), hblank '\n' (by decide), hblank '\r' (by decide)]
  rw [significant]
  simp only [hblanks h, hblanks hreverse, List.reverse_reverse]
  exact List.filter_eq_self.2 hkept

theorem toList_toText (hhost : u.host = some host) :
    u.toText.toList = u.scheme.toList ++ ':' :: '/' :: '/' :: (u.userinfoText.toList ++
      (host.toText.toList ++ (portText u.port).toList) ++
        behindHost u.path.toText.toList u.query u.fragment) := by
  have hslashes : "//".toList = ['/', '/'] := rfl
  have hcolon : ":".toList = [':'] := rfl
  rw [toText, authorityText, hhost]
  simp only [String.toList_append, behindHost, hslashes, hcolon, List.append_assoc,
    List.cons_append, List.nil_append]

theorem mem_toText (h : u.Normal) {c : Char} (hc : c ∈ u.toText.toList) : IsGraphic c := by
  obtain ⟨host, hhost, hcanonical⟩ := h.host
  obtain ⟨names, hpath, -, hnames⟩ := h.path
  have hpart : ∀ {mark : String} {text : Option String} {escapes : List Char},
      (∀ c ∈ mark.toList, IsGraphic c) → (∀ t ∈ text, Escaped escapes t.toList) →
        c ∈ (partText mark text).toList → IsGraphic c := by
    intro mark text escapes hmark htext hc
    cases text with
    | none => exact absurd hc List.not_mem_nil
    | some text =>
      rw [toList_partText] at hc
      obtain hc | hc := List.mem_append.1 hc
      · exact hmark c hc
      · exact (htext text rfl c hc).1
  have hfront : ∀ c ∈ u.scheme.toList ++ ":".toList ++ "//".toList, IsGraphic c := by
    obtain hscheme | hscheme := h.scheme
    · rw [hscheme]
      exact List.all_iff_forall_prop.1 (by decide)
    · rw [hscheme]
      exact List.all_iff_forall_prop.1 (by decide)
  have hshape : u.toText.toList = u.scheme.toList ++ ":".toList ++ "//".toList ++
      (u.userinfoText.toList ++ (host.toText.toList ++ (portText u.port).toList)) ++
        (u.path.toText.toList ++ ((partText "?" u.query).toList ++
          (partText "#" u.fragment).toList)) := by
    rw [toList_toText hhost, behindHost]
    simp only [List.append_assoc]
    rfl
  rw [hshape] at hc
  obtain hc | hc := List.mem_append.1 hc
  · obtain hc | hc := List.mem_append.1 hc
    · exact hfront c hc
    · exact (mem_authority h hcanonical hc).1
  · obtain hc | hc := List.mem_append.1 hc
    · rw [hpath] at hc
      exact (mem_segments hnames hc).1
    · obtain hc | hc := List.mem_append.1 hc
      · exact hpart (List.all_iff_forall_prop.1 (by decide)) h.query hc
      · exact hpart (List.all_iff_forall_prop.1 (by decide)) h.fragment hc

theorem parse_of_splitScheme {text scheme : String} {rest : List Char}
    (h : splitScheme (significant text) = some (scheme, rest)) :
    parse text = readWithScheme none scheme rest := by
  rw [parse, Url.read.eq_def]
  simp only [h]

/-- A text over HTTP is read from behind two slashes, if no third one follows them. -/
theorem parse_of_graphic {text scheme : String} {c : Char} {cs : List Char}
    (hscheme : scheme = "http" ∨ scheme = "https")
    (htext : text.toList = scheme.toList ++ ':' :: '/' :: '/' :: c :: cs)
    (hgraphic : ∀ c ∈ text.toList, IsGraphic c) (hslash : isSlash true c = false) :
    parse text = readAuthority scheme (c :: cs) := by
  have hsplit : splitScheme (significant text) = some (scheme, '/' :: '/' :: c :: cs) := by
    rw [significant_of_graphic hgraphic, htext]
    obtain rfl | rfl := hscheme <;> rfl
  have hfile : scheme ≠ "file" := by
    obtain rfl | rfl := hscheme <;> decide
  have hspecial : isSpecial scheme = true := by
    obtain rfl | rfl := hscheme <;> rfl
  have hslashes : (('/' :: '/' :: c :: cs).takeWhile (isSlash true)).length = 2 := by
    have hbar : isSlash true '/' = true := rfl
    rw [List.takeWhile_cons_of_pos hbar, List.takeWhile_cons_of_pos hbar,
      List.takeWhile_cons_of_neg (Bool.eq_false_iff.1 hslash)]
    rfl
  rw [parse_of_splitScheme hsplit, readWithScheme, if_neg hfile, if_pos hspecial]
  simp only [hslashes]
  rfl

/-- A URL that was read is read back from its written form. -/
theorem parse_toText (h : u.Normal) : parse u.toText = .ok u := by
  obtain ⟨host, hhost, hcanonical⟩ := h.host
  -- The user or the host comes right behind the two slashes, and neither starts with a third one.
  have hne : u.userinfoText.toList ++ (host.toText.toList ++ (portText u.port).toList) ≠ [] :=
    List.append_ne_nil_of_right_ne_nil _
      (List.append_ne_nil_of_left_ne_nil (Host.toText_ne_nil hcanonical) _)
  obtain ⟨c, cs, hcons⟩ := List.exists_cons_of_ne_nil hne
  have hends := (mem_authority h hcanonical (hcons ▸ List.mem_cons_self)).2
  have hslash : isSlash true c = false := (Bool.or_eq_false_iff.1 hends).1
  have htext := toList_toText hhost
  have hwritten := readAuthority_written h hhost
  rw [hcons] at htext hwritten
  rw [parse_of_graphic h.scheme htext (fun c hc => mem_toText h hc) hslash]
  exact hwritten

end Written

/-! ### What is read is normal -/

theorem isSegment_escapePart {text piece : List Char} (hbackslash : '\\' ∉ text)
    (hpiece : piece ∈ splitChars '/' text) (hdots : dotCount (escapePart pathEscapes piece) = 0) :
    IsSegment (escapePart pathEscapes piece) where
  escaped := escaped_escapePart escapes_path piece
  slash hmem := (mem_splitChars hpiece (mem_of_mem_escapePart hmem (by decide) (by decide))).2 rfl
  backslash hmem := hbackslash
    (mem_splitChars hpiece (mem_of_mem_escapePart hmem (by decide) (by decide))).1
  dots := hdots

theorem mem_of_mem_parent {file : Bool} {segments : List String} {n : String}
    (h : n ∈ parent file segments) : n ∈ segments := by
  unfold parent at h
  split at h
  · split at h
    · exact h
    · exact absurd h List.not_mem_nil
  · exact (List.dropLast_sublist segments).subset h

theorem isSegment_of_mem_addSegment {last : Bool} {segments : List String} {name n : String}
    (hsegments : ∀ n ∈ segments, IsSegment n) (hname : dotCount name = 0 → IsSegment name)
    (h : n ∈ addSegment false last segments name) : IsSegment n := by
  have hempty : ∀ {segments : List String}, (∀ n ∈ segments, IsSegment n) →
      ∀ n ∈ segments ++ [""], IsSegment n := by
    intro segments hsegments
    rw [List.forall_mem_append, List.forall_mem_singleton]
    exact ⟨hsegments, isSegment_empty⟩
  have hparent : ∀ n ∈ parent false segments, IsSegment n :=
    fun n hn => hsegments n (mem_of_mem_parent hn)
  rw [addSegment] at h
  split at h
  · split at h
    · exact hempty hparent n h
    · exact hparent n h
  · split at h
    · exact hempty hsegments n h
    · exact hsegments n h
  · next htwo hone =>
    have hdots : dotCount name = 0 := by
      rw [dotCount] at hone htwo ⊢
      split
      · next e => exact absurd (by rw [e]; rfl) hone
      · next e => exact absurd (by rw [e]; rfl) htwo
      · rfl
    simp only [Bool.false_and, Bool.false_eq_true, if_false, List.mem_append,
      List.mem_singleton] at h
    obtain h | rfl := h
    · exact hsegments n h
    · exact hname hdots

theorem addSegment_ne_nil (segments : List String) (name : String) :
    addSegment false true segments name ≠ [] := by
  rw [addSegment]
  split
  · exact List.append_ne_nil_of_right_ne_nil _ (List.cons_ne_nil _ _)
  · exact List.append_ne_nil_of_right_ne_nil _ (List.cons_ne_nil _ _)
  · split
    · exact List.cons_ne_nil _ _
    · exact List.append_ne_nil_of_right_ne_nil _ (List.cons_ne_nil _ _)

theorem isSegment_of_mem_addSegments {names base : List String} {n : String}
    (hbase : ∀ n ∈ base, IsSegment n) (hnames : ∀ n ∈ names, dotCount n = 0 → IsSegment n)
    (h : n ∈ addSegments false base names) : IsSegment n := by
  induction names generalizing base with
  | nil => exact hbase n h
  | cons name names ih =>
    have hname := hnames name List.mem_cons_self
    cases names with
    | nil => exact isSegment_of_mem_addSegment hbase hname h
    | cons next names =>
      rw [addSegments] at h
      · exact ih (fun m hm => isSegment_of_mem_addSegment hbase hname hm)
          (fun m hm => hnames m (List.mem_cons_of_mem name hm)) h
      · exact fun h => List.cons_ne_nil _ _ h

theorem addSegments_ne_nil {names : List String} (hne : names ≠ []) (base : List String) :
    addSegments false base names ≠ [] := by
  induction names generalizing base with
  | nil => exact absurd rfl hne
  | cons name names ih =>
    cases names with
    | nil => exact addSegment_ne_nil base name
    | cons next names =>
      rw [addSegments]
      · exact ih (List.cons_ne_nil _ _) _
      · exact fun h => List.cons_ne_nil _ _ h

/-- A path that is read has segments, and they are as they have to be. -/
theorem pathBehindHost_spec {scheme : String} (hspecial : isSpecial scheme = true)
    (hfile : scheme ≠ "file") (text : List Char) :
    ∃ names, pathBehindHost scheme text = .segments names ∧ names ≠ [] ∧
      ∀ n ∈ names, IsSegment n := by
  have hscheme : (scheme == "file") = false := beq_eq_false_iff_ne.2 hfile
  have hfrom : ∀ text : List Char, ∃ names, pathFrom scheme [] text = .segments names ∧ names ≠ [] ∧
      ∀ n ∈ names, IsSegment n := by
    intro text
    let slashed := text.map fun c => if isSlash true c then '/' else c
    have hbackslash : '\\' ∉ slashed := by
      intro hmem
      obtain ⟨c, -, hc⟩ := List.mem_map.1 hmem
      split at hc
      · exact absurd hc (by decide)
      · next hplain => exact hplain (hc ▸ rfl)
    have htexts : ∀ n ∈ segmentTexts true text, dotCount n = 0 → IsSegment n := by
      intro n hn hdots
      obtain ⟨piece, hpiece, rfl⟩ := List.mem_map.1 hn
      exact isSegment_escapePart hbackslash hpiece hdots
    have hne : segmentTexts true text ≠ [] :=
      fun e => splitChars_ne_nil slashed (List.map_eq_nil_iff.1 e)
    refine ⟨addSegments false [] (segmentTexts true text), ?_, addSegments_ne_nil hne [], ?_⟩
    · rw [pathFrom, segmentsFrom, hspecial, hscheme]
      rfl
    · intro n hn
      exact isSegment_of_mem_addSegments (fun m hm => absurd hm List.not_mem_nil) htexts hn
  cases text with
  | nil =>
    refine ⟨[""], ?_, List.cons_ne_nil _ _, List.forall_mem_singleton.2 isSegment_empty⟩
    rw [pathBehindHost, hspecial]
    rfl
  | cons c rest =>
    rw [pathBehindHost]
    split
    · exact hfrom rest
    · exact hfrom (c :: rest)

theorem readPort_spec {scheme : String} {digits : List Char} {port : Option Nat}
    (h : readPort scheme digits = .ok port) :
    ∀ p ∈ port, p ≤ 65535 ∧ some p ≠ defaultPort? scheme := by
  rintro p rfl
  rw [readPort] at h
  split at h
  · exact absurd (Except.ok.inj h) (Option.some_ne_none p).symm
  · split at h
    · next n hn =>
      split at h
      · contradiction
      · next hsize =>
        split at h
        · exact absurd (Except.ok.inj h) (Option.some_ne_none p).symm
        · next hdefault =>
          obtain rfl : n = p := Option.some.inj (Except.ok.inj h)
          exact ⟨Nat.le_of_not_lt hsize, hdefault⟩
    · contradiction

theorem escaped_queryOf {text : List Char} :
    ∀ q ∈ queryOf true text, Escaped (queryEscapes true) q.toList := by
  intro q hq
  rw [queryOf] at hq
  split at hq
  · exact Option.some.inj hq ▸ escaped_escapePart escapes_query _
  · contradiction

theorem escaped_fragmentOf {text : List Char} :
    ∀ f ∈ fragmentOf text, Escaped fragmentEscapes f.toList := by
  intro f hf
  rw [fragmentOf] at hf
  split at hf
  · exact Option.some.inj hf ▸ escaped_escapePart escapes_fragment _
  · contradiction

/-! ### The ways of reading -/

/-- The host of an authority, as its scheme has it read. -/
def readHost (scheme : String) (text : List Char) : Except ParseError Host :=
  if isSpecial scheme then Host.ofSpecial text else Host.ofOther text

/-- A URL with a host, from the texts of its parts. -/
def ofTexts (scheme : String) (user password : List Char) (host : Host) (port : Option Nat)
    (rest : List Char) : Url where
  scheme
  username := escapePart userinfoEscapes user
  password := escapePart userinfoEscapes password
  host := some host
  port
  path := pathBehindHost scheme (beforeQuery rest)
  query := queryOf (isSpecial scheme) rest
  fragment := fragmentOf rest

/-- What a URL with a host is read from. Where no host is named, nothing stands beside it. -/
theorem of_readAuthority_eq_ok {scheme : String} {text : List Char} {u : Url}
    (h : readAuthority scheme text = .ok u) :
    ∃ user password hostText portPart rest host port,
      readHost scheme hostText = .ok host ∧
      readPort scheme ((portPart.drop 1).takeWhile (· ≠ '\\')) = .ok port ∧
      (hostText = [] → isSpecial scheme = false ∧ portPart = [] ∧ user = [] ∧ password = []) ∧
      u = ofTexts scheme user password host port rest := by
  obtain ⟨userinfo, place, hplace⟩ : ∃ userinfo place,
      splitUserinfo (text.takeWhile (!endsAuthority (isSpecial scheme) ·)) = (userinfo, place) :=
    ⟨_, _, rfl⟩
  obtain ⟨hostText, portPart, hsplit⟩ :
      ∃ hostText portPart, splitHost false place = (hostText, portPart) :=
    ⟨_, _, rfl⟩
  let user := (userinfo.getD []).takeWhile (· ≠ ':')
  let password := ((userinfo.getD []).dropWhile (· ≠ ':')).drop 1
  let behind := text.dropWhile (!endsAuthority (isSpecial scheme) ·)
  let rest := (portPart.drop 1).dropWhile (· ≠ '\\') ++ behind
  have hread : readAuthority scheme text =
      if userinfo = some [] ∧ place.isEmpty ∧ ¬behind.isEmpty then .error .emptyHost
      else if hostText.isEmpty ∧ (isSpecial scheme ∨ ¬portPart.isEmpty) then .error .emptyHost
      else readHost scheme hostText >>= fun host =>
        readPort scheme ((portPart.drop 1).takeWhile (· ≠ '\\')) >>= fun port =>
          if hostText.isEmpty ∧ ¬(user.isEmpty ∧ password.isEmpty) then .error .emptyHost
          else .ok (ofTexts scheme user password host port rest) := by
    rw [readAuthority]
    simp only [hplace, hsplit]
    split
    · rfl
    · split
      · rfl
      · rw [readHost]
        split <;> rfl
  rw [hread] at h
  split at h
  · contradiction
  split at h
  · contradiction
  next hneeded =>
  obtain ⟨host, hhost, h⟩ := of_bind_eq_ok h
  obtain ⟨port, hport, h⟩ := of_bind_eq_ok h
  split at h
  · contradiction
  next halone =>
  refine ⟨user, password, hostText, portPart, rest, host, port, hhost, hport, ?_,
    (Except.ok.inj h).symm⟩
  rintro rfl
  simp only [List.isEmpty_nil, true_and, not_or, Bool.not_eq_true, not_not,
    List.isEmpty_iff] at hneeded halone
  exact ⟨hneeded.1, hneeded.2, halone.1, halone.2⟩

/-- The host of a file URL is missing, or it is read as that of any URL that has to have one. -/
def IsFileHost (host : Host) : Prop :=
  host = noHost ∨ ∃ hostText, Host.ofSpecial hostText = .ok host

theorem of_readFileHost_eq_ok {text : List Char} {u : Url} (h : readFileHost text = .ok u) :
    ∃ host path rest, IsFileHost host ∧ u = fileUrl host (pathFrom "file" [] path) rest := by
  -- On a drive and on this machine, the host is dropped again.
  have hdropped : ∀ {host : Host} {p : Prop} [Decidable p], IsFileHost host →
      IsFileHost (if p then noHost else host) := by
    intro host p _ hhost
    split
    · exact .inl rfl
    · exact hhost
  rw [readFileHost] at h
  split at h
  · exact ⟨_, _, _, .inl rfl, (Except.ok.inj h).symm⟩
  · dsimp only at h
    split at h
    · exact ⟨_, _, _, hdropped (.inl rfl), (Except.ok.inj h).symm⟩
    · obtain ⟨host, hhost, h⟩ := of_bind_eq_ok h
      exact ⟨_, _, _, hdropped (.inr ⟨_, hhost⟩), (Except.ok.inj h).symm⟩

/-- What a file URL is read from. -/
theorem of_readFile_eq_ok {text : List Char} {u : Url} (h : readFile none text = .ok u) :
    ∃ host path rest, IsFileHost host ∧ u = fileUrl host (pathFrom "file" [] path) rest := by
  unfold readFile at h
  split at h
  · split at h
    · exact of_readFileHost_eq_ok h
    · split at h
      · exact ⟨_, _, _, .inl rfl, (Except.ok.inj h).symm⟩
      · exact ⟨_, _, _, .inl rfl, (Except.ok.inj h).symm⟩
  · split at h
    · exact ⟨_, _, _, .inl rfl, (Except.ok.inj h).symm⟩
    · exact ⟨_, _, _, .inl rfl, (Except.ok.inj h).symm⟩
  · exact ⟨_, _, _, .inl rfl, (Except.ok.inj h).symm⟩

/-- A URL is that of a file, or it is read from its host on, or it has no host. -/
theorem of_parse_eq_ok {text : String} {u : Url} (h : parse text = .ok u) :
    (∃ rest, readFile none rest = .ok u) ∨
      (∃ scheme rest, scheme ≠ "file" ∧ readAuthority scheme rest = .ok u) ∨
      ∃ scheme rest, isSpecial scheme = false ∧ u = readWithoutHost scheme rest := by
  cases hsplit : splitScheme (significant text) with
  | none =>
    rw [parse, Url.read.eq_def] at h
    simp only [hsplit] at h
    contradiction
  | some found =>
    obtain ⟨scheme, rest⟩ := found
    rw [parse_of_splitScheme hsplit, readWithScheme.eq_def] at h
    split at h
    · exact .inl ⟨_, h⟩
    · next hfile =>
      split at h
      · exact .inr (.inl ⟨_, _, hfile, h⟩)
      · next hspecial =>
        split at h
        · exact .inr (.inl ⟨_, _, hfile, h⟩)
        · exact .inr (.inr ⟨_, _, Bool.eq_false_iff.2 hspecial, (Except.ok.inj h).symm⟩)

/-! ### What is read over HTTP is normal -/

/-- A URL that is read behind an HTTP scheme is normal. -/
theorem normal_of_readAuthority {scheme : String} {text : List Char} {u : Url}
    (hscheme : scheme = "http" ∨ scheme = "https") (h : readAuthority scheme text = .ok u) :
    u.Normal := by
  have hspecial : isSpecial scheme = true := by
    obtain rfl | rfl := hscheme <;> decide
  have hfile : scheme ≠ "file" := by
    obtain rfl | rfl := hscheme <;> decide
  obtain ⟨user, password, hostText, portPart, rest, host, port, hhost, hport, -, rfl⟩ :=
    of_readAuthority_eq_ok h
  rw [readHost, if_pos hspecial] at hhost
  exact {
    scheme := hscheme
    username := escaped_escapePart escapes_userinfo _
    password := escaped_escapePart escapes_userinfo _
    host := ⟨host, rfl, Host.canonical_of_ofSpecial hhost⟩
    port := readPort_spec hport
    path := pathBehindHost_spec hspecial hfile _
    query := by
      rw [ofTexts, hspecial]
      exact escaped_queryOf
    fragment := escaped_fragmentOf }

/-- A URL that is read and has an HTTP scheme is normal. -/
theorem normal_of_parse {text : String} {u : Url} (h : parse text = .ok u)
    (hscheme : u.scheme = "http" ∨ u.scheme = "https") : u.Normal := by
  obtain ⟨rest, hread⟩ | ⟨scheme, rest, -, hread⟩ | ⟨scheme, rest, hspecial, rfl⟩ :=
    of_parse_eq_ok h
  · obtain ⟨host, path, behind, -, rfl⟩ := of_readFile_eq_ok hread
    exact absurd hscheme (by decide : ¬("file" = "http" ∨ "file" = "https"))
  · obtain ⟨user, password, hostText, portPart, behind, host, port, -, -, -, rfl⟩ :=
      of_readAuthority_eq_ok hread
    exact normal_of_readAuthority hscheme hread
  · have hhttp : scheme = "http" ∨ scheme = "https" := hscheme
    obtain rfl | rfl := hhttp
    · exact absurd hspecial (by decide)
    · exact absurd hspecial (by decide)

/-! ### Another query -/

section Query

variable {u : Url} {query : String}

theorem Normal.withQuery (h : u.Normal) (hquery : Escaped (queryEscapes true) query.toList) :
    Normal { u with query := some query } :=
  { h with
    query := by
      rintro q ⟨⟩
      exact hquery }

theorem Normal.withFragment {fragment : String} (h : u.Normal)
    (hfragment : Escaped fragmentEscapes fragment.toList) :
    Normal { u with fragment := some fragment } :=
  { h with
    fragment := by
      rintro f ⟨⟩
      exact hfragment }

/-- A query behind a URL that has none. -/
theorem toText_append_query (hquery : u.query = none) (hfragment : u.fragment = none) :
    u.toText ++ ("?" ++ query) = toText { u with query := some query } := by
  simp only [toText, authorityText, userinfoText, hquery, hfragment, partText, String.append_empty,
    String.append_assoc]

/-- What is put behind a URL goes into its query. -/
theorem toText_append_of_query {text : String} (hquery : u.query = some query)
    (hfragment : u.fragment = none) :
    u.toText ++ text = toText { u with query := some (query ++ text) } := by
  simp only [toText, authorityText, userinfoText, hquery, hfragment, partText, String.append_empty,
    String.append_assoc]

/-- What is put behind a URL goes into its fragment, if there is one. -/
theorem toText_append_of_fragment {fragment text : String} (hfragment : u.fragment = some fragment) :
    u.toText ++ text = toText { u with fragment := some (fragment ++ text) } := by
  simp only [toText, authorityText, userinfoText, hfragment, partText, String.append_assoc]

end Query

end SignIn.Url
