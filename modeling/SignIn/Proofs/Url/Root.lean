import SignIn.Proofs.Url.Join

/-!
# URLs that name a root

What stands behind the root of a URL is lost when a name from the root is resolved against it: the
rest of the path, the query and the fragment. A URL that has nothing of these names its root, and it
is written like its root but for slashes at its end.

The converse is not quite true, because the root has to be something to which slashes can be added.
Where the host is empty, the slashes that announce it cannot be told from those behind it; and where
there is no host, a second slash would announce one, so it is kept from that by a dot.

## Main definitions

* `Url.IsBare` — a URL that names its root only
* `Url.IsWrittenAsRoot` — a URL that is written like its root

## Main results

* `Url.toText_fromRoot` — how a name from the root is written
* `Url.isWrittenAsRoot_iff` — which URLs are written like their root
* `Url.Normal.isBare_iff` — which URLs over HTTP name their root only
-/

namespace SignIn.Url

/-- A URL that names its root only: a host or a drive, and behind it nothing but slashes. -/
structure IsBare (u : Url) : Prop where
  query : u.query = none
  fragment : u.fragment = none
  /-- Without a host there is room for one slash. -/
  path : ∃ n, u.path = .segments (u.drive ++ List.replicate n "") ∧ (u.host = none → n ≤ 1)
  /-- A host is named, unless a drive is. -/
  host : ∀ host ∈ u.host, host.toText = "" ↔ u.drive ≠ []

variable {u : Url}

theorem toText_segments_append (names others : List String) :
    (Path.segments (names ++ others)).toText =
      (Path.segments names).toText ++ (Path.segments others).toText := by
  rw [Path.toText, Path.toText, Path.toText, List.map_append, String.join_append]

/-- A name from the root is written behind the root. -/
theorem toText_fromRoot (u : Url) (name : String) :
    (u.fromRoot name).toText = u.root.toText ++ ("/" ++ name) := by
  have hauthority : (u.fromRoot name).authorityText = u.root.authorityText := by
    by_cases hdrive : u.drive = []
    · simp only [authorityText, fromRoot, root, hdrive, if_true, List.nil_append]
      cases u.host with
      | none =>
        split
        · next hone =>
          simp at hone
        · rfl
      | some host => rfl
    · simp only [authorityText, fromRoot, root, if_neg hdrive]
      rfl
  have hname : (Path.segments [name]).toText = "/" ++ name := by
    simp [Path.toText]
  have hpath : (u.fromRoot name).path.toText = u.root.path.toText ++ ("/" ++ name) := by
    rw [← hname]
    exact toText_segments_append u.drive [name]
  have hscheme : (u.fromRoot name).scheme = u.root.scheme := rfl
  have hquery : (u.fromRoot name).query = none ∧ u.root.query = none := ⟨rfl, rfl⟩
  have hfragment : (u.fromRoot name).fragment = none ∧ u.root.fragment = none := ⟨rfl, rfl⟩
  simp only [toText, hscheme, hauthority, hpath, hquery, hfragment, partText, String.append_empty,
    String.append_assoc]

/-! ### Slashes behind the root -/

theorem toList_segments_replicate (n : Nat) :
    (Path.segments (List.replicate n "")).toText.toList = List.replicate n '/' := by
  induction n with
  | zero => rfl
  | succ n ih =>
    have hsplit := toText_segments_append [""] (List.replicate n "")
    have hone : (Path.segments [""]).toText.toList = ['/'] := by decide
    rw [List.replicate_succ, ← List.singleton_append, hsplit, String.toList_append, hone, ih]
    rfl

/-- Only empty segments are written as slashes alone. -/
theorem behindHost_eq_slashes_iff {names : List String} (h : ∀ n ∈ names, '/' ∉ n.toList)
    {query fragment : Option String} {n : Nat} :
    behindHost (Path.segments names).toText.toList query fragment = List.replicate n '/' ↔
      names = List.replicate n "" ∧ query = none ∧ fragment = none := by
  constructor
  · intro heq
    have hall : ∀ c ∈ behindHost (Path.segments names).toText.toList query fragment, c = '/' :=
      fun c hc => List.eq_of_mem_replicate (heq ▸ hc)
    have hquery : query = none := by
      cases query with
      | none => rfl
      | some text =>
        have hmark : '?' ∈ (partText "?" (some text)).toList := by simp [partText]
        exact absurd (hall '?' (List.mem_append_right _ (List.mem_append_left _ hmark))) (by decide)
    have hfragment : fragment = none := by
      cases fragment with
      | none => rfl
      | some text =>
        have hmark : '#' ∈ (partText "#" (some text)).toList := by simp [partText]
        exact absurd (hall '#' (List.mem_append_right _ (List.mem_append_right _ hmark))) (by decide)
    have hempty : ∀ name ∈ names, name = "" := by
      intro name hname
      refine String.toList_eq_nil_iff.1 (List.eq_nil_iff_forall_not_mem.2 fun c hc => ?_)
      have hwritten : c ∈ (Path.segments names).toText.toList := by
        rw [Path.toText, String.toList_join, List.mem_flatMap]
        refine ⟨_, List.mem_map_of_mem hname, ?_⟩
        rw [String.toList_append]
        exact List.mem_append_right _ hc
      have hslash := hall c (List.mem_append_left _ hwritten)
      exact h name hname (hslash ▸ hc)
    have hnames := List.eq_replicate_of_mem hempty
    subst hquery hfragment
    rw [hnames, behindHost, toList_segments_replicate] at heq
    have hlength : names.length = n := by simpa [partText] using congrArg List.length heq
    exact ⟨hlength ▸ hnames, rfl, rfl⟩
  · rintro ⟨rfl, rfl, rfl⟩
    rw [behindHost, toList_segments_replicate]
    exact List.append_nil _

theorem slash_portText (port : Option Nat) : '/' ∉ (portText port).toList := by
  intro hmem
  cases port with
  | none => exact List.not_mem_nil hmem
  | some p =>
    rw [toList_portText] at hmem
    obtain h | h := List.mem_cons.1 hmem
    · exact absurd h (by decide)
    · exact absurd (Digits.isDigit_toDigits p _ h) (by decide)

/-! ### Which URLs are written like their root -/

/-- A URL is written like its root, and the root has no slash at its end: all slashes that are there
in addition can be told from it. -/
def IsWrittenAsRoot (u : Url) : Prop :=
  u.root.toText.toList.getLast? ≠ some '/' ∧
    ∃ n, u.toText.toList = u.root.toText.toList ++ List.replicate n '/'

theorem toList_root {host : Host} (h : u.root.host = some host) :
    u.root.toText.toList = u.scheme.toList ++ ':' :: '/' :: '/' :: (u.userinfoText.toList ++
      (host.toText.toList ++ (portText u.port).toList) ++
        (Path.segments u.drive).toText.toList) := by
  have hbehind : behindHost u.root.path.toText.toList u.root.query u.root.fragment =
      (Path.segments u.drive).toText.toList := List.append_nil _
  have htext := toList_toText h
  rw [hbehind] at htext
  exact htext

theorem getLast?_append_ne {front behind : List Char} (hne : behind ≠ []) (h : '/' ∉ behind) :
    (front ++ behind).getLast? ≠ some '/' := by
  rw [List.getLast?_append_of_ne_nil front hne]
  exact fun hlast => h (List.mem_of_getLast? hlast)

/-- What is behind the root of a URL decides whether it names its root only. -/
theorem isBare_iff {others : List String} (hothers : ∀ n ∈ others, '/' ∉ n.toList)
    (hpath : u.path = .segments (u.drive ++ others)) :
    u.IsBare ↔ (∀ host ∈ u.host, host.toText = "" ↔ u.drive ≠ []) ∧
      ∃ n, behindHost (Path.segments others).toText.toList u.query u.fragment =
        List.replicate n '/' ∧ (u.host = none → n ≤ 1) := by
  simp only [behindHost_eq_slashes_iff hothers]
  constructor
  · rintro ⟨hquery, hfragment, ⟨n, hn, hfew⟩, hhost⟩
    rw [hpath] at hn
    have hnames := List.append_cancel_left (Path.segments.inj hn)
    exact ⟨hhost, n, ⟨hnames, hquery, hfragment⟩, hfew⟩
  · rintro ⟨hhost, n, ⟨rfl, hquery, hfragment⟩, hfew⟩
    exact ⟨hquery, hfragment, ⟨n, hpath, hfew⟩, hhost⟩

/-! Where the root ends depends on the kind of the URL. -/

section Host

variable {host : Host} {names : List String}

theorem toList_root_of_host (hhost : u.host = some host) (hdrive : u.drive = []) :
    u.root.toText.toList = u.scheme.toList ++ ':' :: '/' :: '/' :: (u.userinfoText.toList ++
      (host.toText.toList ++ (portText u.port).toList)) := by
  have hrootHost : u.root.host = some host := by
    rw [← hhost]
    exact if_pos hdrive
  rw [toList_root hrootHost, hdrive]
  exact congrArg (u.scheme.toList ++ ':' :: '/' :: '/' :: ·) (List.append_nil _)

/-- A root with a host ends in a slash if the host has no name. -/
theorem getLast?_root_of_host (hu : u.Delimited) (hhost : u.host = some host)
    (hdrive : u.drive = []) : u.root.toText.toList.getLast? ≠ some '/' ↔ host.toText ≠ "" := by
  rw [toList_root_of_host hhost hdrive]
  constructor
  · intro hslash hempty
    obtain ⟨husername, hpassword, hport⟩ := hu.nameless host hhost hempty
    refine hslash ?_
    simp [userinfoText, husername, hpassword, hport, hempty, portText]
  · intro hname
    let place := host.toText.toList ++ (portText u.port).toList
    have hplace : place ≠ [] :=
      List.append_ne_nil_of_left_ne_nil (fun e => hname (String.toList_eq_nil_iff.1 e)) _
    have hslash : '/' ∉ place := by
      rw [List.mem_append, not_or]
      exact ⟨hu.host host hhost, slash_portText u.port⟩
    have hend := @getLast?_append_ne
      (u.scheme.toList ++ ':' :: '/' :: '/' :: u.userinfoText.toList) place hplace hslash
    simpa only [List.append_assoc, List.cons_append] using hend

/-- With a host and without a drive, the root goes up to the host. -/
theorem isWrittenAsRoot_iff_of_host (hu : u.Delimited) (hhost : u.host = some host)
    (hdrive : u.drive = []) (hpath : u.path = .segments names) :
    u.IsWrittenAsRoot ↔ u.IsBare := by
  have htext : u.toText.toList = u.root.toText.toList ++
      behindHost (Path.segments names).toText.toList u.query u.fragment := by
    rw [toList_toText hhost, toList_root_of_host hhost hdrive, hpath]
    simp only [List.append_assoc, List.cons_append]
  have hnamed : (∀ host ∈ u.host, host.toText = "" ↔ u.drive ≠ []) ↔ host.toText ≠ "" := by
    simp [hhost, hdrive]
  have hsome : u.host ≠ none := hhost ▸ Option.some_ne_none host
  have hbare : u.path = .segments (u.drive ++ names) := by rw [hpath, hdrive, List.nil_append]
  rw [isBare_iff (hu.path names hpath) hbare, hnamed, IsWrittenAsRoot,
    getLast?_root_of_host hu hhost hdrive, htext]
  simp only [List.append_right_inj, hsome, false_implies, and_true]

end Host

section NoHost

variable {names : List String}

/-- Without a host, slashes are set off if there are two of them. -/
theorem authorityText_of_none (hhost : u.host = none) (hpath : u.path = .segments names) :
    (u.authorityText = "" ∧ ∀ n, names = List.replicate n "" → n ≤ 1) ∨
      (u.authorityText = "/." ∧ ∀ n, names = List.replicate n "" → ¬n ≤ 1) := by
  rw [authorityText, hhost, hpath]
  dsimp only
  split
  · next second others hnames =>
    refine .inr ⟨rfl, ?_⟩
    rintro n hn
    have hlength := congrArg List.length (Path.segments.inj hnames)
    rw [hn, List.length_replicate, List.length_cons, List.length_cons] at hlength
    omega
  · next hother =>
    refine .inl ⟨rfl, ?_⟩
    rintro n rfl
    obtain _ | _ | n := n
    · exact Nat.zero_le 1
    · exact Nat.le_refl 1
    · exact absurd rfl (hother "" (List.replicate n ""))

/-- Without a host, the root is the scheme. -/
theorem isWrittenAsRoot_iff_of_none (hu : u.Delimited) (hhost : u.host = none)
    (hpath : u.path = .segments names) : u.IsWrittenAsRoot ↔ u.IsBare := by
  have hdrive : u.drive = [] := drive_of_ne_file fun hfile => (hu.file hfile).1 hhost
  have hroot : u.root.toText.toList = u.scheme.toList ++ [':'] := by
    simp [toText, root, authorityText, hdrive, hhost, Path.toText, partText]
  have htext : u.toText.toList = u.root.toText.toList ++ (u.authorityText.toList ++
      behindHost (Path.segments names).toText.toList u.query u.fragment) := by
    rw [hroot]
    simp [toText, hpath, behindHost]
  have hlast : u.root.toText.toList.getLast? ≠ some '/' := by
    rw [hroot]
    exact getLast?_append_ne (List.cons_ne_nil _ _) (by decide)
  have hnamed : ∀ host ∈ u.host, host.toText = "" ↔ u.drive ≠ [] := by
    rw [hhost]
    exact fun host hmem => absurd hmem (Option.not_mem_none host)
  have hbare : u.path = .segments (u.drive ++ names) := by rw [hpath, hdrive, List.nil_append]
  have hslashes := @behindHost_eq_slashes_iff names (hu.path names hpath) u.query u.fragment
  rw [isBare_iff (hu.path names hpath) hbare, IsWrittenAsRoot, and_iff_right hlast,
    and_iff_right hnamed, htext]
  simp only [List.append_right_inj]
  refine exists_congr fun n => ?_
  obtain ⟨hauthority, hfew⟩ | ⟨hauthority, hmany⟩ := authorityText_of_none hhost hpath
  · rw [hauthority]
    exact (and_iff_left_of_imp fun hn _ => hfew n (hslashes.1 hn).1).symm
  · -- The dot in front of the slashes is none of them.
    refine iff_of_false (fun hn => ?_) fun hn => hmany n (hslashes.1 hn.1).1 (hn.2 hhost)
    rw [hauthority] at hn
    have hdot : '.' ∈ List.replicate n '/' := hn ▸ List.mem_append_left _ (by decide)
    exact absurd (List.eq_of_mem_replicate hdot) (by decide)

end NoHost

/-- With a drive, the root goes up to the drive and has no host. -/
theorem isWrittenAsRoot_iff_of_drive (hu : u.Delimited) (hdrive : u.drive ≠ []) :
    u.IsWrittenAsRoot ↔ u.IsBare := by
  obtain ⟨hfile, first, others, hpath, hfirst, hfront⟩ := exists_drive hdrive
  obtain ⟨hsome, husername, hpassword, hport⟩ := hu.file hfile
  obtain ⟨host, hhost⟩ := Option.ne_none_iff_exists'.1 hsome
  have hsegments := List.forall_mem_cons.1 (hu.path _ hpath)
  have hroot : u.root.toText.toList =
      u.scheme.toList ++ ':' :: '/' :: '/' :: '/' :: first.toList := by
    have hrootHost : u.root.host = some noHost := if_neg hdrive
    rw [toList_root hrootHost, hfront]
    simp [userinfoText, husername, hpassword, hport, noHost, Host.toText, portText, Path.toText]
  have htext : u.toText.toList = u.scheme.toList ++ ':' :: '/' :: '/' :: (host.toText.toList ++
      '/' :: (first.toList ++
        behindHost (Path.segments others).toText.toList u.query u.fragment)) := by
    rw [toList_toText hhost, hpath]
    simp [userinfoText, husername, hpassword, hport, portText, Path.toText, behindHost,
      String.join_cons]
  have hlast : u.root.toText.toList.getLast? ≠ some '/' := by
    have hend := @getLast?_append_ne (u.scheme.toList ++ [':', '/', '/', '/']) _
      (toList_ne_nil_of_isDrive hfirst) hsegments.1
    rw [hroot]
    simpa using hend
  have hnamed : (∀ host ∈ u.host, host.toText = "" ↔ u.drive ≠ []) ↔ host.toText = "" := by
    simp [hhost, hdrive]
  have hbare : u.path = .segments (u.drive ++ others) := by
    rw [hpath, hfront, List.singleton_append]
  rw [isBare_iff hsegments.2 hbare, hnamed, IsWrittenAsRoot, and_iff_right hlast, htext, hroot]
  cases hname : host.toText.toList with
  | nil =>
    have hempty : host.toText = "" := String.toList_eq_nil_iff.1 hname
    simp [hempty, hsome]
  | cons c rest =>
    have hc : c ≠ '/' := fun e => hu.host host hhost (hname ▸ e ▸ List.mem_cons_self)
    have hnonempty : host.toText ≠ "" := by
      intro hempty
      rw [hempty] at hname
      exact absurd hname.symm (List.cons_ne_nil c rest)
    simp [hnonempty, hc]

/-- **Which URLs are written like their root**: those that name their root only. -/
theorem isWrittenAsRoot_iff (hu : u.Delimited) (hroot : u.isRootless = false) :
    u.IsWrittenAsRoot ↔ u.IsBare := by
  cases hpath : u.path with
  | rootless text =>
    rw [isRootless, hpath] at hroot
    contradiction
  | segments names =>
    by_cases hdrive : u.drive = []
    · cases hhost : u.host with
      | none => exact isWrittenAsRoot_iff_of_none hu hhost hpath
      | some host => exact isWrittenAsRoot_iff_of_host hu hhost hdrive hpath
    · exact isWrittenAsRoot_iff_of_drive hu hdrive

/-- Over HTTP there always is a host, and only what stands behind it counts. -/
theorem Normal.isBare_iff (h : u.Normal) :
    u.IsBare ↔ (∃ n, u.path = .segments (List.replicate n "")) ∧ u.query = none ∧
      u.fragment = none := by
  obtain ⟨host, hhost, hcanonical⟩ := h.host
  have hdrive : u.drive = [] := drive_of_ne_file (ne_file_of_normal h)
  constructor
  · rintro ⟨hquery, hfragment, ⟨n, hn, -⟩, -⟩
    rw [hdrive, List.nil_append] at hn
    exact ⟨⟨n, hn⟩, hquery, hfragment⟩
  · rintro ⟨⟨n, hn⟩, hquery, hfragment⟩
    refine ⟨hquery, hfragment, ⟨n, ?_, ?_⟩, ?_⟩
    · rw [hn, hdrive, List.nil_append]
    · rw [hhost]
      exact fun hnone => absurd hnone (Option.some_ne_none host)
    · rw [hhost, hdrive]
      rintro _ ⟨⟩
      exact iff_of_false
        (fun hempty => Host.toText_ne_nil hcanonical (String.toList_eq_nil_iff.2 hempty))
        (not_not.2 rfl)

end SignIn.Url
