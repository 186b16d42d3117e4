import SignIn.Proofs.Url.Slashes

/-!
# A path from the root

A broker is known by one URL, and its targets are named from the root of that URL. So they have the
paths that they are named by, whatever the path of the broker's own URL is. The exception are file
URLs: a drive in front stays there.

## Main results

* `Url.join_slash` — a name from the root of a URL
* `Url.join_of_delimited` — the same for a URL that was read itself
-/

namespace SignIn.Url

/-- A name that is one segment of a path, and no drive. -/
structure IsTarget (name : String) : Prop extends IsSegment name where
  nonempty : name.toList ≠ []
  drive : isDrive name = false

variable {name : String}

theorem IsTarget.endsPath (h : IsTarget name) : ∀ c ∈ name.toList, (!endsPath c) = true := by
  intro c hc
  have hmarks : ∀ c, Url.endsPath c = true → c ∈ pathEscapes := by
    intro c hc
    simp only [Url.endsPath, Bool.or_eq_true, decide_eq_true_eq] at hc
    obtain rfl | rfl := hc
    · decide
    · decide
  rw [Bool.not_eq_true', Bool.eq_false_iff]
  exact fun e => (h.escaped c hc).2 (hmarks c e)

theorem IsTarget.isSlash (h : IsTarget name) (special : Bool) :
    ∀ c ∈ name.toList, Url.isSlash special c = false := by
  intro c hc
  have hslash : c ≠ '/' := fun e => h.slash (e ▸ hc)
  have hbackslash : c ≠ '\\' := fun e => h.backslash (e ▸ hc)
  simp [Url.isSlash, hslash, hbackslash]

theorem IsTarget.beforeQuery (h : IsTarget name) : Url.beforeQuery name.toList = name.toList :=
  List.takeWhile_eq_self_iff.2 h.endsPath

theorem IsTarget.queryOf (h : IsTarget name) (special : Bool) :
    Url.queryOf special name.toList = none := by
  have hmark : ∀ c ∈ name.toList, c ≠ '?' ∧ c ≠ '#' := by
    intro c hc
    have hends := h.endsPath c hc
    simp only [Url.endsPath, Bool.not_eq_true', Bool.or_eq_false_iff,
      decide_eq_false_iff_not] at hends
    exact hends
  have hbefore : name.toList.takeWhile (· ≠ '#') = name.toList :=
    List.takeWhile_eq_self_iff.2 fun c hc => decide_eq_true (hmark c hc).2
  have hbehind : name.toList.dropWhile (· ≠ '?') = [] :=
    List.dropWhile_eq_nil_iff.2 fun c hc => decide_eq_true (hmark c hc).1
  rw [Url.queryOf, hbefore, hbehind]

theorem IsTarget.fragmentOf (h : IsTarget name) : Url.fragmentOf name.toList = none := by
  have hbehind : name.toList.dropWhile (· ≠ '#') = [] := by
    refine List.dropWhile_eq_nil_iff.2 fun c hc => decide_eq_true ?_
    rintro rfl
    exact (h.escaped '#' hc).2 (by decide)
  rw [Url.fragmentOf, hbehind]

theorem IsTarget.fileUrl (h : IsTarget name) (host : Host) (path : Path) :
    Url.fileUrl host path name.toList = Url.fileUrl host path [] := by
  rw [Url.fileUrl, h.queryOf, h.fragmentOf]
  rfl

theorem IsTarget.pathFrom (h : IsTarget name) (scheme : String) {base : List String}
    (hbase : "" ∉ base) :
    Url.pathFrom scheme base name.toList = .segments (base ++ [name]) := by
  have htexts : segmentTexts (isSpecial scheme) name.toList = [name] := by
    have hid : name.toList.map (fun c => if Url.isSlash (isSpecial scheme) c then '/' else c) =
        name.toList := by
      refine (List.map_congr_left fun c hc => ?_).trans (List.map_id _)
      rw [h.isSlash (isSpecial scheme) c hc]
      rfl
    rw [segmentTexts, hid, splitChars_of_not_mem h.slash, List.map_singleton,
      escapePart_of_escaped h.escaped, String.ofList_toList]
  have hadded : ∀ file, addSegments file base [name] = base ++ [name] := by
    intro file
    rw [addSegments, addSegment, h.dots]
    simp [h.drive]
  have htrimmed : ∀ file, trimFilePath file (base ++ [name]) = base ++ [name] := by
    intro file
    cases file with
    | false => rfl
    | true =>
      have hne : "" ∉ base ++ [name] := by
        rw [List.mem_append, List.mem_singleton]
        rintro (hmem | hname)
        · exact hbase hmem
        · exact h.nonempty (hname ▸ rfl)
      obtain ⟨first, rest, hcons⟩ :=
        List.exists_cons_of_ne_nil (List.append_ne_nil_of_right_ne_nil base (List.cons_ne_nil name []))
      rw [hcons] at hne ⊢
      have hfirst : first ≠ "" := fun e => hne (e ▸ List.mem_cons_self)
      simp [trimFilePath, hfirst]
  rw [Url.pathFrom, segmentsFrom, htexts, hadded, htrimmed]

/-- Nothing of a target is dropped before it is read. -/
theorem IsTarget.significant_slash (h : IsTarget name) :
    significant ("/" ++ name) = '/' :: name.toList := by
  have htext : ("/" ++ name).toList = '/' :: name.toList := by
    rw [String.toList_append]
    rfl
  rw [← htext]
  refine significant_of_graphic fun c hc => ?_
  rw [htext] at hc
  obtain rfl | hc := List.mem_cons.1 hc
  · decide
  · exact (h.escaped c hc).1

theorem IsTarget.startsWithDrive (h : IsTarget name) :
    Url.startsWithDrive name.toList = false := by
  have hkept : ∀ c ∈ name.toList, (!endsAuthority true c) = true := by
    intro c hc
    have hends := h.endsPath c hc
    rw [endsAuthority, h.isSlash true c hc, Bool.false_or]
    exact hends
  rw [Url.startsWithDrive, List.takeWhile_eq_self_iff.2 hkept, String.ofList_toList, h.drive]

/-! ### The root -/

/-- The drive in front of the path of a file URL. -/
def drive (u : Url) : List String :=
  if u.scheme = "file" ∧ isDrive u.firstSegment then [u.firstSegment] else []

/-- What a name from the root leaves of a URL. A drive is on no other machine. -/
def root (u : Url) : Url :=
  { u with
    host := if u.drive = [] then u.host else some noHost
    path := .segments u.drive
    query := none
    fragment := none }

/-- The URL that is named from the root of another one. -/
def fromRoot (u : Url) (name : String) : Url :=
  { u.root with path := .segments (u.drive ++ [name]) }

theorem drive_of_ne_file {u : Url} (h : u.scheme ≠ "file") : u.drive = [] :=
  if_neg fun hfile => h hfile.1

theorem toList_ne_nil_of_isDrive {name : String} (h : isDrive name = true) :
    name.toList ≠ [] := by
  intro hnil
  rw [isDrive, hnil] at h
  contradiction

/-- A drive is the first segment of a file URL. -/
theorem exists_drive {u : Url} (h : u.drive ≠ []) : u.scheme = "file" ∧ ∃ first others,
    u.path = .segments (first :: others) ∧ isDrive first = true ∧ u.drive = [first] := by
  obtain ⟨hfile, hfirst⟩ : u.scheme = "file" ∧ isDrive u.firstSegment = true := by
    by_contra hnot
    exact h (if_neg hnot)
  refine ⟨hfile, ?_⟩
  have hdrive : u.drive = [u.firstSegment] := if_pos ⟨hfile, hfirst⟩
  rw [firstSegment] at hfirst hdrive
  split at hfirst
  · next first others hpath =>
    rw [hpath] at hdrive
    exact ⟨first, others, hpath, hfirst, hdrive⟩
  · contradiction

theorem empty_not_mem_drive (u : Url) : "" ∉ u.drive := by
  intro hmem
  obtain ⟨-, first, others, -, hfirst, hdrive⟩ := exists_drive (List.ne_nil_of_mem hmem)
  rw [hdrive, List.mem_singleton] at hmem
  exact toList_ne_nil_of_isDrive hfirst (hmem ▸ rfl)

/-- A name from the root has no scheme of its own. -/
theorem join_of_isTarget (h : IsTarget name) (u : Url) :
    u.join ("/" ++ name) =
      if u.isRootless then .error .relativeWithRootlessBase
      else if u.scheme = "file" then readFile u ('/' :: name.toList)
      else readRelative u ('/' :: name.toList) := by
  have hscheme : splitScheme ('/' :: name.toList) = none := rfl
  rw [join, Url.read.eq_def, h.significant_slash]
  simp only [hscheme]
  rfl

/-- Only a URL with a root can be read from its root on. -/
theorem isRootless_of_join (h : IsTarget name) {u v : Url} (hjoin : u.join ("/" ++ name) = .ok v) :
    u.isRootless = false := by
  rw [join_of_isTarget h] at hjoin
  split at hjoin
  · contradiction
  · next hroot => exact Bool.eq_false_iff.2 hroot

/-- How a name from the root of a URL is read. -/
theorem join_eq (h : IsTarget name) {u : Url} (hroot : u.isRootless = false) :
    u.join ("/" ++ name) = .ok (
      if u.scheme = "file" then
        fileUrl (if u.drive = [] then u.host.getD noHost else noHost)
          (.segments (u.drive ++ [name])) []
      else u.fromRoot name) := by
  obtain ⟨b, rest, hcons⟩ := List.exists_cons_of_ne_nil h.nonempty
  have hb : ∀ special, Url.isSlash special b = false :=
    fun special => h.isSlash special b (hcons ▸ List.mem_cons_self)
  rw [join_of_isTarget h, hroot, if_neg Bool.false_ne_true]
  split
  · next hfile =>
    have hreadFile : readFile u ('/' :: name.toList) = .ok (readFileRoot u name.toList) := by
      have hbar : Url.isSlash true '/' = true := rfl
      rw [hcons, readFile]
      simp only [hbar, hb, Bool.true_and, Bool.false_eq_true, if_false, if_true]
    have hstart : (if isDrive u.firstSegment = true then (noHost, [u.firstSegment])
        else (u.host.getD noHost, [])) =
          (if u.drive = [] then u.host.getD noHost else noHost, u.drive) := by
      simp only [drive, hfile, true_and]
      split <;> rfl
    rw [hreadFile, readFileRoot]
    simp only [h.startsWithDrive, Bool.false_eq_true, if_false, hstart, h.beforeQuery,
      h.pathFrom "file" (empty_not_mem_drive u), h.fileUrl]
  · next hfile =>
    have hrelative : u.readRelative ('/' :: b :: rest) =
        if Url.isSlash (isSpecial u.scheme) b then
          readAuthority u.scheme
            (if isSpecial u.scheme then rest.dropWhile (Url.isSlash true) else rest)
        else .ok { u with
          path := Url.pathFrom u.scheme [] (Url.beforeQuery (b :: rest))
          query := Url.queryOf (isSpecial u.scheme) (b :: rest)
          fragment := Url.fragmentOf (b :: rest) } := rfl
    rw [hcons, hrelative, hb, if_neg Bool.false_ne_true, ← hcons, h.beforeQuery, h.queryOf,
      h.fragmentOf, h.pathFrom u.scheme List.not_mem_nil]
    simp only [fromRoot, root, drive_of_ne_file hfile, if_true]

/-- A target from the root of a URL. -/
theorem join_slash (h : IsTarget name) {u : Url} (hroot : u.isRootless = false)
    (hdrive : u.scheme = "file" → isDrive u.firstSegment = false) :
    ∃ v, u.join ("/" ++ name) = .ok v ∧ v.path = .segments [name] ∧ v.query = none := by
  have hnone : u.drive = [] := by
    rw [drive, if_neg]
    rintro ⟨hfile, hfirst⟩
    rw [hdrive hfile] at hfirst
    contradiction
  refine ⟨_, join_eq h hroot, ?_, ?_⟩
  · split
    · rw [hnone]
      rfl
    · rw [fromRoot, hnone]
      rfl
  · split
    · rfl
    · rfl

/-- How a name from the root of a URL is read that was read itself. -/
theorem join_of_delimited (h : IsTarget name) {u : Url} (hu : u.Delimited)
    (hroot : u.isRootless = false) : u.join ("/" ++ name) = .ok (u.fromRoot name) := by
  rw [join_eq h hroot]
  split
  · next hfile =>
    obtain ⟨hhost, husername, hpassword, hport⟩ := hu.file hfile
    obtain ⟨host, hhost⟩ := Option.ne_none_iff_exists'.1 hhost
    simp only [fromRoot, root, fileUrl, hfile, husername, hpassword, hport, hhost, Option.getD_some,
      ← apply_ite some]
    rfl
  · rfl

end SignIn.Url
