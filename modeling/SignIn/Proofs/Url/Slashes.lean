import SignIn.Proofs.Url.Parse

/-!
# What the slashes of a URL stand for

A slash in front of a written path always starts a segment, and behind the scheme two of them always
announce a host. For a part that holds a slash itself could not be told from several ones, and so
none is read with one: a host ends where a slash comes or is refused, a path is split at every
slash, and a name or password has its slashes escaped.

The schemes of HTTP are not special in that. Over them much more is known about a URL; here is what
is known about all URLs, with any scheme that there is.

## Main definitions

* `Url.Delimited` — what every URL that was read is like

## Main results

* `Url.delimited_of_parse` — a URL that was read is like that
-/

namespace SignIn.Url

/-- What every URL that was read is like, whatever its scheme: no slash is part of a host or of a
segment, and only a host with a name has anything beside it. -/
structure Delimited (u : Url) : Prop where
  host : ∀ host ∈ u.host, '/' ∉ host.toText.toList
  nameless : ∀ host ∈ u.host, host.toText = "" →
    u.username = "" ∧ u.password = "" ∧ u.port = none
  /-- The host of a file never has anything beside it. -/
  file : u.scheme = "file" →
    u.host ≠ none ∧ u.username = "" ∧ u.password = "" ∧ u.port = none
  path : ∀ names, u.path = .segments names → ∀ n ∈ names, '/' ∉ n.toList

/-! ### Hosts -/

section Host

variable {text : List Char} {host : Host}

theorem Host.slash_of_canonical (h : host.Canonical) : '/' ∉ host.toText.toList :=
  fun hmem => (Host.mem_toText h hmem).2 (by decide)

/-- A name that is not folded is escaped, and before that a slash in it is refused. -/
theorem Host.slash_of_ofOther (h : ofOther text = .ok host) : '/' ∉ host.toText.toList := by
  rw [ofOther] at h
  split at h
  · exact slash_of_canonical (canonical_of_bracketed h)
  · split at h
    · contradiction
    · next hallowed =>
      rw [← Except.ok.inj h]
      intro hmem
      have hkeep : Percent.KeepsAscii fun b => 0x20 ≤ b && b < 0x7F := by
        intro b hb
        simp only [Bool.and_eq_true, decide_eq_true_eq, UInt8.lt_iff_toNat_lt,
          UInt8.reduceToNat] at hb
        exact Nat.lt_trans hb.2 (by decide)
      have hslash := Percent.mem_of_mem_encode hkeep hmem (by decide) (by decide)
      rw [String.toList_ofList] at hslash
      exact hallowed (List.any_eq_true.2 ⟨'/', hslash, by decide⟩)

theorem slash_of_readHost {scheme : String} (h : readHost scheme text = .ok host) :
    '/' ∉ host.toText.toList := by
  rw [readHost] at h
  split at h
  · exact Host.slash_of_canonical (Host.canonical_of_ofSpecial h)
  · exact Host.slash_of_ofOther h

/-- Only where nothing stands for a host, its name is empty. -/
theorem eq_nil_of_readHost {scheme : String} (h : readHost scheme text = .ok host)
    (hempty : host.toText = "") : text = [] := by
  have hcanonical : ¬host.Canonical := fun hcanonical =>
    Host.toText_ne_nil hcanonical (String.toList_eq_nil_iff.2 hempty)
  rw [readHost] at h
  split at h
  · exact absurd (Host.canonical_of_ofSpecial h) hcanonical
  · rw [Host.ofOther] at h
    split at h
    · exact absurd (Host.canonical_of_bracketed h) hcanonical
    · split at h
      · contradiction
      · rw [← Except.ok.inj h] at hempty
        exact String.ofList_injective (Percent.eq_empty_of_encode hempty)

theorem slash_of_isFileHost (h : IsFileHost host) : '/' ∉ host.toText.toList := by
  obtain rfl | ⟨hostText, hread⟩ := h
  · exact List.not_mem_nil
  · exact Host.slash_of_canonical (Host.canonical_of_ofSpecial hread)

end Host

/-! ### Paths -/

section Path

variable {file : Bool} {n : String}

/-- What a path may hold behind one more segment: a drive loses its mark there. -/
theorem mem_addSegment {last : Bool} {segments : List String} {name : String}
    (h : n ∈ addSegment file last segments name) :
    n ∈ segments ∨ n = "" ∨ n = name ∨ n = String.ofList (name.toList.take 1) ++ ":" := by
  have hempty : ∀ {segments' : List String}, (∀ m ∈ segments', m ∈ segments) →
      n ∈ segments' ++ [""] → n ∈ segments ∨ n = "" := by
    intro segments' hsub hmem
    obtain hmem | hmem := List.mem_append.1 hmem
    · exact .inl (hsub n hmem)
    · exact .inr (List.mem_singleton.1 hmem)
  rw [addSegment] at h
  split at h
  · split at h
    · exact (hempty (fun _ => mem_of_mem_parent) h).imp_right .inl
    · exact .inl (mem_of_mem_parent h)
  · split at h
    · exact (hempty (fun _ hm => hm) h).imp_right .inl
    · exact .inl h
  · split at h
    · exact .inr (.inr (.inr (List.mem_singleton.1 h)))
    · obtain h | h := List.mem_append.1 h
      · exact .inl h
      · exact .inr (.inr (.inl (List.mem_singleton.1 h)))

theorem slash_of_mem_addSegment {last : Bool} {segments : List String} {name : String}
    (hsegments : ∀ n ∈ segments, '/' ∉ n.toList) (hname : '/' ∉ name.toList)
    (h : n ∈ addSegment file last segments name) : '/' ∉ n.toList := by
  obtain h | rfl | rfl | rfl := mem_addSegment h
  · exact hsegments n h
  · exact List.not_mem_nil
  · exact hname
  · intro hmem
    rw [String.toList_append, String.toList_ofList, List.mem_append] at hmem
    obtain hmem | hmem := hmem
    · exact hname (List.mem_of_mem_take hmem)
    · exact absurd hmem (by decide)

theorem slash_of_mem_addSegments {names base : List String}
    (hbase : ∀ n ∈ base, '/' ∉ n.toList) (hnames : ∀ n ∈ names, '/' ∉ n.toList)
    (h : n ∈ addSegments file base names) : '/' ∉ n.toList := by
  induction names generalizing base with
  | nil => exact hbase n h
  | cons name names ih =>
    have hname := hnames name List.mem_cons_self
    cases names with
    | nil => exact slash_of_mem_addSegment hbase hname h
    | cons next names =>
      rw [addSegments] at h
      · exact ih (fun m hm => slash_of_mem_addSegment hbase hname hm)
          (fun m hm => hnames m (List.mem_cons_of_mem name hm)) h
      · exact fun h => List.cons_ne_nil _ _ h

theorem mem_trimFilePath {segments : List String} (h : n ∈ trimFilePath file segments) :
    n ∈ segments ∨ n = "" := by
  rw [trimFilePath] at h
  split at h
  · dsimp only at h
    split at h
    · exact .inr (List.mem_singleton.1 h)
    · exact .inl ((List.dropWhile_sublist _).subset h)
  · exact .inl h

/-- A path is split at its slashes. -/
theorem slash_of_pathFrom {scheme : String} {text : List Char} {names : List String}
    (h : pathFrom scheme [] text = .segments names) : ∀ n ∈ names, '/' ∉ n.toList := by
  have htexts : ∀ n ∈ segmentTexts (isSpecial scheme) text, '/' ∉ n.toList := by
    intro n hn hmem
    obtain ⟨piece, hpiece, rfl⟩ := List.mem_map.1 hn
    exact (mem_splitChars hpiece (mem_of_mem_escapePart hmem (by decide) (by decide))).2 rfl
  rw [pathFrom] at h
  obtain rfl := Path.segments.inj h
  intro n hn
  obtain hn | rfl := mem_trimFilePath hn
  · exact slash_of_mem_addSegments (fun m hm => absurd hm List.not_mem_nil) htexts hn
  · exact List.not_mem_nil

theorem slash_of_pathBehindHost {scheme : String} {text : List Char} {names : List String}
    (h : pathBehindHost scheme text = .segments names) : ∀ n ∈ names, '/' ∉ n.toList := by
  unfold pathBehindHost at h
  split at h
  · split at h
    · obtain rfl := Path.segments.inj h
      exact List.forall_mem_singleton.2 List.not_mem_nil
    · obtain rfl := Path.segments.inj h
      exact List.forall_mem_nil _
  · split at h
    · exact slash_of_pathFrom h
    · exact slash_of_pathFrom h

end Path

/-! ### URLs -/

theorem delimited_of_readAuthority {scheme : String} {text : List Char} {u : Url}
    (hscheme : scheme ≠ "file") (h : readAuthority scheme text = .ok u) : u.Delimited := by
  obtain ⟨user, password, hostText, portPart, rest, host, port, hhost, hport, halone, rfl⟩ :=
    of_readAuthority_eq_ok h
  refine ⟨?_, ?_, fun hfile => absurd hfile hscheme, fun names => slash_of_pathBehindHost⟩
  · rintro _ ⟨⟩
    exact slash_of_readHost hhost
  · rintro _ ⟨⟩ hempty
    obtain ⟨-, rfl, rfl, rfl⟩ := halone (eq_nil_of_readHost hhost hempty)
    exact ⟨escapePart_nil _, escapePart_nil _, (Except.ok.inj hport).symm⟩

theorem delimited_of_readFile {text : List Char} {u : Url} (h : readFile none text = .ok u) :
    u.Delimited := by
  obtain ⟨host, path, rest, hhost, rfl⟩ := of_readFile_eq_ok h
  refine ⟨?_, fun _ _ _ => ⟨rfl, rfl, rfl⟩, fun _ => ⟨Option.some_ne_none host, rfl, rfl, rfl⟩,
    fun names => slash_of_pathFrom⟩
  rintro _ ⟨⟩
  exact slash_of_isFileHost hhost

theorem delimited_readWithoutHost {scheme : String} (hscheme : scheme ≠ "file")
    (text : List Char) : (readWithoutHost scheme text).Delimited := by
  refine ⟨nofun, nofun, fun hfile => absurd hfile hscheme, ?_⟩
  intro names h
  unfold readWithoutHost at h
  dsimp only at h
  split at h
  · exact slash_of_pathFrom h
  · contradiction

/-- **No part of a URL that was read holds a slash**, whatever its scheme. -/
theorem delimited_of_parse {text : String} {u : Url} (h : parse text = .ok u) : u.Delimited := by
  obtain ⟨rest, hread⟩ | ⟨scheme, rest, hfile, hread⟩ | ⟨scheme, rest, hspecial, rfl⟩ :=
    of_parse_eq_ok h
  · exact delimited_of_readFile hread
  · exact delimited_of_readAuthority hfile hread
  · refine delimited_readWithoutHost ?_ rest
    rintro rfl
    exact absurd hspecial (by decide)

end SignIn.Url
