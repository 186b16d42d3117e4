import SignIn.Proofs.Json.Again
import SignIn.Token.Exchange

/-!
# What the token endpoint can say

An answer of the token endpoint is read from its status and its body. The status decides whether it
is a refusal or a grant, and no body can change that: a refusal stays one if its body is nonsense,
and a grant with such a body is neither of both.

What is in the body is read from a mapping that has each of the three members at most once, with a
string for its value. How the mapping is spelled does not matter, in which order the members come,
or what other members there are. They can have any values, with any nesting.

A string in the text need not stand for a text, because of surrogates without a partner. The values
of members that are not known are only passed over, so there it does no harm. But the name of a
member is always read, also if it turns out that nobody knows it. So a lone surrogate in the name of
any member spoils the whole body.

## Main definitions

* `Token.Reply.under` — what members say under a name
* `Token.Reply.SaysOnce` — each of the three members comes at most once, and is a text

## Main results

* `Token.Reply.parse_of_isMapping` — what is read from a mapping
* `Token.Reply.status_decides` — and what from anything
-/

namespace SignIn

open Json

/-! ### Records of texts -/

namespace Json.Record

variable {r : Record String} {members : List (String × Option String)}

/-- If all members have the same default, that is what a missing one counts as. -/
theorem collect_of_defaults {α : Type} {r : Record α} {a : α}
    (h : ∀ m ∈ r.members, m.absent = some a) (pairs : List (String × α)) :
    r.collect pairs = .ok (r.members.map fun m => (valueOf pairs m.name).getD a) := by
  rw [collect]
  generalize r.members = members at h
  induction members with
  | nil => rfl
  | cons m members ih =>
    rw [List.mapM_cons, List.map_cons, h m List.mem_cons_self,
      ih fun m hm => h m (List.mem_cons_of_mem _ hm)]
    cases valueOf pairs m.name with
    | none => rfl
    | some b => rfl

/-- The pairs that a record of texts takes from members. -/
def textPairs (r : Record String) (members : List (String × Option String)) :
    List (String × String) :=
  members.filterMap fun m => if r.Knows m.1 then m.2.map (m.1, ·) else none

/-- What members say under a name, if it is a text. -/
def textUnder? (members : List (String × Option String)) (name : String) : Option String :=
  (members.lookup name).join

/-- Every member that the record knows is a text. -/
def AreTexts (r : Record String) (members : List (String × Option String)) : Prop :=
  ∀ m ∈ members, r.Knows m.1 → ∃ s, m.2 = some s

theorem AreTexts.tail {m : String × Option String} (h : r.AreTexts (m :: members)) :
    r.AreTexts members :=
  fun n hn => h n (List.mem_cons_of_mem _ hn)

theorem valueOf_textPairs (htexts : r.AreTexts members) {name : String} (hname : r.Knows name) :
    valueOf (r.textPairs members) name = textUnder? members name := by
  induction members with
  | nil => rfl
  | cons m members ih =>
    obtain ⟨key, value⟩ := m
    have hrest := ih htexts.tail
    by_cases hkey : name = key
    · subst hkey
      obtain ⟨s, rfl⟩ : ∃ s, value = some s := htexts _ List.mem_cons_self hname
      simp [textPairs, valueOf, textUnder?, hname]
    · have hlookup : textUnder? ((key, value) :: members) name = textUnder? members name := by
        rw [textUnder?, List.lookup_cons, beq_eq_false_iff_ne.2 hkey]
        rfl
      rw [hlookup, ← hrest, textPairs, List.filterMap_cons]
      split
      · rfl
      · next p hp =>
        have hp : p.1 = key := by
          split at hp
          · obtain ⟨s, -, rfl⟩ := Option.map_eq_some_iff.1 hp
            rfl
          · contradiction
        rw [valueOf, List.find?_cons_of_neg]
        · rfl
        · simp [hp, Ne.symm hkey]

/-- A record of texts reads every mapping in which the members that it knows are texts and come at
most once. -/
theorem fits_textPairs (hothers : r.others = none) (hread : ∀ m ∈ r.members, m.read = readText)
    (htexts : r.AreTexts members)
    (honce : ((members.map Prod.fst).filter (r.Knows ·)).Nodup) {seen : List (String × String)}
    (hseen : ∀ m ∈ members, r.Knows m.1 → valueOf seen m.1 = none) {ms : List (String × String)}
    (hms : List.Forall₂ IsMemberText ms members) : Fits r seen ms (r.textPairs members) := by
  induction hms generalizing seen with
  | nil => exact .nil seen
  | @cons m n ms members hm _ ih =>
    obtain ⟨name, value⟩ := m
    obtain ⟨key, text⟩ := n
    obtain ⟨rfl, blanks, written, hblanks, hvalue, hgrammar, htext⟩ := hm
    cases hfind : r.members.find? (·.name == name) with
    | none =>
      have hknows : ¬r.Knows name := not_knows_of_find? hfind
      have hpairs : r.textPairs ((name, text) :: members) = r.textPairs members := by
        simp [textPairs, hknows]
      rw [List.map_cons, List.filter_cons_of_neg (by simpa using hknows)] at honce
      rw [hpairs]
      exact .unknown hothers hfind (passes_of_isValue hblanks hgrammar hvalue)
        (ih htexts.tail honce fun m hm => hseen m (List.mem_cons_of_mem _ hm))
    | some m =>
      obtain ⟨hm, hmname⟩ := knows_of_find? hfind
      have hknows : r.Knows name := List.mem_map.2 ⟨m, hm, hmname⟩
      obtain ⟨s, rfl⟩ : ∃ s, text = some s := htexts _ List.mem_cons_self hknows
      have hpairs :
          r.textPairs ((name, some s) :: members) = (name, s) :: r.textPairs members := by
        simp [textPairs, hknows]
      rw [List.map_cons, List.filter_cons_of_pos (by simpa using hknows), List.nodup_cons] at honce
      rw [hpairs]
      refine .known hfind (hseen _ List.mem_cons_self hknows) ?_ (ih htexts.tail honce.2 ?_)
      · rw [hread m hm]
        exact reads_of_isTextOf hblanks (htext s rfl) hvalue
      · intro k hk hkknows
        have hmem : k.1 ∈ members.map Prod.fst := List.mem_map_of_mem hk
        have hne : name ≠ k.1 := by
          rintro rfl
          exact honce.1 (List.mem_filter.2 ⟨hmem, by simpa using hkknows⟩)
        have hother := hseen k (List.mem_cons_of_mem _ hk) hkknows
        rw [valueOf, List.find?_cons_of_neg (by simpa using hne)]
        exact hother

end Json.Record

namespace Token.Reply

/-- The names of the members that have a meaning. -/
def names : List String := ["error", "error_description", "id_token"]

theorem names_eq : names = record.members.map (·.name) := rfl

/-- What members say under a name; what they do not say is the empty text. -/
def under (members : List (String × Option String)) (name : String) : String :=
  (Record.textUnder? members name).getD ""

/-- Each of the members with a meaning comes at most once, and with a text for its value. -/
def SaysOnce (members : List (String × Option String)) : Prop :=
  ∀ name ∈ names, (members.map Prod.fst).count name ≤ 1 ∧ (name, none) ∉ members

instance (members : List (String × Option String)) : Decidable (SaysOnce members) :=
  List.decidableBAll
    (fun name => (members.map Prod.fst).count name ≤ 1 ∧ (name, none) ∉ members) names

variable {members : List (String × Option String)} {text : String}

/-! ### The body -/

theorem SaysOnce.nodup (h : SaysOnce members) :
    ((members.map Prod.fst).filter (record.Knows ·)).Nodup := by
  rw [List.nodup_iff_count]
  intro name
  by_cases hname : record.Knows name
  · rw [List.count_filter (by simpa using hname)]
    exact (h name hname).1
  · rw [List.count_eq_zero_of_not_mem]
    · exact Nat.zero_le 1
    · intro hmem
      exact hname (by simpa using List.of_mem_filter hmem)

theorem SaysOnce.areTexts (h : SaysOnce members) : record.AreTexts members := by
  rintro ⟨name, _ | s⟩ hm hknows
  · exact absurd hm (h name hknows).2
  · exact ⟨s, rfl⟩

/-- What is made of the members that were read. -/
theorem collect_textPairs (h : SaysOnce members) :
    record.collect (record.textPairs members) = .ok (names.map (under members)) := by
  have hdefault : ∀ m ∈ record.members, m.absent = some "" := by
    intro m hm
    obtain ⟨name, -, rfl⟩ := List.mem_map.1 hm
    rfl
  rw [Record.collect_of_defaults hdefault, names_eq, List.map_map]
  refine congrArg Except.ok (List.map_congr_left fun m hm => ?_)
  rw [Record.valueOf_textPairs h.areTexts (List.mem_map_of_mem hm)]
  rfl

/-- A mapping is read as what its members say, however it is spelled. -/
theorem readBody_of_isMapping (htext : IsMapping members text.toList) (h : SaysOnce members) :
    readBody (Utf8.encode text) =
      .ok (under members "error", under members "error_description", under members "id_token") := by
  obtain ⟨before, inside, behind, ms, hbefore, hbehind, hspelled, hms, hmembers⟩ :=
    members_of_isMapping htext
  have hread : ∀ m ∈ record.members, m.read = readText := by
    intro m hm
    obtain ⟨name, -, rfl⟩ := List.mem_map.1 hm
    rfl
  have hfits : Fits record [] ms (record.textPairs members) :=
    Record.fits_textPairs rfl hread h.areTexts h.nodup (fun _ _ _ => rfl) hms
  have hparse := parse_record_of_members hfits (collect_textPairs h) hmembers hbefore hbehind
  rw [readBody, Utf8.encode_eq_bytes, hspelled, hparse]
  rfl

/-! ### The status -/

/-- A response that is no success is a refusal, whatever is in its body. -/
theorem parse_false (body : Bytes) : ∃ error description,
    parse false body = .ok (.refused error description) := by
  cases hbody : readBody body with
  | error e => exact ⟨"", "", by rw [parse.eq_def, hbody]⟩
  | ok said =>
    obtain ⟨error, description, idToken⟩ := said
    exact ⟨error, description, by rw [parse.eq_def, hbody]⟩

/-- A success is a grant, or its body cannot be read. -/
theorem parse_true (body : Bytes) :
    (∃ idToken, parse true body = .ok (.granted idToken)) ∨
      ∃ reason, parse true body = .error (.invalidResponse reason) := by
  cases hbody : readBody body with
  | error e => exact .inr ⟨e.message, by rw [parse.eq_def, hbody]⟩
  | ok said =>
    obtain ⟨error, description, idToken⟩ := said
    exact .inl ⟨idToken, by rw [parse.eq_def, hbody]⟩

/-- **The status decides, and the body is read exactly.** A mapping that says each thing at most
once is read as what it says, as a grant or as a refusal by the status. Of any bytes at all a
refusal is made if the status is no success, and if it is, a grant or a complaint about the body. So
no grant comes from a response without the status of a success, and no refusal from one with it. -/
theorem status_decides :
    (∀ (members : List (String × Option String)) (text : String),
      IsMapping members text.toList → SaysOnce members →
        parse true (Utf8.encode text) = .ok (.granted (under members "id_token")) ∧
          parse false (Utf8.encode text) =
            .ok (.refused (under members "error") (under members "error_description"))) ∧
    (∀ body, (∃ error description, parse false body = .ok (.refused error description)) ∧
      ((∃ idToken, parse true body = .ok (.granted idToken)) ∨
        ∃ reason, parse true body = .error (.invalidResponse reason))) ∧
    ∀ response : Http.Inbound,
      (response.status ≠ 200 → ∀ grant, Endpoint.readResponse (.ok response) ≠ .ok grant) ∧
      (response.status = 200 → ∀ error description,
        Endpoint.readResponse (.ok response) ≠ .error (.endpoint error description)) := by
  refine ⟨?_, fun body => ⟨parse_false body, parse_true body⟩, fun response => ⟨?_, ?_⟩⟩
  · intro members text htext h
    have hbody := readBody_of_isMapping htext h
    constructor
    · rw [parse.eq_def, hbody]
    · rw [parse.eq_def, hbody]
  · intro hstatus grant hgrant
    obtain ⟨error, description, hparse⟩ := parse_false response.body
    rw [Endpoint.readResponse, decide_eq_false hstatus, hparse] at hgrant
    cases hgrant
  · intro hstatus error description hrefused
    rw [Endpoint.readResponse, decide_eq_true hstatus] at hrefused
    obtain ⟨idToken, hparse⟩ | ⟨reason, hparse⟩ := parse_true response.body
    · rw [hparse] at hrefused
      cases hrefused
    · rw [hparse] at hrefused
      cases hrefused

/-! ### Two bodies -/

theorem isLongEscape_d800 : IsLongEscape ['\\', 'u', 'd', '8', '0', '0'] 0xD800 :=
  .intro (a := 13) (b := 8) (c := 0) (d := 0) (by decide) (by decide) (by decide) (by decide)

theorem isLongEscape_006f : IsLongEscape ['\\', 'u', '0', '0', '6', 'f'] 0x6F :=
  .intro (a := 0) (b := 0) (c := 6) (d := 15) (by decide) (by decide) (by decide) (by decide)

/-- A member without blanks, of which the name and the value are given as they are written. -/
def plainItem (name value : List Char) : Item := ⟨'"' :: (name ++ ['"', ':']), value, []⟩

/-- A name that does not stand for a text. -/
def loneName : List Char := ['\\', 'u', 'd', '8', '0', '0']

theorem isLead_plainItem {name : List Char} (h : IsContent name) (value : List Char) :
    Frame.mapping.IsLead (plainItem name value).lead :=
  ⟨name, h, .intro .nil .nil .nil⟩

theorem isContent_loneName : IsContent loneName := .long isLongEscape_d800 .nil

theorem isValue_one : IsValue ['1'] := by
  have hunsigned : IsUnsigned (['1'] ++ ([] ++ [])) :=
    .intro (.digits (by decide) ⟨by decide, List.forall_mem_singleton.2 rfl⟩) .none .none
  exact .atom (.number (.positive hunsigned))

/-- A mapping with one member, whose name does not stand for a text. -/
theorem isValue_loneName : IsValue ('{' :: (Item.join [plainItem loneName ['1']] ++ ['}'])) :=
  .frame .mapping (List.cons_ne_nil _ _)
    (List.forall_mem_singleton.2 (isLead_plainItem isContent_loneName _))
    (List.forall_mem_singleton.2 isValue_one) (List.forall_mem_singleton.2 .nil)

theorem spells_error : Spells "err\\u006fr".toList "error".toList := by
  have hlong : Spells (['\\', 'u', '0', '0', '6', 'f'] ++ ['r']) ('o' :: ['r']) :=
    .long isLongEscape_006f (by decide) (by decide) (.ordinary (by decide) .nil)
  exact .ordinary (by decide) (.ordinary (by decide) (.ordinary (by decide) hlong))

/-- A body that is spelled in an odd way. There is a member that is not known, and in its value a
name that does not stand for a text. -/
def oddBody : String := "\x7b\"x\":\x7b\"\\ud800\":1\x7d ,\"err\\u006fr\" : \"a\\/b\"\x7d "

theorem isMapping_oddBody : IsMapping [("x", none), ("error", some "a/b")] oddBody.toList := by
  let unknown : Item :=
    ⟨['"', 'x', '"', ':'], '{' :: (Item.join [plainItem loneName ['1']] ++ ['}']), [' ']⟩
  let error : Item := ⟨"\"err\\u006fr\" : ".toList, "\"a\\/b\"".toList, []⟩
  have hunknown : unknown.IsMember ("x", none) :=
    ⟨⟨['x'], .ordinary (by decide) .nil, .intro .nil .nil .nil⟩, isValue_loneName, nofun,
      by decide⟩
  have hspells : Spells ['a', '\\', '/', 'b'] "a/b".toList :=
    .ordinary (by decide) (.short (by decide) (.ordinary (by decide) .nil))
  have herror : error.IsMember ("error", some "a/b") := by
    refine ⟨⟨_, spells_error, @IsLabel.intro _ [] [' '] [' '] .nil (by decide) (by decide)⟩,
      .atom (.text hspells.isContent), ?_, .nil⟩
    rintro s ⟨⟩
    exact .intro hspells
  exact ⟨[], Item.join [unknown, error], [' '], .nil, by decide, rfl,
    .inr ⟨List.cons_ne_nil _ _, _, .cons hunknown (.cons herror .nil), rfl⟩⟩

theorem status_decides_oddBody :
    IsMapping [("x", none), ("error", some "a/b")] oddBody.toList ∧
    SaysOnce [("x", none), ("error", some "a/b")] ∧
    parse true (Utf8.encode oddBody) = .ok (.granted "") ∧
    parse false (Utf8.encode oddBody) = .ok (.refused "a/b" "") := by
  have hsays : SaysOnce [("x", none), ("error", some "a/b")] := by decide
  obtain ⟨hgranted, hrefused⟩ := status_decides.1 _ _ isMapping_oddBody hsays
  exact ⟨isMapping_oddBody, hsays, hgranted, hrefused⟩

/-- A lone surrogate in the name of a member that nobody knows spoils the body: it is a mapping of
the grammar, with an error that is a text, but nothing is read from it. -/
theorem parse_loneName :
    (plainItem "error".toList "\"x\"".toList).IsMember ("error", some "x") ∧
    Frame.mapping.IsLead (plainItem loneName ['1']).lead ∧ IsValue ['1'] ∧
    "\x7b\"error\":\"x\",\"\\ud800\":1\x7d".toList = '{' :: (Item.join
      [plainItem "error".toList "\"x\"".toList, plainItem loneName ['1']] ++ ['}']) ∧
    parse false (Utf8.encode "\x7b\"error\":\"x\",\"\\ud800\":1\x7d") =
      .ok (.refused "" "") := by
  have hspells : Spells ['x'] "x".toList := .ordinary (by decide) .nil
  have hname : Spells "error".toList "error".toList :=
    .ordinary (by decide) (.ordinary (by decide) (.ordinary (by decide) (.ordinary (by decide)
      (.ordinary (by decide) .nil))))
  refine ⟨⟨⟨_, hname, .intro .nil .nil .nil⟩, .atom (.text hspells.isContent), ?_, .nil⟩,
    isLead_plainItem isContent_loneName _, isValue_one, rfl, ?_⟩
  · rintro s ⟨⟩
    exact .intro hspells
  · decide +kernel

end Token.Reply

end SignIn
