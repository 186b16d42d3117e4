import SignIn.Proofs.Json.Pass

/-!
# Reading a text again

A text can be read twice: by a record that takes what it says, and again by one that knows other
members, and attempts to find some of the first one's. Nothing makes two readings of one text agree.
If they took different stretches of it for the same member, the second one could find a member in
the middle of a string of the first one, and what was checked would not be what is used.

It does not come to that. The two readings go through a mapping side by side, and after each member
they are at the same place, or the second one is stuck and fails. So they have seen the same
members, and what both know has the same value. In a sequence members have no names, but there the
second reading fails, because the first one takes more elements than it knows.

## Main definitions

* `Json.Record.LooksAgain` — how a second record looks at the text of a first one
* `Json.Record.Agree` — the members that both know have the same values

## Main results

* `Json.Record.LooksAgain.readMember` — one round of both readings
* `Json.Record.LooksAgain.readMembers` — the members of a mapping
* `Json.Record.LooksAgain.value?_eq` — what is read again is what was read
-/

namespace SignIn.Json

variable {α : Type} {c c' c₁ c₂ : Cursor} {depth : Nat}

namespace Record

/-! ### Members -/

/-- What one round of the loop over the members has done: a value was passed over or read. -/
theorem of_readMember_eq_ok {r : Record α} {seen : List (String × α)} {key : String}
    {value : Option α} (hothers : r.others = none)
    (h : r.readMember depth seen key c = .ok (value, c')) :
    ∃ c₁, skipColon c = .ok c₁ ∧
      ((r.members.find? (·.name == key) = none ∧ value = none ∧ skipAny c₁ = .ok c') ∨
        ∃ m a, r.members.find? (·.name == key) = some m ∧ value = some a ∧
          m.read depth c₁ = .ok (a, c')) := by
  rw [readMember, hothers] at h
  cases hfind : r.members.find? (·.name == key) with
  | none =>
    rw [hfind] at h
    simp only [pure_bind] at h
    obtain ⟨c₁, hcolon, h⟩ := of_bind_eq_ok h
    obtain ⟨c₂, hskip, h⟩ := of_bind_eq_ok h
    cases h
    exact ⟨c₁, hcolon, .inl ⟨rfl, rfl, hskip⟩⟩
  | some m =>
    rw [hfind] at h
    dsimp only at h
    split at h
    · cases h
    · simp only [pure_bind] at h
      obtain ⟨c₁, hcolon, h⟩ := of_bind_eq_ok h
      obtain ⟨⟨a, c₂⟩, hread, h⟩ := of_bind_eq_ok h
      cases h
      exact ⟨c₁, hcolon, .inr ⟨m, a, rfl, rfl, hread⟩⟩

/-- The record `again` looks for scalars in a text of which `r` takes scalars. -/
structure LooksAgain (again : Record (Option α)) (r : Record α) : Prop where
  /-- Both of them drop what they do not know. -/
  others : r.others = none
  others_again : again.others = none
  isScalar : ∀ m ∈ r.members, IsScalar m.read
  attempts : ∀ m ∈ again.members, IsAttempt m.read
  /-- What both know is read in the same way. -/
  shared : ∀ m ∈ r.members, ∀ m' ∈ again.members, m.name = m'.name → m'.read = attempt m.read
  /-- The first record has no defaults, and the second one has fewer members. -/
  required : ∀ m ∈ r.members, m.absent = none ∧ m.absentAtEnd = none
  shorter : again.members.length < r.members.length
  pos : 0 < again.members.length

/-- The record knows members of this name. -/
def Knows (r : Record α) (name : String) : Prop := name ∈ r.members.map (·.name)

instance (r : Record α) (name : String) : Decidable (r.Knows name) :=
  inferInstanceAs (Decidable (name ∈ _))

variable {again : Record (Option α)} {r : Record α}

/-- The members that both records know came in the same order and had the same values. Lists of
members are compared name by name, so that this is kept when they are reversed. -/
def Agree (again : Record (Option α)) (r : Record α) (pairs : List (String × α))
    (pairs' : List (String × Option α)) : Prop :=
  ∀ name, r.Knows name → again.Knows name →
    pairs'.filter (·.1 == name) = (pairs.filter (·.1 == name)).map fun p => (p.1, some p.2)

variable {seen pairs : List (String × α)} {seen' pairs' : List (String × Option α)} {key : String}
  {value : Option α} {value' : Option (Option α)}

theorem Agree.cons (h : Agree again r seen seen')
    (hvalue : r.Knows key → again.Knows key → value' = value.map some) :
    Agree again r ((value.map (key, ·)).toList ++ seen)
      ((value'.map (key, ·)).toList ++ seen') := by
  intro name hr hagain
  by_cases hkey : key = name
  · subst hkey
    rw [hvalue hr hagain]
    cases value with
    | none => exact h key hr hagain
    | some a => simp [h key hr hagain]
  · have hother : ∀ {β : Type} (b : Option β) (l : List (String × β)),
        ((b.map (key, ·)).toList ++ l).filter (·.1 == name) = l.filter (·.1 == name) := by
      intro β b l
      cases b with
      | none => rfl
      | some b => simp [hkey]
    rw [hother, hother, h name hr hagain]

theorem Agree.reverse (h : Agree again r pairs pairs') :
    Agree again r pairs.reverse pairs'.reverse := by
  intro name hr hagain
  rw [List.filter_reverse, List.filter_reverse, h name hr hagain, List.map_reverse]

theorem Agree.valueOf_eq {name : String} (h : Agree again r pairs pairs') (hr : r.Knows name)
    (hagain : again.Knows name) : valueOf pairs' name = (valueOf pairs name).map some := by
  rw [valueOf, valueOf, ← List.head?_filter, ← List.head?_filter, h name hr hagain, List.head?_map]
  cases (pairs.filter (·.1 == name)).head? <;> rfl

theorem knows_of_find? {m : Member α} (h : r.members.find? (·.name == key) = some m) :
    m ∈ r.members ∧ m.name = key :=
  ⟨List.mem_of_find?_eq_some h, by simpa using List.find?_some h⟩

theorem not_knows_of_find? (h : r.members.find? (·.name == key) = none) : ¬r.Knows key := by
  intro hknows
  obtain ⟨m, hm, rfl⟩ := List.mem_map.1 hknows
  exact List.find?_eq_none.1 h m hm (beq_self_eq_true _)

/-- Both readings take the same text for a member, and the same value if they both know it. -/
theorem LooksAgain.readMember (h : again.LooksAgain r)
    (hmember : r.readMember depth seen key c = .ok (value, c₁))
    (hmember' : again.readMember depth seen' key c = .ok (value', c₂)) :
    (c₂ = c₁ ∨ c₂.IsStuck) ∧ (r.Knows key → again.Knows key → value' = value.map some) := by
  obtain ⟨d, hcolon, hread⟩ := of_readMember_eq_ok h.others hmember
  obtain ⟨d', hcolon', hagain⟩ := of_readMember_eq_ok h.others_again hmember'
  obtain rfl : d = d' := Except.ok.inj (hcolon.symm.trans hcolon')
  obtain ⟨hfind, rfl, hskip⟩ | ⟨m, a, hfind, rfl, hread⟩ := hread
  · refine ⟨?_, fun hr => absurd hr (not_knows_of_find? hfind)⟩
    obtain ⟨-, -, hskip'⟩ | ⟨m', a', hfind', -, hagain⟩ := hagain
    · exact .inl (Except.ok.inj (hskip'.symm.trans hskip))
    · obtain ⟨reader, hscalar, hattempt⟩ := h.attempts m' (knows_of_find? hfind').1
      rw [hattempt] at hagain
      exact hscalar.of_attempt hskip hagain
  · obtain ⟨hm, hname⟩ := knows_of_find? hfind
    obtain ⟨hfind', -, hskip'⟩ | ⟨m', a', hfind', rfl, hagain⟩ := hagain
    · obtain ⟨hskip, -⟩ := h.isScalar m hm hread
      exact ⟨.inl (Except.ok.inj (hskip'.symm.trans hskip)),
        fun _ hk => absurd hk (not_knows_of_find? hfind')⟩
    · obtain ⟨hm', hname'⟩ := knows_of_find? hfind'
      rw [h.shared m hm m' hm' (hname.trans hname'.symm), attempt_of_eq_ok hread] at hagain
      cases hagain
      exact ⟨.inl rfl, fun _ _ => rfl⟩

theorem readMembers_ne_ok_of_isStuck (r : Record α) (hstuck : c.IsStuck) (fuel : Nat)
    (x : List (String × α) × Cursor) : r.readMembers depth fuel false seen c ≠ .ok x := by
  intro h
  cases fuel with
  | zero =>
    rw [readMembers] at h
    cases h
  | succ fuel =>
    rw [readMembers] at h
    obtain ⟨next, hnext, -⟩ := of_bind_eq_ok h
    exact hstuck next hnext

/-- Both readings of a mapping agree on the members that they both know. -/
theorem LooksAgain.readMembers (h : again.LooksAgain r) {fuel : Nat} {first : Bool}
    (hread : r.readMembers depth fuel first seen c = .ok (pairs, c₁))
    (hagain : again.readMembers depth fuel first seen' c = .ok (pairs', c₂))
    (hseen : Agree again r seen seen') : Agree again r pairs pairs' := by
  induction fuel generalizing first seen seen' c with
  | zero =>
    rw [Record.readMembers] at hread
    cases hread
  | succ fuel ih =>
    rw [Record.readMembers] at hread hagain
    obtain ⟨next, hnext, hread⟩ := of_bind_eq_ok hread
    rw [hnext, ok_bind] at hagain
    cases next with
    | none =>
      cases hread
      cases hagain
      exact hseen.reverse
    | some next =>
      obtain ⟨key, d⟩ := next
      obtain ⟨⟨value, d₁⟩, hmember, hread⟩ := of_bind_eq_ok hread
      obtain ⟨⟨value', d₂⟩, hmember', hagain⟩ := of_bind_eq_ok hagain
      obtain ⟨rfl | hstuck, hvalue⟩ := h.readMember hmember hmember'
      · exact ih hread hagain (hseen.cons hvalue)
      · exact absurd hagain (readMembers_ne_ok_of_isStuck again hstuck fuel _)

/-! ### Elements -/

theorem of_readElements_eq_ok {m : Member α} {members : List (Member α)} {index : Nat}
    {values : List α} (hm : m.absentAtEnd = none)
    (h : r.readElements depth index (m :: members) c = .ok (values, c')) :
    ∃ next a d values', nextElement (index == 0) c = .ok (some next) ∧
      m.read depth next = .ok (a, d) ∧
        r.readElements depth (index + 1) members d = .ok (values', c') := by
  rw [readElements] at h
  obtain ⟨next, hnext, h⟩ := of_bind_eq_ok h
  cases next with
  | none =>
    rw [hm] at h
    cases h
  | some next =>
    obtain ⟨⟨a, d⟩, hread, h⟩ := of_bind_eq_ok h
    obtain ⟨⟨values', d'⟩, helements, h⟩ := of_bind_eq_ok h
    cases h
    exact ⟨next, a, d, values', hnext, hread, helements⟩

/-- Both readings take the same text for an element, and the first one has more of them. -/
theorem readElements_again {members : List (Member α)} {members' : List (Member (Option α))}
    (hscalar : ∀ m ∈ members, IsScalar m.read) (hrequired : ∀ m ∈ members, m.absentAtEnd = none)
    (hattempts : ∀ m ∈ members', IsAttempt m.read)
    (hlength : members'.length < members.length) {index : Nat} {values : List α}
    (h : r.readElements depth index members c = .ok (values, c')) :
    ∃ values' c₁ next, again.readElements depth index members' c = .ok (values', c₁) ∧
      nextElement (index + members'.length == 0) c₁ = .ok (some next) := by
  induction members' generalizing members index c values with
  | nil =>
    obtain ⟨m, members, rfl⟩ := List.exists_cons_of_ne_nil (List.ne_nil_of_length_pos hlength)
    obtain ⟨next, a, d, values, hnext, -, -⟩ :=
      of_readElements_eq_ok (hrequired m List.mem_cons_self) h
    exact ⟨[], c, next, rfl, hnext⟩
  | cons m' members' ih =>
    obtain ⟨m, members, rfl⟩ := List.exists_cons_of_ne_nil
      (List.ne_nil_of_length_pos (Nat.zero_lt_of_lt hlength))
    obtain ⟨next, a, d, values, hnext, hread, h⟩ :=
      of_readElements_eq_ok (hrequired m List.mem_cons_self) h
    obtain ⟨reader, hreader, hattempt⟩ := hattempts m' List.mem_cons_self
    obtain ⟨found, hfound⟩ := hreader.attempt (hscalar m List.mem_cons_self) hread
    obtain ⟨values', c₁, next', helements, hnext'⟩ :=
      ih (fun m hm => hscalar m (List.mem_cons_of_mem _ hm))
        (fun m hm => hrequired m (List.mem_cons_of_mem _ hm))
        (fun m hm => hattempts m (List.mem_cons_of_mem _ hm)) (Nat.lt_of_succ_lt_succ hlength) h
    refine ⟨found :: values', c₁, next', ?_, ?_⟩
    · rw [readElements, hnext]
      simp only [ok_bind, hattempt, hfound, helements]
      rfl
    · rw [List.length_cons, Nat.add_comm members'.length 1, ← Nat.add_assoc]
      exact hnext'

/-- A sequence does not end where an element comes next. -/
theorem endSequence_ne_ok {next : Cursor} (h : nextElement false c = .ok (some next)) (x : Cursor) :
    endSequence c ≠ .ok x := by
  intro hend
  obtain ⟨hpeek, -⟩ | ⟨-, e, herror⟩ := Frame.finish_cases .sequence c
  · rw [nextElement] at h
    simp only [hpeek, Frame.bracket] at h
    cases h
  · rw [Frame.finish] at herror
    rw [herror] at hend
    cases hend

/-- A sequence with an element for each member of the first record is too long for the second. -/
theorem LooksAgain.readSequence_ne_ok (h : again.LooksAgain r) {values : List α}
    (hread : r.readSequence depth c = .ok (values, c')) (x : List (Option α) × Cursor) :
    again.readSequence depth c ≠ .ok x := by
  intro hagain
  rw [readSequence] at hread hagain
  split at hread
  · cases hread
  · next hdepth =>
    rw [if_neg hdepth] at hagain
    obtain ⟨⟨values, d⟩, helements, -⟩ := of_bind_eq_ok hread
    obtain ⟨values', d', next, helements', hnext⟩ :=
      readElements_again h.isScalar (fun m hm => (h.required m hm).2) h.attempts h.shorter helements
    rw [helements', ok_bind] at hagain
    obtain ⟨d'', hend, -⟩ := of_bind_eq_ok hagain
    have hlast : (0 + again.members.length == 0) = false := by
      have := h.pos
      simp only [beq_eq_false_iff_ne]
      omega
    rw [hlast] at hnext
    exact endSequence_ne_ok hnext d'' hend

/-! ### Texts -/

/-- Both readings of a text take its members from pairs that agree. -/
theorem LooksAgain.agree (h : again.LooksAgain r) {bs : Bytes} {values : List α}
    {values' : List (Option α)} (hread : parse r.read bs = .ok values)
    (hagain : parse again.read bs = .ok values') :
    ∃ pairs pairs', r.collect pairs = .ok values ∧ again.collect pairs' = .ok values' ∧
      Agree again r pairs pairs' := by
  obtain ⟨c₁, hread, -⟩ := of_parse_eq_ok hread
  obtain ⟨c₂, hagain, -⟩ := of_parse_eq_ok hagain
  rw [Record.read] at hread hagain
  split at hread
  · next hpeek =>
    rw [hpeek] at hagain
    obtain ⟨pairs, d, hmembers, hvalues, -⟩ := of_readMapping_eq_ok hread
    obtain ⟨pairs', d', hmembers', hvalues', -⟩ := of_readMapping_eq_ok hagain
    exact ⟨pairs, pairs', hvalues, hvalues', h.readMembers hmembers hmembers' fun _ _ _ => rfl⟩
  · next hpeek =>
    rw [hpeek] at hagain
    exact absurd hagain (h.readSequence_ne_ok hread _)
  · cases hread
  · exact absurd hread (refuse_ne_ok _ _ _)

/-- The value of the member of this name. -/
def value? (r : Record α) (values : List α) (name : String) : Option α :=
  ((r.members.map (·.name)).zip values).lookup name

/-- A member that is there has its value. -/
theorem value?_of_collect {name : String} {values : List α} {a : α}
    (h : r.collect pairs = .ok values) (hknows : r.Knows name) (ha : valueOf pairs name = some a) :
    r.value? values name = some a := by
  replace h := forall₂_of_mapM_eq_ok h
  rw [Knows] at hknows
  rw [value?]
  generalize r.members = members at h hknows ⊢
  induction h with
  | nil => exact absurd hknows List.not_mem_nil
  | @cons m b members values hb _ ih =>
    rw [List.map_cons, List.zip_cons_cons, List.lookup_cons]
    by_cases hname : m.name = name
    · subst hname
      rw [ha] at hb
      cases hb
      simp
    · have hother : name ≠ m.name := Ne.symm hname
      rw [beq_eq_false_iff_ne.2 hother]
      exact ih (List.mem_of_ne_of_mem hother hknows)

/-- A member that has no default is there. -/
theorem exists_of_collect {values : List α} (h : r.collect pairs = .ok values) {m : Member α}
    (hm : m ∈ r.members) (habsent : m.absent = none) : ∃ a, valueOf pairs m.name = some a := by
  replace h := forall₂_of_mapM_eq_ok h
  generalize r.members = members at h hm
  induction h with
  | nil => exact absurd hm List.not_mem_nil
  | @cons m' b members values hb _ ih =>
    obtain rfl | hm := List.mem_cons.1 hm
    · cases hvalue : valueOf pairs m.name with
      | none =>
        rw [hvalue, habsent] at hb
        cases hb
      | some a => exact ⟨a, rfl⟩
    · exact ih hm

/-- **What is read again is what was read.** -/
theorem LooksAgain.value?_eq (h : again.LooksAgain r) {bs : Bytes} {values : List α}
    {values' : List (Option α)} (hread : parse r.read bs = .ok values)
    (hagain : parse again.read bs = .ok values') (name : String) (hr : r.Knows name)
    (hknows : again.Knows name) :
    again.value? values' name = (r.value? values name).map some := by
  obtain ⟨pairs, pairs', hcollect, hcollect', hagree⟩ := h.agree hread hagain
  obtain ⟨a, ha⟩ : ∃ a, valueOf pairs name = some a := by
    obtain ⟨m, hm, rfl⟩ := List.mem_map.1 hr
    exact exists_of_collect hcollect hm (h.required m hm).1
  rw [value?_of_collect hcollect hr ha]
  refine value?_of_collect hcollect' hknows ?_
  rw [hagree.valueOf_eq hr hknows, ha]
  rfl

end Record

end SignIn.Json
