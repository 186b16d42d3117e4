/-!
# Dictionaries

A dictionary gives texts to names. Its entries are kept in ascending order of the names, each name
once, so two dictionaries with the same contents are equal and are written alike. The order is
that of the code points, which is also the order of the UTF-8 bytes.

## Main definitions

* `Dictionary.insert` — gives a text to a name, in place of an earlier one
* `Dictionary.ofPairs` — later pairs win over earlier ones
* `Dictionary.get?` — the text of a name

## Main results

* `Dictionary.get?_insert` — inserting changes one name and no other
* `Dictionary.ofPairs_entries` — a dictionary is that of its entries
-/

namespace SignIn

/-- Texts by name, in ascending order of the names. -/
structure Dictionary where
  entries : List (String × String)
  sorted : entries.Pairwise (fun a b => a.1 < b.1)
  deriving DecidableEq, Repr

namespace Dictionary

/-- No names at all. -/
def empty : Dictionary := ⟨[], .nil⟩

instance : Inhabited Dictionary := ⟨empty⟩

instance : EmptyCollection Dictionary := ⟨empty⟩

/-- Puts an entry in its place in an ascending list. -/
def insertEntry (name text : String) : List (String × String) → List (String × String)
  | [] => [(name, text)]
  | (n, t) :: rest =>
    if name < n then (name, text) :: (n, t) :: rest
    else if name = n then (name, text) :: rest
    else (n, t) :: insertEntry name text rest

theorem name_of_mem_insertEntry {name text : String} {e : String × String}
    {entries : List (String × String)} (h : e ∈ insertEntry name text entries) :
    e.1 = name ∨ e ∈ entries := by
  induction entries with
  | nil => simp_all [insertEntry]
  | cons head rest ih =>
    obtain ⟨n, t⟩ := head
    rw [insertEntry] at h
    split at h
    · rcases List.mem_cons.1 h with rfl | h
      · exact .inl rfl
      · exact .inr h
    · split at h
      · rcases List.mem_cons.1 h with rfl | h
        · exact .inl rfl
        · exact .inr (List.mem_cons_of_mem _ h)
      · rcases List.mem_cons.1 h with rfl | h
        · exact .inr List.mem_cons_self
        · rcases ih h with h | h
          · exact .inl h
          · exact .inr (List.mem_cons_of_mem _ h)

theorem sorted_insertEntry (name text : String) {entries : List (String × String)}
    (h : entries.Pairwise (fun a b => a.1 < b.1)) :
    (insertEntry name text entries).Pairwise (fun a b => a.1 < b.1) := by
  induction entries with
  | nil => simp [insertEntry]
  | cons head rest ih =>
    obtain ⟨n, t⟩ := head
    have hrest := (List.pairwise_cons.1 h).2
    have hhead := (List.pairwise_cons.1 h).1
    rw [insertEntry]
    split
    · next hlt =>
      refine List.pairwise_cons.2 ⟨fun e he => ?_, h⟩
      rcases List.mem_cons.1 he with rfl | he
      · exact hlt
      · exact String.lt_trans hlt (hhead e he)
    · next hge =>
      split
      · next heq =>
        subst heq
        exact List.pairwise_cons.2 ⟨hhead, hrest⟩
      · next hne =>
        refine List.pairwise_cons.2 ⟨fun e he => ?_, ih hrest⟩
        rcases name_of_mem_insertEntry he with h | h
        · rw [h]
          exact String.not_le.1 fun hle =>
            hne (String.le_antisymm hle (String.not_lt.1 hge))
        · exact hhead e h

/-- Gives a text to a name. -/
def insert (d : Dictionary) (name text : String) : Dictionary :=
  ⟨insertEntry name text d.entries, sorted_insertEntry name text d.sorted⟩

/-- The dictionary of a list of pairs in which later pairs win. -/
def ofPairs (pairs : List (String × String)) : Dictionary :=
  pairs.foldl (fun d p => d.insert p.1 p.2) empty

/-- The text of a name. -/
def get? (d : Dictionary) (name : String) : Option String :=
  (d.entries.find? (fun e => e.1 == name)).map Prod.snd

@[simp]
theorem get?_empty (name : String) : empty.get? name = none := rfl

theorem find?_insertEntry (name text other : String) (entries : List (String × String)) :
    (insertEntry name text entries).find? (fun e => e.1 == other) =
      if name = other then some (name, text) else entries.find? (fun e => e.1 == other) := by
  induction entries with
  | nil => by_cases h : name = other <;> simp [insertEntry, h]
  | cons head rest ih =>
    obtain ⟨n, t⟩ := head
    rw [insertEntry]
    split
    · by_cases h : name = other <;> simp [h]
    · split
      · next heq =>
        subst heq
        by_cases h : name = other <;> simp [h]
      · next hne =>
        by_cases hn : n = other
        · have : name ≠ other := fun h => hne (h.trans hn.symm)
          simp [hn, this]
        · simp [hn, ih]

/-- Inserting changes the text of one name and of no other. -/
@[simp]
theorem get?_insert (d : Dictionary) (name text other : String) :
    (d.insert name text).get? other = if name = other then some text else d.get? other := by
  rw [get?, insert]
  rw [find?_insertEntry]
  split <;> rfl

/-! ### From pairs and back -/

/-- A name behind all others goes to the end. -/
theorem insertEntry_of_forall_lt {name text : String} {entries : List (String × String)}
    (h : ∀ e ∈ entries, e.1 < name) :
    insertEntry name text entries = entries ++ [(name, text)] := by
  induction entries with
  | nil => rfl
  | cons head rest ih =>
    obtain ⟨n, t⟩ := head
    have hlt : n < name := h (n, t) List.mem_cons_self
    have hge : ¬name < n := fun hgt => String.lt_irrefl n (String.lt_trans hlt hgt)
    have hne : name ≠ n := fun e => String.lt_irrefl n (e ▸ hlt)
    rw [insertEntry, if_neg hge, if_neg hne, ih fun e he => h e (List.mem_cons_of_mem _ he),
      List.cons_append]

theorem eq_of_entries {d d' : Dictionary} (h : d.entries = d'.entries) : d = d' := by
  cases d
  cases d'
  cases h
  rfl

/-- A dictionary is that of its entries. -/
theorem ofPairs_entries (d : Dictionary) : ofPairs d.entries = d := by
  -- Each entry is inserted behind those that came before it.
  have hfold : ∀ (entries : List (String × String)) (start : Dictionary),
      (start.entries ++ entries).Pairwise (fun a b => a.1 < b.1) →
        (entries.foldl (fun d p => d.insert p.1 p.2) start).entries = start.entries ++ entries := by
    intro entries
    induction entries with
    | nil => exact fun start _ => (List.append_nil _).symm
    | cons head rest ih =>
      intro start h
      obtain ⟨name, text⟩ := head
      have hlt : ∀ e ∈ start.entries, e.1 < name := fun e he =>
        (List.pairwise_append.1 h).2.2 e he (name, text) List.mem_cons_self
      have hinsert : (start.insert name text).entries = start.entries ++ [(name, text)] :=
        insertEntry_of_forall_lt hlt
      have hrest := ih (start.insert name text) (by rwa [hinsert, List.append_assoc])
      rwa [hinsert, List.append_assoc] at hrest
  have hentries : (ofPairs d.entries).entries = d.entries := hfold d.entries empty d.sorted
  exact eq_of_entries hentries

/-- A dictionary has no names but those of its pairs. -/
theorem name_of_mem_ofPairs {pairs : List (String × String)} {e : String × String}
    (h : e ∈ (ofPairs pairs).entries) : ∃ p ∈ pairs, p.1 = e.1 := by
  have hfold : ∀ start : Dictionary,
      e ∈ (pairs.foldl (fun d p => d.insert p.1 p.2) start).entries →
        e ∈ start.entries ∨ ∃ p ∈ pairs, p.1 = e.1 := by
    clear h
    induction pairs with
    | nil => exact fun _ h => .inl h
    | cons head rest ih =>
      intro start h
      obtain h | ⟨p, hp, hname⟩ := ih _ h
      · obtain h | h := name_of_mem_insertEntry h
        · exact .inr ⟨head, List.mem_cons_self, h.symm⟩
        · exact .inl h
      · exact .inr ⟨p, List.mem_cons_of_mem _ hp, hname⟩
  exact (hfold empty h).resolve_left List.not_mem_nil

end Dictionary

end SignIn
