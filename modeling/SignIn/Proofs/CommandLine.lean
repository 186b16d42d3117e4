import Mathlib.Data.List.Nodup
import SignIn.CommandLine
import SignIn.Proofs.Configuration
import SignIn.Proofs.Text.Numeral

/-!
# Where a setting comes from

A setting can be passed in several ways: with its long name and the value in the next argument, with
its long name and the value behind an equals sign, with its short name, or in the environment only.
All of them come to the same, and so does every order of the arguments.

The value of an option that stands in the next argument is looked at late, when another option
begins or the arguments end. So what is preserved from option to option is not what was given, but
what will have been given once the last value is looked at, which is `Progress.settle`.

Numbers are read, written anew and read again when the configuration is made. They are not too large
for their type, so nothing is lost on the way, and no default is used in their place.

## Main definitions

* `CommandLine.Denotes` — the value that a text denotes
* `CommandLine.Passed` — an option with its value, and how it is written on the command line
* `CommandLine.Conveys` — the values that are passed, on the command line or in the environment
* `CommandLine.entries` — what is given when the values of some settings are

## Main results

* `CommandLine.read_passed`, `CommandLine.read_all` — one option, and all of them
* `CommandLine.exists_fromEnvironment`, `CommandLine.foldlM_fromEnvironment` — one setting that is
  looked up in the environment, and all of them
* `CommandLine.parse_passed` — nothing but the values is given
* `CommandLine.settings_reach_configuration` — the configuration does not depend on the way
-/

namespace SignIn

namespace CommandLine

/-! ### How values are written -/

/-- The largest number that a setting can be, if it is a number. -/
def limit? : Setting → Option Nat
  | .port => some (UInt16.size - 1)
  | .httpTimeout => some (UInt64.size - 1)
  | _ => none

/-- The value that a text denotes, as it is passed on. A number is written with digits, and any
number of zeros in front of it are left out; every other text that is not empty denotes itself. -/
inductive Denotes : Setting → String → String → Prop where
  | number {s : Setting} {limit n : Nat} {text : String} (isNumber : limit? s = some limit)
    (small : n ≤ limit) (decimal : Numeral.IsDecimal text n) : Denotes s text (toString n)
  | text {s : Setting} {text : String} (isText : limit? s = none) (nonempty : text ≠ "") :
    Denotes s text text

variable {s : Setting} {text value : String}

/-- What a text denotes is read. -/
theorem readValue_of_denotes (h : Denotes s text value) : readValue s text = .ok value := by
  cases h with
  | @number limit n _ isNumber small decimal =>
    cases s with
    | port =>
      obtain rfl : UInt16.size - 1 = limit := Option.some.inj isNumber
      have hbound : UInt16.size - 1 ≤ 1 <<< 63 - 1 := by decide
      have hfits : (0 : Int) ≤ n ∧ (n : Int) ≤ portLimit :=
        ⟨Int.natCast_nonneg n, Int.ofNat_le.2 small⟩
      rw [readValue, Numeral.integer_of_isDecimal decimal (Nat.le_trans small hbound)]
      dsimp only
      rw [if_pos hfits, Int.toNat_natCast]
    | httpTimeout =>
      obtain rfl : UInt64.size - 1 = limit := Option.some.inj isNumber
      rw [readValue, Numeral.natural_of_isDecimal decimal small]
    | _ => cases isNumber
  | text isText nonempty =>
    cases s with
    | port => cases isText
    | httpTimeout => cases isText
    | _ => rfl

/-! ### How options are written -/

/-- How an option and its value are written on the command line. -/
inductive Way where
  /-- The long name, and the value in the next argument. -/
  | separate
  /-- The long name, and the value behind an equals sign. -/
  | attached
  /-- A short name, and the value in the next argument. -/
  | short (name : Char)
  deriving DecidableEq, Repr

/-- A setting that is passed on the command line. -/
structure Passed where
  setting : Setting
  way : Way
  text : String
  deriving DecidableEq, Repr

/-- The option of a setting. -/
abbrev Passed.switch (x : Passed) : Switch := .set x.setting

/-- What is written for an option. -/
def Passed.arguments (x : Passed) : List String :=
  match x.way with
  | .separate => ["--" ++ x.switch.long, x.text]
  | .attached => ["--" ++ x.switch.long ++ "=" ++ x.text]
  | .short name => ["-" ++ String.singleton name, x.text]

/-- The option has such a name, and its value does not look like an option. -/
def Passed.IsPossible (x : Passed) : Prop :=
  match x.way with
  | .separate => x.text.toList.head? ≠ some '-'
  | .attached => True
  | .short name => x.switch.short? = some name ∧ x.text.toList.head? ≠ some '-'

instance : DecidablePred Passed.IsPossible
  | ⟨_, .separate, _⟩ => inferInstanceAs (Decidable (_ ≠ _))
  | ⟨_, .attached, _⟩ => inferInstanceAs (Decidable True)
  | ⟨_, .short _, _⟩ => inferInstanceAs (Decidable (_ ∧ _))

/-! ### What arguments look like -/

theorem ofLong?_long (s : Setting) : Switch.ofLong? (Switch.set s).long = some (.set s) := by
  cases s <;> decide

theorem ofText_long (s : Setting) :
    Argument.ofText ("--" ++ (Switch.set s).long) = .long (Switch.set s).long none := by
  cases s <;> decide

theorem ofText_word (h : text.toList.head? ≠ some '-') : Argument.ofText text = .word text := by
  rw [Argument.ofText]
  split
  · next htext => simp [htext] at h
  · next htext => simp [htext] at h
  · next htext => simp [htext] at h
  · rfl

/-- A name is read up to the first equals sign. -/
theorem ofText_attached (s : Setting) (text : String) :
    Argument.ofText ("--" ++ (Switch.set s).long ++ "=" ++ text) =
      .long (Switch.set s).long (some text) := by
  have hnot : '=' ∉ (Switch.set s).long.toList := by
    cases s <;> decide
  have hplain : ∀ c ∈ (Switch.set s).long.toList, decide (c ≠ '=') = true :=
    fun c hc => decide_eq_true fun heq => hnot (heq ▸ hc)
  have hchars : ("--" ++ (Switch.set s).long ++ "=" ++ text).toList =
      '-' :: '-' :: ((Switch.set s).long.toList ++ '=' :: text.toList) := by simp
  have hname : ((Switch.set s).long.toList ++ '=' :: text.toList).takeWhile (· ≠ '=') =
      (Switch.set s).long.toList := by
    rw [List.takeWhile_append_of_pos hplain, List.takeWhile_cons_of_neg (by simp), List.append_nil]
  rw [Argument.ofText, hchars]
  split
  · next hshort => simp at hshort
  · next rest _ hrest =>
    obtain rfl := (List.cons.inj (List.cons.inj hrest).2).2
    dsimp only
    rw [hname, List.drop_left, String.ofList_toList]
    simp only [String.ofList_toList]
  · next hdash hrest => exact (hdash (List.cons.inj (List.cons.inj hrest).2).1.symm).elim
  · next hword _ => exact (hword _ rfl).elim

theorem ofText_short {name : Char} (h : (Switch.set s).short? = some name) :
    Argument.ofText ("-" ++ String.singleton name) = .short [name] ∧
      Switch.ofShort? name = some (.set s) := by
  cases s <;> cases h <;> decide

/-! ### What is given -/

/-- What is given when the values of these settings are. -/
def entries (value : Setting → Option String) (settings : List Setting) : Given :=
  settings.filterMap fun s => (value s).map fun v => (.set s, v)

section Entries

variable {value : Setting → Option String} {settings : List Setting}

theorem entries_append (value : Setting → Option String) (settings more : List Setting) :
    entries value (settings ++ more) = entries value settings ++ entries value more :=
  List.filterMap_append

theorem entries_cons_some {v : String} (h : value s = some v) (settings : List Setting) :
    entries value (s :: settings) = (.set s, v) :: entries value settings := by
  rw [entries, List.filterMap_cons, h]
  rfl

theorem entries_cons_none (h : value s = none) (settings : List Setting) :
    entries value (s :: settings) = entries value settings := by
  rw [entries, List.filterMap_cons, h]
  rfl

theorem mem_entries {w : Switch} {v : String} :
    (w, v) ∈ entries value settings ↔ ∃ s ∈ settings, w = .set s ∧ value s = some v := by
  simp only [entries, List.mem_filterMap, Option.map_eq_some_iff, Prod.mk.injEq]
  constructor
  · rintro ⟨s, hs, v, hv, rfl, rfl⟩
    exact ⟨s, hs, rfl, hv⟩
  · rintro ⟨s, hs, rfl, hv⟩
    exact ⟨s, hs, v, hv, rfl, rfl⟩

/-- What is given tells the values. -/
theorem lookup_entries (value : Setting → Option String) (settings : List Setting) (s : Setting) :
    (entries value settings).lookup (.set s) = if s ∈ settings then value s else none := by
  induction settings with
  | nil => rfl
  | cons t settings ih =>
    by_cases hst : s = t
    · subst hst
      cases hvalue : value s with
      | none => simp [entries_cons_none hvalue, ih, hvalue]
      | some v => simp [entries_cons_some hvalue]
    · cases hvalue : value t with
      | none => simp [entries_cons_none hvalue, ih, hst]
      | some v =>
        have hswitch : (Switch.set s == Switch.set t) = false := by simp [hst]
        simp [entries_cons_some hvalue, List.lookup_cons, ih, hswitch, hst]

/-- A setting was given if it is one of them and has a value. -/
theorem has_entries (pending : Option (Setting × Option String)) :
    Progress.has ⟨entries value settings, pending⟩ (.set s) = true ↔
      s ∈ settings ∧ (value s).isSome := by
  rw [Progress.has, List.any_eq_true]
  constructor
  · rintro ⟨⟨w, v⟩, hmem, hw⟩
    obtain ⟨s', hs', rfl, hv⟩ := mem_entries.1 hmem
    obtain rfl : s' = s := by simpa using hw
    exact ⟨hs', hv ▸ rfl⟩
  · rintro ⟨hs, hvalue⟩
    obtain ⟨v, hv⟩ := Option.isSome_iff_exists.1 hvalue
    exact ⟨(.set s, v), mem_entries.2 ⟨s, hs, rfl, hv⟩, by simp⟩

/-- A further setting is given. -/
theorem addValue_entries {text v : String} (hnew : s ∉ settings) (hvalue : value s = some v)
    (hdenotes : Denotes s text v) : Progress.addValue ⟨entries value settings, none⟩ s text =
      .ok ⟨entries value (settings ++ [s]), none⟩ := by
  have hhas : ¬Progress.has ⟨entries value settings, none⟩ (.set s) = true :=
    fun h => hnew ((has_entries none).1 h).1
  have hentry : entries value [s] = [(.set s, v)] := entries_cons_some hvalue []
  rw [Progress.addValue, if_neg hhas, readValue_of_denotes hdenotes, entries_append, hentry]
  rfl

end Entries

/-! ### Reading -/

section Reading

variable {p : Progress} {given given' : Given}

theorem readOption_eq (hp : p.settle = .ok ⟨given, none⟩) (s : Setting) :
    p.readOption s = .ok ⟨given, some (s, none)⟩ := by
  rw [Progress.readOption, hp]
  rfl

theorem read_cons_long {q : Progress} {name : String} {attached : Option String}
    (h : Argument.ofText text = .long name attached) (hq : p.readLong name attached = .ok q)
    (rest : List String) : read p (text :: rest) = read q rest := by
  simp only [read, h, hq, ok_bind]

theorem read_cons_short {q : Progress} {names : List Char}
    (h : Argument.ofText text = .short names) (hq : p.readShort names = .ok q)
    (rest : List String) : read p (text :: rest) = read q rest := by
  simp only [read, h, hq, ok_bind]

/-- The value of an option is the next argument. It is not looked at yet. -/
theorem read_cons_word (h : text.toList.head? ≠ some '-') (rest : List String) :
    read ⟨given, some (s, none)⟩ (text :: rest) = read ⟨given, some (s, some text)⟩ rest := by
  simp only [read, ofText_word h]
  rfl

/-- An option is read. When its value is looked at, it is added to what was given before. -/
theorem read_passed {x : Passed} (hx : x.IsPossible) (hp : p.settle = .ok ⟨given, none⟩)
    (hadd : Progress.addValue ⟨given, none⟩ x.setting x.text = .ok ⟨given', none⟩)
    (rest : List String) :
    ∃ q : Progress, read p (x.arguments ++ rest) = read q rest ∧ q.settle = .ok ⟨given', none⟩ := by
  obtain ⟨s, way, text⟩ := x
  cases way with
  | separate =>
    have hlong : p.readLong (Switch.set s).long none = .ok ⟨given, some (s, none)⟩ := by
      simp only [Progress.readLong, ofLong?_long, readOption_eq hp]
    refine ⟨⟨given, some (s, some text)⟩, ?_, hadd⟩
    rw [← read_cons_word hx]
    exact read_cons_long (ofText_long s) hlong (text :: rest)
  | attached =>
    have hlong : p.readLong (Switch.set s).long (some text) = .ok ⟨given', none⟩ := by
      simp only [Progress.readLong, ofLong?_long, Progress.readAssignment, hp, ok_bind, hadd]
    exact ⟨⟨given', none⟩, read_cons_long (ofText_attached s text) hlong rest, rfl⟩
  | short name =>
    obtain ⟨htext, hname⟩ := ofText_short hx.1
    have hshort : p.readShort [name] = .ok ⟨given, some (s, none)⟩ := by
      rw [Progress.readShort, hname]
      exact readOption_eq hp s
    refine ⟨⟨given, some (s, some text)⟩, ?_, hadd⟩
    rw [← read_cons_word hx.2]
    exact read_cons_short htext hshort (text :: rest)

/-- All options are read. The induction is on the options that are still to come. -/
theorem read_all {value : Setting → Option String} {passed : List Passed} {settings : List Setting}
    (hp : p.settle = .ok ⟨entries value settings, none⟩)
    (hdistinct : (settings ++ passed.map (·.setting)).Nodup)
    (hpossible : ∀ x ∈ passed, x.IsPossible)
    (hdenotes : ∀ x ∈ passed, ∃ v, value x.setting = some v ∧ Denotes x.setting x.text v) :
    read p (passed.flatMap Passed.arguments) =
      .ok ⟨entries value (settings ++ passed.map (·.setting)), none⟩ := by
  induction passed generalizing p settings with
  | nil => rw [List.flatMap_nil, read, hp, List.map_nil, List.append_nil]
  | cons x passed ih =>
    obtain ⟨v, hv, hx⟩ := hdenotes x List.mem_cons_self
    have hsettings : settings ++ (x :: passed).map (·.setting) =
        (settings ++ [x.setting]) ++ passed.map (·.setting) := by simp
    rw [hsettings] at hdistinct ⊢
    have hnew : x.setting ∉ settings := fun hmem =>
      (List.nodup_append.1 hdistinct.of_append_left).2.2 _ hmem _ (List.mem_singleton_self _) rfl
    obtain ⟨q, hread, hq⟩ := read_passed (hpossible x List.mem_cons_self) hp
      (addValue_entries hnew hv hx) (passed.flatMap Passed.arguments)
    rw [List.flatMap_cons, hread]
    exact ih hq hdistinct (fun y hy => hpossible y (List.mem_cons_of_mem x hy))
      fun y hy => hdenotes y (List.mem_cons_of_mem x hy)

end Reading

/-! ### The environment -/

/-- The values are those that are passed, each of them on the command line or else in the
environment. What the environment says about a setting that is on the command line is left open. -/
structure Conveys (environment : Setting → Option String) (passed : List Passed)
    (value : Setting → Option String) : Prop where
  distinct : (passed.map (·.setting)).Nodup
  possible : ∀ x ∈ passed, x.IsPossible
  onCommandLine : ∀ x ∈ passed, ∃ v, value x.setting = some v ∧ Denotes x.setting x.text v
  inEnvironment : ∀ s ∉ passed.map (·.setting), match environment s with
    | some text => ∃ v, value s = some v ∧ Denotes s text v
    | none => value s = none

section Environment

variable {environment value : Setting → Option String} {passed : List Passed}
  {settings : List Setting}

/-- A setting has a value that is written somewhere, or it has none and is not in the
environment. -/
theorem Conveys.cases (h : Conveys environment passed value) (s : Setting) :
    (∃ text v, value s = some v ∧ Denotes s text v) ∨ value s = none ∧ environment s = none := by
  by_cases hs : s ∈ passed.map (·.setting)
  · obtain ⟨x, hx, rfl⟩ := List.mem_map.1 hs
    obtain ⟨v, hv, hdenotes⟩ := h.onCommandLine x hx
    exact .inl ⟨x.text, v, hv, hdenotes⟩
  · have hin := h.inEnvironment s hs
    cases henvironment : environment s with
    | some text =>
      rw [henvironment] at hin
      obtain ⟨v, hv, hdenotes⟩ := hin
      exact .inl ⟨text, v, hv, hdenotes⟩
    | none =>
      rw [henvironment] at hin
      exact .inr ⟨hin, rfl⟩

theorem Conveys.exists_denotes (h : Conveys environment passed value) {v : String}
    (hv : value s = some v) : ∃ text, Denotes s text v := by
  obtain ⟨text, v', hv', hdenotes⟩ | ⟨hnone, -⟩ := h.cases s
  · obtain rfl : v' = v := Option.some.inj (hv'.symm.trans hv)
    exact ⟨text, hdenotes⟩
  · cases hv.symm.trans hnone

theorem Conveys.isSome (h : Conveys environment passed value)
    (henvironment : environment s = some text) : (value s).isSome := by
  obtain ⟨_, v, hv, -⟩ | ⟨-, hnone⟩ := h.cases s
  · exact hv ▸ rfl
  · cases henvironment.symm.trans hnone

/-- One setting is looked up. It is taken from the environment if it was not given before. -/
theorem exists_fromEnvironment (h : Conveys environment passed value)
    (hsub : passed.map (·.setting) ⊆ settings) (s : Setting) :
    ∃ settings', fromEnvironment environment ⟨entries value settings, none⟩ s =
      .ok ⟨entries value settings', none⟩ ∧ s ∈ settings' ∧ settings ⊆ settings' := by
  by_cases hs : s ∈ settings
  · refine ⟨settings, ?_, hs, List.Subset.refl settings⟩
    rw [fromEnvironment]
    split
    · next text henvironment => rw [if_pos ((has_entries none).2 ⟨hs, h.isSome henvironment⟩)]
    · rfl
  · refine ⟨settings ++ [s], ?_, List.mem_append_right settings (List.mem_singleton_self s),
      List.subset_append_left settings [s]⟩
    have hin := h.inEnvironment s fun hmem => hs (hsub hmem)
    rw [fromEnvironment]
    split
    · next text henvironment =>
      rw [henvironment] at hin
      obtain ⟨v, hv, hdenotes⟩ := hin
      rw [if_neg fun hhas => hs ((has_entries none).1 hhas).1, addValue_entries hs hv hdenotes]
    · next henvironment =>
      rw [henvironment] at hin
      have hentry : entries value [s] = [] := entries_cons_none hin []
      rw [entries_append, hentry, List.append_nil]

/-- All settings are looked up, by induction on those that are still to come. -/
theorem foldlM_fromEnvironment (h : Conveys environment passed value)
    (hsub : passed.map (·.setting) ⊆ settings) (rest : List Setting) :
    ∃ settings', rest.foldlM (fromEnvironment environment) ⟨entries value settings, none⟩ =
      .ok ⟨entries value settings', none⟩ ∧ rest ⊆ settings' ∧ settings ⊆ settings' := by
  induction rest generalizing settings with
  | nil => exact ⟨settings, rfl, List.nil_subset settings, List.Subset.refl settings⟩
  | cons s rest ih =>
    obtain ⟨settings₁, hstep, hs, hle₁⟩ := exists_fromEnvironment h hsub s
    obtain ⟨settings₂, hrest, hsub₂, hle₂⟩ := ih (List.Subset.trans hsub hle₁)
    refine ⟨settings₂, ?_, List.cons_subset.2 ⟨hle₂ hs, hsub₂⟩, List.Subset.trans hle₁ hle₂⟩
    rw [List.foldlM_cons, hstep, ok_bind, hrest]

theorem mem_all (s : Setting) : s ∈ Setting.all := by
  cases s <;> decide

/-- The command line and the environment are read, and nothing but the values is given. -/
theorem parse_passed (h : Conveys environment passed value) :
    ∃ settings, parse environment (passed.flatMap Passed.arguments) =
      .ok ⟨entries value settings⟩ ∧ ∀ s, s ∈ settings := by
  have hstart : Progress.start.settle = .ok ⟨entries value [], none⟩ := rfl
  have hread := read_all hstart h.distinct h.possible h.onCommandLine
  obtain ⟨settings, hfold, hsub, -⟩ :=
    foldlM_fromEnvironment h (List.Subset.refl (passed.map (·.setting))) Setting.all
  refine ⟨settings, ?_, fun s => hsub (mem_all s)⟩
  rw [parse, hread, ok_bind]
  dsimp only [List.nil_append]
  rw [hfold, ok_bind]
  rfl

theorem setting_entries (h : ∀ s, s ∈ settings) :
    Arguments.setting ⟨entries value settings⟩ = value := by
  funext s
  rw [Arguments.setting, lookup_entries, if_pos (h s)]

theorem mockBroker_entries (value : Setting → Option String) (settings : List Setting) :
    Arguments.mockBroker ⟨entries value settings⟩ = false := by
  rw [Arguments.mockBroker, List.any_eq_false]
  rintro ⟨w, v⟩ hmem
  obtain ⟨s, -, rfl, -⟩ := mem_entries.1 hmem
  simp

end Environment

/-! ### The configuration -/

section Numbers

variable {environment value : Setting → Option String} {passed : List Passed} {limit n : Nat}

/-- A number that is passed on is not too large. -/
theorem Conveys.le_of_eq_toString (h : Conveys environment passed value)
    (hlimit : limit? s = some limit) (hvalue : value s = some (toString n)) : n ≤ limit := by
  obtain ⟨text, hdenotes⟩ := h.exists_denotes hvalue
  generalize hv : toString n = v at hdenotes
  cases hdenotes with
  | @number _ m _ isNumber small _ =>
    have hdecimal : Numeral.IsDecimal (toString m) n := hv ▸ Numeral.isDecimal_toString n
    obtain rfl : n = m := hdecimal.unique (Numeral.isDecimal_toString m)
    obtain rfl := Option.some.inj (isNumber.symm.trans hlimit)
    exact small
  | text isText _ => cases isText.symm.trans hlimit

/-- A number that was written anew is read again as it was, and no default comes in. -/
theorem Conveys.numberOr_eq (h : Conveys environment passed value) (hlimit : limit? s = some limit)
    (hvalue : value s = some (toString n)) (default : Nat) :
    Configuration.numberOr limit default (value s) = n := by
  rw [hvalue, Configuration.numberOr, Option.map_some,
    Numeral.natural_of_isDecimal (Numeral.isDecimal_toString n) (h.le_of_eq_toString hlimit hvalue)]

end Numbers

/-- **However the settings are passed, the configuration is the same.** Any of them can be missing.
The others are passed in any order, each in a way of its own, on the command line or in the
environment alone; what the environment says about a setting that is on the command line does not
count. Then the arguments are read, and they tell just these values. The configuration that is made
of them has the port and the timeout that were written, unless a URL is in the way. -/
theorem settings_reach_configuration (environment : Setting → Option String) (passed : List Passed)
    (value : Setting → Option String) (h : Conveys environment passed value) :
    ∃ a, parse environment (passed.flatMap Passed.arguments) = .ok a ∧
      a.setting = value ∧ a.mockBroker = false ∧
      match Configuration.ofSettings a.setting with
      | .error e => Configuration.IsUrlError value e
      | .ok c =>
        (∀ n, value .port = some (toString n) → c.port = n) ∧
        (value .port = none → c.port = 44180) ∧
        (∀ n, value .httpTimeout = some (toString n) → c.httpTimeout = .seconds n) ∧
        (value .httpTimeout = none → c.httpTimeout = .seconds 10) := by
  obtain ⟨settings, hparse, hall⟩ := parse_passed h
  have hsetting : Arguments.setting ⟨entries value settings⟩ = value := setting_entries hall
  refine ⟨_, hparse, hsetting, mockBroker_entries value settings, ?_⟩
  rw [hsetting]
  split
  · next e he => exact Configuration.isUrlError_of_ofSettings he
  · next c hc =>
    have hport := Configuration.port_of_ofSettings_eq_ok hc
    have htimeout := (Configuration.of_ofSettings_eq_ok hc).2.2.2
    refine ⟨fun n hn => ?_, fun hn => ?_, fun n hn => ?_, fun hn => ?_⟩
    · exact hport.trans (h.numberOr_eq rfl hn 44180)
    · rw [hport, hn]
      rfl
    · exact htimeout.trans (congrArg Duration.seconds (h.numberOr_eq rfl hn 10))
    · rw [htimeout, hn]
      rfl

/-- Three settings on the command line, each written in another way, and one in the environment. The
port is there as well, with another number. -/
theorem settings_reach_configuration_mixed :
    let environment : Setting → Option String
      | .port => some "80"
      | .httpTimeout => some "18446744073709551615"
      | _ => none
    ∃ a c, parse environment ["--broker-url", "http://broker.test", "--port=0065535", "-H", "::1"] =
        .ok a ∧
      a.setting .host = some "::1" ∧ a.setting .port = some "65535" ∧
      Configuration.ofSettings a.setting = .ok c ∧
      c.port = 65535 ∧ c.httpTimeout = .seconds 18446744073709551615 := by
  intro environment
  let value : Setting → Option String
    | .host => some "::1"
    | .port => some (toString 65535)
    | .brokerUrl => some "http://broker.test"
    | .httpTimeout => some (toString 18446744073709551615)
    | _ => none
  let passed : List Passed :=
    [⟨.brokerUrl, .separate, "http://broker.test"⟩, ⟨.port, .attached, "0065535"⟩,
      ⟨.host, .short 'H', "::1"⟩]
  have hconveys : Conveys environment passed value := by
    refine ⟨by decide, ?_, ?_, ?_⟩
    · decide
    · have hport : Numeral.IsDecimal "0065535" 65535 :=
        ⟨by decide, List.all_eq_true.1 (by decide), by decide⟩
      simp only [passed, List.forall_mem_cons]
      exact ⟨⟨_, rfl, .text rfl (by decide)⟩, ⟨_, rfl, .number rfl (by decide) hport⟩,
        ⟨_, rfl, .text rfl (by decide)⟩, nofun⟩
    · have htimeout : Numeral.IsDecimal "18446744073709551615" 18446744073709551615 :=
        ⟨by decide, List.all_eq_true.1 (by decide), by decide⟩
      intro s hs
      cases s with
      | httpTimeout => exact ⟨_, rfl, .number rfl (by decide) htimeout⟩
      | redirectUri => rfl
      | tokenEndpoint => rfl
      | _ => exact absurd (by decide) hs
  obtain ⟨a, hparse, hsetting, -, hconfiguration⟩ :=
    settings_reach_configuration environment passed value hconveys
  have hport : a.setting .port = some (toString 65535) := by rw [hsetting]
  have hhost : a.setting .host = some "::1" := by rw [hsetting]
  cases hc : Configuration.ofSettings a.setting with
  | error e =>
    have hread : (Configuration.ofSettings value).toOption.isSome := by decide +kernel
    rw [← hsetting, hc] at hread
    cases hread
  | ok c =>
    rw [hc] at hconfiguration
    exact ⟨a, c, hparse, hhost, hport, hc, hconfiguration.1 65535 rfl,
      hconfiguration.2.2.1 18446744073709551615 rfl⟩

end CommandLine

end SignIn
