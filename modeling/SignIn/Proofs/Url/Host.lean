import Mathlib.Data.Bool.AllAny
import SignIn.Proofs.Text.Digits
import SignIn.Proofs.Text.Percent
import SignIn.Url.Host

/-!
# Hosts are read back

The written form of a host is the shortest spelling of it, and reading it gives the same host again.
For a name this holds because everything that reading does to it was done already. The parts of an
address are written without needless zeros, and what an IPv6 address leaves out is a run of zeros.

## Main definitions

* `Url.Host.Canonical` — what a host is like that was read

## Main results

* `Url.Host.canonical_of_ofSpecial`, `Url.Host.ofSpecial_toText` — a host that was read is read back
-/

namespace SignIn.Url

/-! ### Splitting -/

variable {sep : Char}

theorem splitChars_of_not_mem {piece : List Char} (h : sep ∉ piece) :
    splitChars sep piece = [piece] := by
  induction piece with
  | nil => rfl
  | cons c piece ih =>
    have hc : c ≠ sep := fun e => h (e ▸ List.mem_cons_self)
    rw [splitChars, if_neg hc, ih fun hmem => h (List.mem_cons_of_mem c hmem)]

/-- A piece ends at the separator. -/
theorem splitChars_append_cons {piece : List Char} (h : sep ∉ piece) (rest : List Char) :
    splitChars sep (piece ++ sep :: rest) = piece :: splitChars sep rest := by
  induction piece with
  | nil => rw [List.nil_append, splitChars, if_pos rfl]
  | cons c piece ih =>
    have hc : c ≠ sep := fun e => h (e ▸ List.mem_cons_self)
    rw [List.cons_append, splitChars, if_neg hc, ih fun hmem => h (List.mem_cons_of_mem c hmem)]

/-- Pieces that were joined are split again. -/
theorem splitChars_intercalate {pieces : List (List Char)} (hne : pieces ≠ [])
    (h : ∀ piece ∈ pieces, sep ∉ piece) :
    splitChars sep (List.intercalate [sep] pieces) = pieces := by
  induction pieces with
  | nil => exact absurd rfl hne
  | cons piece pieces ih =>
    have hpiece := h piece List.mem_cons_self
    cases pieces with
    | nil => simpa using splitChars_of_not_mem hpiece
    | cons next pieces =>
      have hrest := ih (List.cons_ne_nil next pieces) fun p hp => h p (List.mem_cons_of_mem _ hp)
      rw [List.intercalate_cons_cons, List.append_assoc]
      exact (splitChars_append_cons hpiece _).trans (congrArg (piece :: ·) hrest)

/-- The pieces of a text hold what it holds, but no separator. -/
theorem mem_splitChars {c : Char} {text piece : List Char} (h : piece ∈ splitChars sep text)
    (hc : c ∈ piece) : c ∈ text ∧ c ≠ sep := by
  induction text generalizing piece with
  | nil =>
    rw [splitChars, List.mem_singleton] at h
    exact absurd (h ▸ hc) List.not_mem_nil
  | cons d text ih =>
    rw [splitChars] at h
    split at h
    · obtain rfl | h := List.mem_cons.1 h
      · exact absurd hc List.not_mem_nil
      · obtain ⟨hmem, hne⟩ := ih h hc
        exact ⟨List.mem_cons_of_mem d hmem, hne⟩
    · next hd =>
      split at h
      · rw [List.mem_singleton.1 h, List.mem_singleton] at hc
        exact ⟨hc ▸ List.mem_cons_self, hc ▸ hd⟩
      · next first others hpieces =>
        obtain rfl | h := List.mem_cons.1 h
        · obtain rfl | hc := List.mem_cons.1 hc
          · exact ⟨List.mem_cons_self, hd⟩
          · obtain ⟨hmem, hne⟩ := ih (hpieces ▸ List.mem_cons_self) hc
            exact ⟨List.mem_cons_of_mem d hmem, hne⟩
        · obtain ⟨hmem, hne⟩ := ih (hpieces ▸ List.mem_cons_of_mem first h) hc
          exact ⟨List.mem_cons_of_mem d hmem, hne⟩

theorem splitChars_ne_nil (text : List Char) : splitChars sep text ≠ [] := by
  cases text with
  | nil => exact List.cons_ne_nil _ _
  | cons c text =>
    rw [splitChars]
    split
    · exact List.cons_ne_nil _ _
    · split
      · exact List.cons_ne_nil _ _
      · exact List.cons_ne_nil _ _

/-- The characters of joined pieces are those of the pieces and the separator. -/
theorem mem_intercalate {c : Char} {pieces : List (List Char)}
    (h : c ∈ List.intercalate [sep] pieces) : c = sep ∨ ∃ piece ∈ pieces, c ∈ piece := by
  induction pieces with
  | nil => exact absurd h List.not_mem_nil
  | cons piece pieces ih =>
    cases pieces with
    | nil =>
      rw [List.intercalate_singleton] at h
      exact .inr ⟨piece, List.mem_cons_self, h⟩
    | cons next pieces =>
      rw [List.intercalate_cons_cons, List.mem_append, List.mem_append, List.mem_singleton] at h
      obtain (h | h) | h := h
      · exact .inr ⟨piece, List.mem_cons_self, h⟩
      · exact .inl h
      · obtain h | ⟨p, hp, hc⟩ := ih h
        · exact .inl h
        · exact .inr ⟨p, List.mem_cons_of_mem piece hp, hc⟩

namespace Host

/-! ### Numbers -/

theorem digitValue?_digitChar {radix d : Nat} (hd : d < radix) (hradix : radix ≤ 16) :
    digitValue? radix d.digitChar = some d := by
  have hsmall : ∀ radix ≤ 16, ∀ d < radix, digitValue? radix d.digitChar = some d := by decide
  exact hsmall radix hradix d hd

/-- A written number is read back. -/
theorem number?_toDigits {radix : Nat} (hpos : 1 < radix) (hradix : radix ≤ 16) (n : Nat) :
    number? radix (Nat.toDigits radix n) = some n := by
  induction n using Nat.base_induction radix hpos with
  | single n hn =>
    rw [Nat.toDigits_of_lt_base hn, number?]
    simp [digitValue?_digitChar hn hradix]
  | digit m k hk hm ih =>
    rw [← Nat.toDigits_append_toDigits hpos hm hk, Nat.toDigits_of_lt_base hk, number?,
      List.foldlM_append]
    rw [number?] at ih
    simp [ih, digitValue?_digitChar hk hradix]

/-! ### IPv4 addresses -/

/-- The parts of an address, the highest byte first. -/
def ipv4Parts (address : Nat) : List Nat :=
  [24, 16, 8, 0].map fun shift => (address >>> shift) % 256

theorem toList_ipv4Text (address : Nat) :
    (ipv4Text address).toList =
      List.intercalate ['.'] ((ipv4Parts address).map (Nat.toDigits 10)) := by
  have hdigits : ∀ n : Nat, (toString n).toList = Nat.toDigits 10 n :=
    fun n => String.toList_ofList
  have hmark : ".".toList = ['.'] := rfl
  rw [ipv4Text, String.toList_intercalate, hmark]
  simp only [ipv4Parts, List.map_cons, List.map_nil, hdigits]

/-- A decimal number is a part of an address. -/
theorem ipv4Part?_toDigits (n : Nat) : ipv4Part? (Nat.toDigits 10 n) = some n := by
  have hnumber := number?_toDigits (by decide : 1 < 10) (by decide) n
  have hne : Nat.toDigits 10 n ≠ [] := Nat.toDigits_ne_nil
  by_cases hn : n = 0
  · rw [hn]
    decide
  · have hhead := Digits.head?_toDigits hn
    generalize Nat.toDigits 10 n = digits at *
    unfold ipv4Part?
    split
    · exact absurd rfl hne
    · exact absurd rfl hhead
    · exact absurd rfl hhead
    · exact absurd rfl hhead
    · exact hnumber

/-- The parts of an address make up the address. -/
theorem ipv4OfParts_ipv4Parts {address : Nat} (h : address < UInt32.size) :
    ipv4OfParts (ipv4Parts address) = some address := by
  have hsum : (address >>> 24 % 256) <<< 24 + (address >>> 16 % 256) <<< 16 +
      (address >>> 8 % 256) <<< 8 + address >>> 0 % 256 = address := by
    simp only [Nat.shiftRight_eq_div_pow, Nat.shiftLeft_eq, UInt32.size] at *
    omega
  have hbyte : ∀ shift, address >>> shift % 256 < 256 := fun shift => Nat.mod_lt _ (by decide)
  rw [ipv4Parts]
  simp only [List.map_cons, List.map_nil, ipv4OfParts, hbyte, and_self, if_true, hsum]

theorem not_mem_toDigits {c : Char} (hc : c.isDigit = false) (n : Nat) : c ∉ Nat.toDigits 10 n := by
  intro h
  rw [Digits.isDigit_toDigits n c h] at hc
  contradiction

theorem splitChars_ipv4Text (address : Nat) :
    splitChars '.' (ipv4Text address).toList = (ipv4Parts address).map (Nat.toDigits 10) := by
  rw [toList_ipv4Text]
  refine splitChars_intercalate (List.cons_ne_nil _ _) fun piece hpiece => ?_
  obtain ⟨n, -, rfl⟩ := List.mem_map.1 hpiece
  exact not_mem_toDigits rfl n

theorem labels_ipv4Text (address : Nat) :
    labels (ipv4Text address).toList = (ipv4Parts address).map (Nat.toDigits 10) := by
  have hlast : ((ipv4Parts address).map (Nat.toDigits 10)).getLast? ≠ some [] :=
    fun h => Nat.toDigits_ne_nil (Option.some.inj h)
  rw [labels, splitChars_ipv4Text]
  exact if_neg hlast

theorem endsInNumber_ipv4Text (address : Nat) : endsInNumber (ipv4Text address).toList = true := by
  rw [endsInNumber, labels_ipv4Text]
  have hlast : ((ipv4Parts address).map (Nat.toDigits 10)).getLast? =
    some (Nat.toDigits 10 (address >>> 0 % 256)) := rfl
  simp only [hlast, ipv4Part?_toDigits, Option.isSome_some, Bool.or_true]

theorem ipv4?_ipv4Text {address : Nat} (h : address < UInt32.size) :
    ipv4? (ipv4Text address).toList = some address := by
  have hparts : ((ipv4Parts address).map (Nat.toDigits 10)).mapM ipv4Part? =
      some (ipv4Parts address) := by
    simp [ipv4Parts, ipv4Part?_toDigits]
  rw [ipv4?, labels_ipv4Text, hparts]
  exact ipv4OfParts_ipv4Parts h

/-- What the parts of an address make up is an address. -/
theorem lt_of_ipv4OfParts {parts : List Nat} {address : Nat}
    (h : ipv4OfParts parts = some address) :
    address < UInt32.size := by
  unfold ipv4OfParts at h
  split at h
  · contradiction
  · obtain ⟨hlast, hsum⟩ := Option.ite_none_right_eq_some.1 h
    exact Option.some.inj hsum ▸ hlast
  · obtain ⟨⟨ha, hlast⟩, hsum⟩ := Option.ite_none_right_eq_some.1 h
    have hsum := Option.some.inj hsum
    simp only [Nat.shiftLeft_eq, UInt32.size] at *
    omega
  · obtain ⟨⟨ha, hb, hlast⟩, hsum⟩ := Option.ite_none_right_eq_some.1 h
    have hsum := Option.some.inj hsum
    simp only [Nat.shiftLeft_eq, UInt32.size, UInt16.size] at *
    omega
  · obtain ⟨⟨ha, hb, hc, hlast⟩, hsum⟩ := Option.ite_none_right_eq_some.1 h
    have hsum := Option.some.inj hsum
    simp only [Nat.shiftLeft_eq, UInt32.size] at *
    omega
  · contradiction

/-! ### IPv6 addresses -/

theorem toList_piecesText (pieces : List Nat) :
    (piecesText pieces).toList = List.intercalate [':'] (pieces.map (Nat.toDigits 16)) := by
  have hdigits : ∀ n, (hexText n).toList = Nat.toDigits 16 n := fun n => String.toList_ofList
  have hmark : ":".toList = [':'] := rfl
  rw [piecesText, String.toList_intercalate, hmark, List.map_map]
  exact congrArg _ (List.map_congr_left fun n _ => hdigits n)

theorem mem_toDigits_sixteen {c : Char} {n : Nat} (h : c ∈ Nat.toDigits 16 n) :
    ∃ d < 16, c = d.digitChar := by
  induction n using Nat.base_induction 16 (by decide) with
  | single n hn =>
    rw [Nat.toDigits_of_lt_base hn, List.mem_singleton] at h
    exact ⟨n, hn, h⟩
  | digit m k hk hm ih =>
    rw [← Nat.toDigits_append_toDigits (by decide) hm hk, Nat.toDigits_of_lt_base hk,
      List.mem_append, List.mem_singleton] at h
    obtain h | h := h
    · exact ih h
    · exact ⟨k, hk, h⟩

/-- A hexadecimal digit is none of the marks of an address. -/
theorem digitChar_spec {d : Nat} (h : d < 16) :
    d.digitChar ≠ '.' ∧ d.digitChar ≠ ':' ∧ d.digitChar ≠ '[' ∧ d.digitChar ≠ ']' := by
  revert d
  decide

theorem length_toDigits_sixteen {n : Nat} (h : n < 0x10000) : (Nat.toDigits 16 n).length ≤ 4 :=
  (Nat.length_toDigits_le_iff (by decide) (by decide)).2 h

variable {pieces : List Nat}

/-- The written form of a piece is a group. -/
theorem groupPieces?_toDigits (atEnd : Bool) {n : Nat} (h : n < 0x10000) :
    groupPieces? atEnd (Nat.toDigits 16 n) = some [n] := by
  have hdot : (Nat.toDigits 16 n).contains '.' = false := by
    rw [List.contains_eq_mem, decide_eq_false_iff_not]
    intro hmem
    obtain ⟨d, hd, hc⟩ := mem_toDigits_sixteen hmem
    exact (digitChar_spec hd).1 hc.symm
  have hsize : ¬((Nat.toDigits 16 n).isEmpty ∨ 4 < (Nat.toDigits 16 n).length) := by
    have := length_toDigits_sixteen h
    simp only [List.isEmpty_iff, Nat.toDigits_ne_nil, false_or, Nat.not_lt]
    exact this
  rw [groupPieces?, hdot, if_neg hsize, number?_toDigits (by decide) (by decide)]
  rfl

theorem groupsPieces?_map (atEnd : Bool) (h : ∀ n ∈ pieces, n < 0x10000) :
    groupsPieces? atEnd (pieces.map (Nat.toDigits 16)) = some pieces := by
  induction pieces with
  | nil => rfl
  | cons n pieces ih =>
    have hn := h n List.mem_cons_self
    have hrest := ih fun m hm => h m (List.mem_cons_of_mem n hm)
    cases pieces with
    | nil => exact groupPieces?_toDigits atEnd hn
    | cons m pieces =>
      rw [List.map_cons] at hrest
      rw [List.map_cons, List.map_cons, groupsPieces?, groupPieces?_toDigits false hn, hrest]
      · rfl
      · exact fun h => List.cons_ne_nil _ _ h

theorem not_mem_toDigits_sixteen {c : Char} (hc : ∀ d < 16, d.digitChar ≠ c) (n : Nat) :
    c ∉ Nat.toDigits 16 n := by
  intro h
  obtain ⟨d, hd, e⟩ := mem_toDigits_sixteen h
  exact hc d hd e.symm

/-- Pieces are written with a digit in front. -/
theorem exists_toList_piecesText (n : Nat) (pieces : List Nat) :
    ∃ d cs, d ≠ ':' ∧ (piecesText (n :: pieces)).toList = d :: cs := by
  obtain ⟨d, ds, hdigits⟩ := List.exists_cons_of_ne_nil (Nat.toDigits_ne_nil (b := 16) (n := n))
  have hd : d ≠ ':' := by
    rintro rfl
    exact not_mem_toDigits_sixteen (by decide) n (hdigits ▸ List.mem_cons_self)
  rw [toList_piecesText, List.map_cons]
  cases pieces with
  | nil => exact ⟨d, ds, hd, by rw [List.map_nil, List.intercalate_singleton, hdigits]⟩
  | cons m pieces =>
    rw [List.map_cons, List.intercalate_cons_cons, hdigits]
    exact ⟨d, _, hd, rfl⟩

theorem groups_piecesText (pieces : List Nat) :
    groups (piecesText pieces).toList = pieces.map (Nat.toDigits 16) := by
  cases pieces with
  | nil => rfl
  | cons n pieces =>
    obtain ⟨d, cs, -, hcons⟩ := exists_toList_piecesText n pieces
    have hne : (piecesText (n :: pieces)).toList.isEmpty = false := by rw [hcons]; rfl
    rw [groups, hne, if_neg Bool.false_ne_true, toList_piecesText]
    refine splitChars_intercalate (List.cons_ne_nil _ _) fun piece hpiece => ?_
    obtain ⟨m, -, rfl⟩ := List.mem_map.1 hpiece
    exact not_mem_toDigits_sixteen (by decide) m

/-! The gap of an address is where its written form has two colons in a row. -/

theorem splitAtGap_cons {c d : Char} (h : c ≠ ':' ∨ d ≠ ':') (rest : List Char) :
    splitAtGap (c :: d :: rest) = (splitAtGap (d :: rest)).map fun p => (c :: p.1, p.2) := by
  rw [splitAtGap]
  · rintro rest' hc hrest
    obtain ⟨rfl, -⟩ := List.cons.inj hrest
    obtain h | h := h
    · exact h hc
    · exact h rfl

theorem splitAtGap_append {piece : List Char} (h : ':' ∉ piece) (rest : List Char) :
    splitAtGap (piece ++ rest) = (splitAtGap rest).map fun p => (piece ++ p.1, p.2) := by
  induction piece with
  | nil => simp
  | cons c piece ih =>
    have hc : c ≠ ':' := fun e => h (e ▸ List.mem_cons_self)
    have hrest := ih fun hmem => h (List.mem_cons_of_mem c hmem)
    have hstep : splitAtGap (c :: (piece ++ rest)) =
        (splitAtGap (piece ++ rest)).map fun p => (c :: p.1, p.2) := by
      rw [splitAtGap]
      rintro rest' hc'
      exact absurd hc' hc
    rw [List.cons_append, hstep, hrest, Option.map_map]
    rfl

/-- Written pieces have no gap, so the first gap is behind them. -/
theorem splitAtGap_piecesText (pieces : List Nat) (rest : List Char) :
    splitAtGap ((piecesText pieces).toList ++ rest) =
      (splitAtGap rest).map fun p => ((piecesText pieces).toList ++ p.1, p.2) := by
  induction pieces with
  | nil => simp [piecesText]
  | cons n pieces ih =>
    have hn : ':' ∉ Nat.toDigits 16 n := not_mem_toDigits_sixteen (by decide) n
    cases pieces with
    | nil =>
      rw [toList_piecesText, List.map_singleton, List.intercalate_singleton]
      exact splitAtGap_append hn rest
    | cons m pieces =>
      have hshape : (piecesText (n :: m :: pieces)).toList =
          Nat.toDigits 16 n ++ ':' :: (piecesText (m :: pieces)).toList := by
        rw [toList_piecesText, toList_piecesText, List.map_cons, List.map_cons,
          List.intercalate_cons_cons, List.append_assoc]
        rfl
      obtain ⟨d, cs, hd, hcons⟩ := exists_toList_piecesText m pieces
      have hcolon : splitAtGap (':' :: ((piecesText (m :: pieces)).toList ++ rest)) =
          (splitAtGap ((piecesText (m :: pieces)).toList ++ rest)).map
            fun p => (':' :: p.1, p.2) := by
        rw [hcons]
        exact splitAtGap_cons (.inr hd) _
      rw [hshape, List.append_assoc, splitAtGap_append hn, List.cons_append, hcolon, ih,
        Option.map_map, Option.map_map]
      refine congrArg (Option.map · (splitAtGap rest)) ?_
      funext p
      simp

/-! The longest run of zeros is left out. -/

theorem replicate_append_drop (pieces : List Nat) :
    List.replicate (zerosAtFront pieces) 0 ++ pieces.drop (zerosAtFront pieces) = pieces := by
  induction pieces with
  | nil => rfl
  | cons n pieces ih =>
    by_cases hn : n = 0
    · have hcount : zerosAtFront (n :: pieces) = zerosAtFront pieces + 1 := by
        simp [zerosAtFront, hn]
      rw [hcount, List.replicate_succ, List.drop_succ_cons, List.cons_append, ih, hn]
    · have hcount : zerosAtFront (n :: pieces) = 0 := by simp [zerosAtFront, hn]
      rw [hcount]
      rfl

/-- What is held on to in the end was there at the start, or was taken up on the way. -/
theorem mem_foldl_of_step {α : Type} {step : Option α → α → Option α} {p : α → Prop}
    (hstep : ∀ best run, step best run = best ∨ step best run = some run ∧ p run) (runs : List α)
    (best : Option α) : ∀ run ∈ runs.foldl step best, run ∈ best ∨ run ∈ runs ∧ p run := by
  induction runs generalizing best with
  | nil => exact fun run hrun => .inl hrun
  | cons next runs ih =>
    intro run hrun
    obtain hbest | ⟨hmem, hp⟩ := ih (step best next) run hrun
    · obtain hsame | ⟨htaken, hp⟩ := hstep best next
      · exact .inl (hsame ▸ hbest)
      · rw [htaken] at hbest
        obtain rfl : next = run := Option.some.inj hbest
        exact .inr ⟨List.mem_cons_self, hp⟩
    · exact .inr ⟨List.mem_cons_of_mem next hmem, hp⟩

/-- What is left out is a run of at least two zeros. -/
theorem longestZeros_spec {start length : Nat} (h : longestZeros pieces = some (start, length)) :
    2 ≤ length ∧ start < pieces.length ∧ length = zerosAtFront (pieces.drop start) := by
  rw [longestZeros] at h
  refine (mem_foldl_of_step (p := fun run => 2 ≤ run.2) ?_ _ none _ h).elim ?_ ?_
  · intro best run
    split
    · exact .inl rfl
    · next hsize =>
      have hlong : 2 ≤ run.2 := Nat.le_of_not_lt hsize
      split
      · split
        · exact .inr ⟨rfl, hlong⟩
        · exact .inl rfl
      · exact .inr ⟨rfl, hlong⟩
  · exact fun hnone => absurd hnone (Option.not_mem_none _)
  · rintro ⟨hmem, hsize⟩
    obtain ⟨i, hi, hrun⟩ := List.mem_map.1 hmem
    obtain ⟨rfl, rfl⟩ := Prod.mk.inj hrun
    exact ⟨hsize, List.mem_range.1 hi, rfl⟩

/-- An address is read back. -/
theorem ipv6?_ipv6Text (hlength : pieces.length = 8) (h : ∀ n ∈ pieces, n < 0x10000) :
    ipv6? (ipv6Text pieces).toList = some pieces := by
  rw [ipv6Text]
  split
  · next start length hzeros =>
    obtain ⟨hsize, hstart, hcount⟩ := longestZeros_spec hzeros
    let front := pieces.take start
    let back := pieces.drop (start + length)
    have hparts : front ++ List.replicate length 0 ++ back = pieces := by
      have hrun := replicate_append_drop (pieces.drop start)
      rw [← hcount, List.drop_drop] at hrun
      rw [List.append_assoc, hrun, List.take_append_drop]
    have hsum : front.length + length + back.length = 8 := by
      rw [← hlength, ← hparts]
      simp only [List.length_append, List.length_replicate]
    have hgap : splitAtGap (piecesText front ++ "::" ++ piecesText back).toList =
        some ((piecesText front).toList, (piecesText back).toList) := by
      rw [String.toList_append, String.toList_append, List.append_assoc, splitAtGap_piecesText]
      have hcolons : "::".toList ++ (piecesText back).toList =
        ':' :: ':' :: (piecesText back).toList := rfl
      rw [hcolons, splitAtGap]
      simp
    have hfront : groupsPieces? false (groups (piecesText front).toList) = some front := by
      rw [groups_piecesText]
      exact groupsPieces?_map false fun n hn => h n (List.mem_of_mem_take hn)
    have hback : groupsPieces? true (groups (piecesText back).toList) = some back := by
      rw [groups_piecesText]
      exact groupsPieces?_map true fun n hn => h n (List.mem_of_mem_drop hn)
    have hmissing : 8 - (front.length + back.length) = length := by omega
    have hfew : front.length + back.length ≤ 7 := by omega
    rw [ipv6?, hgap]
    simp only [hfront, hback, Option.bind_eq_bind, Option.bind_some, if_pos hfew, hmissing, hparts]
  · have hgap : splitAtGap (piecesText pieces).toList = none := by
      have hnone := splitAtGap_piecesText pieces []
      rwa [List.append_nil] at hnone
    have hpieces : groupsPieces? true (groups (piecesText pieces).toList) = some pieces := by
      rw [groups_piecesText]
      exact groupsPieces?_map true h
    rw [ipv6?, hgap]
    simp only [hpieces, Option.bind_eq_bind, Option.bind_some, if_pos hlength]

/-! What reading makes of an address is an address. -/

theorem lt_of_digitValue? {radix v : Nat} {c : Char} (h : digitValue? radix c = some v) :
    v < radix := by
  rw [digitValue?] at h
  obtain ⟨hlt, hv⟩ := Option.ite_none_right_eq_some.1 h
  exact Option.some.inj hv ▸ hlt

theorem lt_of_number? {radix n : Nat} {digits : List Char} (h : number? radix digits = some n) :
    n < Nat.pow radix digits.length := by
  have hfrom : ∀ (digits : List Char) (start n : Nat),
      digits.foldlM (fun n c => (digitValue? radix c).map (radix * n + ·)) start = some n →
        n < (start + 1) * radix ^ digits.length := by
    intro digits
    induction digits with
    | nil =>
      intro start n hn
      obtain rfl : start = n := Option.some.inj hn
      simp
    | cons c digits ih =>
      intro start n hn
      rw [List.foldlM_cons] at hn
      obtain ⟨m, hm, hn⟩ := Option.bind_eq_some_iff.1 hn
      obtain ⟨v, hv, rfl⟩ := Option.map_eq_some_iff.1 hm
      have hlt := ih _ n hn
      have hstep : radix * start + v + 1 ≤ (start + 1) * radix := by
        have := lt_of_digitValue? hv
        rw [Nat.add_mul, Nat.mul_comm start]
        omega
      calc n < (radix * start + v + 1) * radix ^ digits.length := hlt
        _ ≤ (start + 1) * radix * radix ^ digits.length := Nat.mul_le_mul_right _ hstep
        _ = (start + 1) * radix ^ (c :: digits).length := by
          rw [List.length_cons, Nat.pow_succ, Nat.mul_assoc, Nat.mul_comm radix]
  have hlt := hfrom digits 0 n h
  rwa [Nat.zero_add, Nat.one_mul] at hlt

theorem le_of_plainByte? {digits : List Char} {n : Nat} (h : plainByte? digits = some n) :
    n ≤ 255 := by
  obtain ⟨m, -, hm⟩ := Option.bind_eq_some_iff.1 h
  obtain ⟨hplain, hm⟩ := Option.ite_none_left_eq_some.1 hm
  obtain rfl : m = n := Option.some.inj hm
  omega

theorem le_of_mapM_plainByte? {parts : List (List Char)} {bytes : List Nat}
    (h : parts.mapM plainByte? = some bytes) : ∀ b ∈ bytes, b ≤ 255 := by
  induction parts generalizing bytes with
  | nil =>
    obtain rfl : [] = bytes := Option.some.inj h
    simp
  | cons part parts ih =>
    rw [List.mapM_cons] at h
    obtain ⟨byte, hbyte, h⟩ := Option.bind_eq_some_iff.1 h
    obtain ⟨rest, hrest, h⟩ := Option.bind_eq_some_iff.1 h
    obtain rfl : byte :: rest = bytes := Option.some.inj h
    exact List.forall_mem_cons.2 ⟨le_of_plainByte? hbyte, ih hrest⟩

theorem lt_of_groupPieces? {atEnd : Bool} {group : List Char}
    (h : groupPieces? atEnd group = some pieces) : ∀ n ∈ pieces, n < 0x10000 := by
  rw [groupPieces?] at h
  split at h
  · split at h
    · contradiction
    · obtain ⟨bytes, hbytes, hpieces⟩ := Option.bind_eq_some_iff.1 h
      split at hpieces
      · next a b c d =>
        have hle := le_of_mapM_plainByte? hbytes
        obtain rfl : [a * 256 + b, c * 256 + d] = pieces := Option.some.inj hpieces
        simp only [List.forall_mem_cons] at hle ⊢
        obtain ⟨ha, hb, hc, hd, -⟩ := hle
        exact ⟨by omega, by omega, List.forall_mem_nil _⟩
      · contradiction
  · obtain ⟨hsize, hpieces⟩ := Option.ite_none_left_eq_some.1 h
    obtain ⟨n, hn, rfl⟩ := Option.map_eq_some_iff.1 hpieces
    have hlt := lt_of_number? hn
    have hpow : 16 ^ group.length ≤ 16 ^ 4 := Nat.pow_le_pow_right (by decide) (by omega)
    intro m hm
    rw [List.mem_singleton.1 hm]
    exact Nat.lt_of_lt_of_le hlt hpow

theorem lt_of_groupsPieces? {atEnd : Bool} {groups : List (List Char)}
    (h : groupsPieces? atEnd groups = some pieces) : ∀ n ∈ pieces, n < 0x10000 := by
  induction groups generalizing pieces with
  | nil =>
    obtain rfl : [] = pieces := Option.some.inj h
    simp
  | cons group groups ih =>
    cases groups with
    | nil => exact lt_of_groupPieces? h
    | cons next groups =>
      obtain ⟨front, hfront, h⟩ := Option.bind_eq_some_iff.1 h
      obtain ⟨back, hback, h⟩ := Option.bind_eq_some_iff.1 h
      obtain rfl : front ++ back = pieces := Option.some.inj h
      intro n hn
      obtain hn | hn := List.mem_append.1 hn
      · exact lt_of_groupPieces? hfront n hn
      · exact ih hback n hn

/-- What is read as an address consists of eight pieces of 16 bits. -/
theorem ipv6?_spec {text : List Char} (h : ipv6? text = some pieces) :
    pieces.length = 8 ∧ ∀ n ∈ pieces, n < 0x10000 := by
  rw [ipv6?] at h
  split at h
  · obtain ⟨front, hfront, h⟩ := Option.bind_eq_some_iff.1 h
    obtain ⟨back, hback, h⟩ := Option.bind_eq_some_iff.1 h
    obtain ⟨hcount, hpieces⟩ := Option.ite_none_right_eq_some.1 h
    rw [← Option.some.inj hpieces]
    refine ⟨?_, fun n hn => ?_⟩
    · simp only [List.length_append, List.length_replicate]
      omega
    · obtain hn | hn := List.mem_append.1 hn
      · obtain hn | hn := List.mem_append.1 hn
        · exact lt_of_groupsPieces? hfront n hn
        · rw [List.eq_of_mem_replicate hn]
          decide
      · exact lt_of_groupsPieces? hback n hn
  · obtain ⟨found, hfound, h⟩ := Option.bind_eq_some_iff.1 h
    obtain ⟨hlength, hpieces⟩ := Option.ite_none_right_eq_some.1 h
    rw [← Option.some.inj hpieces]
    exact ⟨hlength, lt_of_groupsPieces? hfound⟩

/-! ### Names -/

/-- What a name is like behind all that reading does to it. -/
structure IsName (name : List Char) : Prop where
  chars : ∀ c ∈ name, ¬(0x7F < c.toNat ∨ isForbiddenInName c) ∧ c.toLower = c
  labels : (splitChars '.' name).any isBrokenLabel = false
  nonempty : name ≠ []

theorem decode_of_not_mem {bs : Bytes} (h : 0x25 ∉ bs) : Percent.decode bs = bs := by
  induction bs with
  | nil => rfl
  | cons b bs ih =>
    have hb : b ≠ 0x25 := fun e => h (e ▸ List.mem_cons_self)
    rw [Percent.decode_cons hb, ih fun hmem => h (List.mem_cons_of_mem b hmem)]

/-- The characters that count of a name: escapes are resolved and letters folded. -/
def fold (text : List Char) : List Char :=
  (Percent.decode (Utf8.encode (String.ofList text))).map fun b => (Char.ofNat b.toNat).toLower

/-- Whether a folded text is refused as a name. -/
def isRefused (name : List Char) : Bool :=
  name.any (fun c => 0x7F < c.toNat || isForbiddenInName c) ||
    (splitChars '.' name).any isBrokenLabel

/-- The host that a folded text names. -/
def ofFolded (name : List Char) : Except ParseError Host :=
  if isRefused name then .error .invalidDomain
  else if name.isEmpty then .error .emptyHost
  else if endsInNumber name then
    match ipv4? name with
    | some address => .ok (.ipv4 address)
    | none => .error .invalidIpv4
  else .ok (.domain (String.ofList name))

/-- Without brackets, only the folded text counts. -/
theorem ofSpecial_eq_ofFolded {text : List Char} (h : text.head? ≠ some '[') :
    ofSpecial text = ofFolded (fold text) := by
  rw [ofSpecial, if_neg h, ofFolded, isRefused]
  simp only [← fold.eq_1]
  split
  · rfl
  · split
    · rfl
    · split
      · cases ipv4? (fold text) <;> rfl
      · rfl

/-- Folding changes nothing in a name. -/
theorem fold_of_isName {name : List Char} (h : IsName name) : fold name = name := by
  have hplain : ∀ c ∈ name, c.toNat < 0x80 ∧ c ≠ '%' := by
    intro c hc
    have hnot := (h.chars c hc).1
    rw [not_or] at hnot
    refine ⟨by omega, ?_⟩
    rintro rfl
    exact hnot.2 (by decide)
  have hpercent : 0x25 ∉ name.map fun c => UInt8.ofNat c.toNat := by
    intro hmem
    obtain ⟨c, hc, e⟩ := List.mem_map.1 hmem
    have hchar := Utf8.ofNat_toNat_ofNat (hplain c hc).1
    rw [e] at hchar
    exact (hplain c hc).2 hchar.symm
  rw [fold, Utf8.encode_ofList_of_lt fun c hc => (hplain c hc).1, decode_of_not_mem hpercent,
    List.map_map]
  refine (List.map_congr_left fun c hc => ?_).trans (List.map_id name)
  rw [Function.comp_apply, Utf8.ofNat_toNat_ofNat (hplain c hc).1, (h.chars c hc).2]
  rfl

theorem isRefused_eq_false {name : List Char} : isRefused name = false ↔
    (∀ c ∈ name, ¬(0x7F < c.toNat ∨ isForbiddenInName c)) ∧
      (splitChars '.' name).any isBrokenLabel = false := by
  rw [isRefused, Bool.or_eq_false_iff, List.any_eq_false]
  simp only [Bool.or_eq_true, decide_eq_true_eq]

/-- A name is read as the host that it names. -/
theorem ofSpecial_of_isName {name : List Char} (h : IsName name) :
    ofSpecial name = ofFolded name := by
  have hbracket : name.head? ≠ some '[' := fun hhead =>
    (h.chars '[' (List.mem_of_mem_head? hhead)).1 (.inr (by decide))
  rw [ofSpecial_eq_ofFolded hbracket, fold_of_isName h]

theorem toLower_of_mem_fold {text : List Char} {c : Char} (h : c ∈ fold text) : c.toLower = c := by
  have hbyte : ∀ n < 256, (Char.ofNat n).toLower.toLower = (Char.ofNat n).toLower := by
    decide +kernel
  obtain ⟨b, -, rfl⟩ := List.mem_map.1 h
  exact hbyte b.toNat b.toNat_lt

/-! ### Hosts -/

/-- What a host is like that was read. -/
def Canonical : Host → Prop
  | .domain name => IsName name.toList ∧ endsInNumber name.toList = false
  | .ipv4 address => address < UInt32.size
  | .ipv6 pieces => pieces.length = 8 ∧ ∀ n ∈ pieces, n < 0x10000

theorem canonical_of_bracketed {text : List Char} {host : Host} (h : bracketed text = .ok host) :
    host.Canonical := by
  rw [bracketed] at h
  split at h
  · split at h
    · next pieces hpieces =>
      obtain rfl : Host.ipv6 pieces = host := Except.ok.inj h
      exact ipv6?_spec hpieces
    · contradiction
  · contradiction

/-- What is read is canonical. -/
theorem canonical_of_ofSpecial {text : List Char} {host : Host} (h : ofSpecial text = .ok host) :
    host.Canonical := by
  by_cases hbracket : text.head? = some '['
  · rw [ofSpecial, if_pos hbracket] at h
    exact canonical_of_bracketed h
  · rw [ofSpecial_eq_ofFolded hbracket, ofFolded] at h
    by_cases hrefused : isRefused (fold text) = true
    · rw [if_pos hrefused] at h
      contradiction
    by_cases hempty : (fold text).isEmpty = true
    · rw [if_neg hrefused, if_pos hempty] at h
      contradiction
    obtain ⟨hchars, hlabels⟩ := isRefused_eq_false.1 (Bool.eq_false_iff.2 hrefused)
    rw [if_neg hrefused, if_neg hempty] at h
    split at h
    · split at h
      · next address haddress =>
        obtain rfl : Host.ipv4 address = host := Except.ok.inj h
        obtain ⟨parts, -, hparts⟩ := Option.bind_eq_some_iff.1 haddress
        exact lt_of_ipv4OfParts hparts
      · contradiction
    · next hnumber =>
      obtain rfl : Host.domain (String.ofList (fold text)) = host := Except.ok.inj h
      rw [Canonical, String.toList_ofList]
      refine ⟨⟨fun c hc => ⟨hchars c hc, toLower_of_mem_fold hc⟩, hlabels, ?_⟩,
        Bool.eq_false_iff.2 hnumber⟩
      rintro hnil
      rw [hnil] at hempty
      exact hempty rfl

theorem mem_ipv4Text {address : Nat} {c : Char} (h : c ∈ (ipv4Text address).toList) :
    c = '.' ∨ c.isDigit := by
  rw [toList_ipv4Text] at h
  obtain h | ⟨piece, hpiece, hc⟩ := mem_intercalate h
  · exact .inl h
  · obtain ⟨n, -, rfl⟩ := List.mem_map.1 hpiece
    exact .inr (Digits.isDigit_toDigits n c hc)

theorem isBrokenLabel_toDigits (n : Nat) : isBrokenLabel (Nat.toDigits 10 n) = false := by
  have hx : 'x' ∉ Nat.toDigits 10 n := not_mem_toDigits rfl n
  generalize Nat.toDigits 10 n = label at hx
  unfold isBrokenLabel
  split
  · exact absurd List.mem_cons_self hx
  · rfl

/-- A written IPv4 address is a name like any other. -/
theorem isName_ipv4Text (address : Nat) : IsName (ipv4Text address).toList where
  chars c hc := by
    have hdigit : ∀ n < 58, 48 ≤ n →
        ¬(0x7F < (Char.ofNat n).toNat ∨ isForbiddenInName (Char.ofNat n)) ∧
        (Char.ofNat n).toLower = Char.ofNat n := by
      decide
    obtain rfl | h := mem_ipv4Text hc
    · decide
    · obtain ⟨hlow, hhigh⟩ := Digits.toNat_of_isDigit h
      have hspec := hdigit c.toNat (by omega) hlow
      rwa [Char.ofNat_toNat] at hspec
  labels := by
    rw [splitChars_ipv4Text, List.any_eq_false]
    intro label hlabel
    obtain ⟨n, -, rfl⟩ := List.mem_map.1 hlabel
    rw [isBrokenLabel_toDigits]
    exact Bool.false_ne_true
  nonempty hnil := by
    have hparts := splitChars_ipv4Text address
    rw [hnil] at hparts
    have hlength : 1 = 4 := congrArg List.length hparts
    exact absurd hlength (by decide)

/-- A host that was read is read back from its written form. -/
theorem ofSpecial_toText {host : Host} (h : host.Canonical) :
    ofSpecial host.toText.toList = .ok host := by
  have hfolded : ∀ {name : List Char}, IsName name → ofSpecial name = if endsInNumber name then
      match ipv4? name with
      | some address => .ok (.ipv4 address)
      | none => .error .invalidIpv4
    else .ok (.domain (String.ofList name)) := by
    intro name hname
    have hrefused : isRefused name = false :=
      isRefused_eq_false.2 ⟨fun c hc => (hname.chars c hc).1, hname.labels⟩
    have hne : name.isEmpty = false := List.isEmpty_eq_false_iff.2 hname.nonempty
    rw [ofSpecial_of_isName hname, ofFolded, hrefused, hne]
    rfl
  cases host with
  | domain name =>
    obtain ⟨hname, hnumber⟩ := h
    rw [toText, hfolded hname, hnumber, String.ofList_toList]
    rfl
  | ipv4 address =>
    rw [toText, hfolded (isName_ipv4Text address), endsInNumber_ipv4Text, ipv4?_ipv4Text h]
    rfl
  | ipv6 pieces =>
    have htext : (toText (.ipv6 pieces)).toList = '[' :: ((ipv6Text pieces).toList ++ [']']) := by
      rw [toText, String.toList_append, String.toList_append]
      rfl
    have hinner : (('[' :: ((ipv6Text pieces).toList ++ [']'])).drop 1).dropLast =
        (ipv6Text pieces).toList := by
      rw [List.drop_one, List.tail_cons, List.dropLast_concat]
    have hlast : ('[' :: ((ipv6Text pieces).toList ++ [']'])).getLast? = some ']' := by
      rw [← List.cons_append, List.getLast?_concat]
    rw [htext, ofSpecial, if_pos List.head?_cons, bracketed, if_pos hlast, hinner,
      ipv6?_ipv6Text h.1 h.2]

/-! What a written host holds. -/

theorem ne_of_isName {name : List Char} (h : IsName name) {c : Char} (hc : c ∈ name) {x : Char}
    (hx : isForbiddenInName x) : c ≠ x := by
  rintro rfl
  exact (h.chars c hc).1 (.inr hx)

theorem graphic_of_isName {name : List Char} (h : IsName name) {c : Char} (hc : c ∈ name) :
    0x20 < c.toNat ∧ c.toNat < 0x7F := by
  obtain ⟨hhigh, hforbidden⟩ := not_or.1 (h.chars c hc).1
  have hspace : c.toNat ≠ 0x20 := fun e =>
    ne_of_isName h hc (by decide) (Char.toNat_inj.1 e : c = ' ')
  simp only [isForbiddenInName, Bool.or_eq_true, decide_eq_true_eq, not_or] at hforbidden
  omega

theorem mem_ipv6Text {c : Char} (h : c ∈ (ipv6Text pieces).toList) :
    c = ':' ∨ ∃ d < 16, c = d.digitChar := by
  have hpieces : ∀ {pieces : List Nat}, c ∈ (piecesText pieces).toList →
      c = ':' ∨ ∃ d < 16, c = d.digitChar := by
    intro pieces hc
    rw [toList_piecesText] at hc
    obtain rfl | ⟨piece, hpiece, hc⟩ := mem_intercalate hc
    · exact .inl rfl
    · obtain ⟨n, -, rfl⟩ := List.mem_map.1 hpiece
      exact .inr (mem_toDigits_sixteen hc)
  rw [ipv6Text] at h
  split at h
  · rw [String.toList_append, String.toList_append, List.mem_append, List.mem_append] at h
    obtain (h | h) | h := h
    · exact hpieces h
    · have hcolons : ∀ c ∈ "::".toList, c = ':' := List.all_iff_forall_prop.1 (by decide)
      exact .inl (hcolons c h)
    · exact hpieces h
  · exact hpieces h

theorem mem_toText_ipv6 {c : Char} (h : c ∈ (toText (.ipv6 pieces)).toList) :
    c = '[' ∨ c = ']' ∨ c = ':' ∨ ∃ d < 16, c = d.digitChar := by
  rw [toText, String.toList_append, String.toList_append, List.mem_append, List.mem_append] at h
  obtain (h | h) | h := h
  · exact .inl (List.mem_singleton.1 h)
  · exact .inr (.inr (mem_ipv6Text h))
  · exact .inr (.inl (List.mem_singleton.1 h))

/-- The written form of a host neither ends the place of a URL nor holds the mark of a user. -/
theorem mem_toText {host : Host} (h : host.Canonical) {c : Char} (hc : c ∈ host.toText.toList) :
    (0x20 < c.toNat ∧ c.toNat < 0x7F) ∧ c ∉ ['/', '\\', '?', '#', '@'] := by
  have hname : ∀ {name : List Char}, IsName name → c ∈ name →
      (0x20 < c.toNat ∧ c.toNat < 0x7F) ∧ c ∉ ['/', '\\', '?', '#', '@'] := by
    intro name hname hc
    have hmarks : ∀ x ∈ ['/', '\\', '?', '#', '@'], isForbiddenInName x :=
      List.all_iff_forall_prop.1 (by decide)
    exact ⟨graphic_of_isName hname hc, fun hmem => ne_of_isName hname hc (hmarks c hmem) rfl⟩
  cases host with
  | domain name => exact hname h.1 hc
  | ipv4 address => exact hname (isName_ipv4Text address) hc
  | ipv6 pieces =>
    have hdigit : ∀ d < 16, (0x20 < d.digitChar.toNat ∧ d.digitChar.toNat < 0x7F) ∧
        d.digitChar ∉ ['/', '\\', '?', '#', '@'] := by
      decide
    obtain rfl | rfl | rfl | ⟨d, hd, rfl⟩ := mem_toText_ipv6 hc
    · decide
    · decide
    · decide
    · exact hdigit d hd

theorem toText_ne_nil {host : Host} (h : host.Canonical) : host.toText.toList ≠ [] := by
  cases host with
  | domain name => exact h.1.nonempty
  | ipv4 address => exact (isName_ipv4Text address).nonempty
  | ipv6 pieces =>
    rw [toText, String.toList_append, String.toList_append]
    exact List.cons_ne_nil _ _

end Host

end SignIn.Url
