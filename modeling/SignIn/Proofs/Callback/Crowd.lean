import Mathlib.Data.List.Basic
import SignIn.Callback.Schedule
import SignIn.Proofs.Callback.Calls

/-!
# Callbacks that take turns

Callbacks that come in at the same time are handled over the same parties. Each of them is suspended
while it waits for an answer, and which one goes on next is not for them to decide. Here a schedule
is any list of turns: at its turn a callback does its next thing, and the others wait. How long an
answer takes is then a matter of the schedule.

What `Callback.handleAll` does is one of these schedules, the one in which the callback goes on
whose answer is there first. It is found by running both side by side: the callbacks that wait in
the one are those that are suspended in the other, except for those that have not come in yet or
are just going on.

## Main definitions

* `Callback.Crowd` — callbacks that are handled at the same time
* `Callback.Crowd.turn`, `Callback.Crowd.interleave` — one turn, and a list of turns
* `Callback.Crowd.Tallied` — the outcomes are those of the finished callbacks
* `Callback.Schedule.Matches` — a schedule and a crowd tell of the same callbacks

## Main results

* `Callback.Crowd.tallied_interleave` — no turn loses an outcome or makes one up
* `Callback.Crowd.isSettled_of_count` — three turns are enough for a callback
* `Callback.handleAll_eq` — handling callbacks at the same time is a list of turns that leaves no
  callback behind
-/

namespace SignIn.Callback

variable {σ : Type}

/-- Callbacks that are handled at the same time. -/
structure Crowd (σ : Type) where
  /-- Those that came in, one after the other. One that waits for an answer that never comes is
  nothing any more. -/
  runs : List (Option Run)
  /-- The outcomes so far, each with the place of its callback, the oldest first. -/
  finished : List (Nat × Outcome)
  world : σ

namespace Crowd

/-- Callbacks that have just come in. -/
def enter (callbacks : List Params) (s : σ) : Crowd σ where
  runs := callbacks.map fun p => some (.start p)
  finished := []
  world := s

theorem getElem?_enter (callbacks : List Params) (s : σ) (i : Nat) :
    (enter callbacks s).runs[i]? = callbacks[i]?.map fun p => some (.start p) :=
  List.getElem?_map

/-- One callback does its next thing, if it has anything to do. -/
def turn (parties : Parties σ) (c : Crowd σ) (i : Nat) : Crowd σ :=
  match c.runs[i]? with
  | some (some (.suspended p progress)) =>
    let (world, next) := (Run.suspended p progress).resume parties c.world
    { runs := c.runs.set i next.value?
      finished := c.finished ++ ((next.value?.bind Run.outcome?).map (i, ·)).toList
      world }
  | _ => c

/-- The callbacks take turns. -/
def interleave (parties : Parties σ) (turns : List Nat) (c : Crowd σ) : Crowd σ :=
  turns.foldl (turn parties) c

/-- The most steps that the callback at a place can still take. -/
def stepsLeft (c : Crowd σ) (i : Nat) : Nat :=
  match c.runs[i]? with
  | some (some run) => run.stepsLeft
  | _ => 0

variable {parties : Parties σ} {c : Crowd σ} {i : Nat}

theorem turn_of_suspended {p : Params} {progress : Progress} {world : σ} {next : Delayed Run}
    (hrun : c.runs[i]? = some (some (.suspended p progress)))
    (hstep : (Run.suspended p progress).resume parties c.world = (world, next)) :
    c.turn parties i =
      ⟨c.runs.set i next.value?,
        c.finished ++ ((next.value?.bind Run.outcome?).map (i, ·)).toList, world⟩ := by
  rw [turn, hrun]
  simp only [hstep]

/-- A callback that waits for nothing lets its turn pass. -/
theorem turn_of_forall_ne (h : ∀ p progress, c.runs[i]? ≠ some (some (.suspended p progress))) :
    c.turn parties i = c := by
  rw [turn]
  split
  · next hrun => exact absurd hrun (h _ _)
  · rfl

theorem runs_turn_self {p : Params} {progress : Progress} {world : σ} {next : Delayed Run}
    (hrun : c.runs[i]? = some (some (.suspended p progress)))
    (hstep : (Run.suspended p progress).resume parties c.world = (world, next)) :
    (c.turn parties i).runs[i]? = some next.value? := by
  obtain ⟨hi, -⟩ := List.getElem?_eq_some_iff.1 hrun
  rw [turn_of_suspended hrun hstep]
  exact List.getElem?_set_self hi

theorem runs_turn_of_ne {j : Nat} (h : j ≠ i) : (c.turn parties i).runs[j]? = c.runs[j]? := by
  rw [turn]
  split
  · exact List.getElem?_set_ne h.symm
  · rfl

theorem interleave_singleton (parties : Parties σ) (i : Nat) (c : Crowd σ) :
    c.interleave parties [i] = c.turn parties i := rfl

theorem interleave_append (turns turns' : List Nat) :
    c.interleave parties (turns ++ turns') =
      (c.interleave parties turns).interleave parties turns' :=
  List.foldl_append

/-- The callbacks without the record. -/
def unrecorded (c : Crowd (Recorded σ)) : Crowd σ := ⟨c.runs, c.finished, c.world.world⟩

/-- The record changes nothing about the turns. -/
theorem interleave_recorded (parties : Parties σ) (turns : List Nat) (c : Crowd (Recorded σ)) :
    c.unrecorded.interleave parties turns = (c.interleave parties.recorded turns).unrecorded := by
  induction turns generalizing c with
  | nil => rfl
  | cons i turns ih =>
    have hturn : c.unrecorded.turn parties i = (c.turn parties.recorded i).unrecorded := by
      simp only [turn, unrecorded]
      split
      · rw [Run.resume_recorded]
      · rfl
    rw [interleave, List.foldl_cons, hturn]
    exact ih _

/-- No callback has anything to do any more. -/
def IsSettled (c : Crowd σ) : Prop :=
  ∀ (i : Nat) p progress, c.runs[i]? ≠ some (some (.suspended p progress))

/-! ### Who is finished -/

/-- The outcomes so far are those of the callbacks that are finished, once for each. -/
structure Tallied (c : Crowd σ) : Prop where
  finished : ∀ (i : Nat) outcome,
    (i, outcome) ∈ c.finished ↔ c.runs[i]? = some (some (.finished outcome))
  nodup : (c.finished.map Prod.fst).Nodup

theorem tallied_enter (callbacks : List Params) (s : σ) : (enter callbacks s).Tallied where
  finished := by
    intro i outcome
    rw [getElem?_enter]
    constructor
    · intro hmem
      cases hmem
    · intro hrun
      obtain ⟨p, -, hstart⟩ := Option.map_eq_some_iff.1 hrun
      cases hstart
  nodup := List.nodup_nil

theorem mem_newlyFinished {run : Option Run} {j : Nat} {outcome : Outcome} :
    (j, outcome) ∈ ((run.bind Run.outcome?).map (i, ·)).toList ↔
      j = i ∧ run = some (.finished outcome) := by
  rcases run with _ | ⟨_ | final⟩
  · simp
  · simp [Run.outcome?]
  · simp [Run.outcome?, eq_comm]

theorem Tallied.turn (h : c.Tallied) (parties : Parties σ) (i : Nat) :
    (c.turn parties i).Tallied := by
  by_cases hwaits : ∃ p progress, c.runs[i]? = some (some (.suspended p progress))
  · obtain ⟨p, progress, hrun⟩ := hwaits
    obtain ⟨⟨world, next⟩, hstep⟩ :
      ∃ x, (Run.suspended p progress).resume parties c.world = x := ⟨_, rfl⟩
    have hself := runs_turn_self hrun hstep
    have hunfinished : ∀ outcome, (i, outcome) ∉ c.finished := by
      intro outcome hmem
      cases hrun.symm.trans ((h.finished i outcome).1 hmem)
    have hfinished : (c.turn parties i).finished =
        c.finished ++ ((next.value?.bind Run.outcome?).map (i, ·)).toList := by
      rw [turn_of_suspended hrun hstep]
    generalize next.value? = run at hself hfinished
    constructor
    · intro j outcome
      rw [hfinished, List.mem_append, mem_newlyFinished]
      by_cases hij : j = i
      · subst hij
        rw [hself]
        simp [hunfinished]
      · rw [runs_turn_of_ne hij, ← h.finished]
        simp [hij]
    · rw [hfinished, List.map_append]
      cases run.bind Run.outcome? with
      | none => simpa using h.nodup
      | some outcome =>
        have hnew : i ∉ c.finished.map Prod.fst := by
          intro hmem
          obtain ⟨⟨j, outcome⟩, hfirst, rfl⟩ := List.mem_map.1 hmem
          exact hunfinished outcome hfirst
        exact (List.perm_append_singleton i _).nodup_iff.2 (List.nodup_cons.2 ⟨hnew, h.nodup⟩)
  · rw [turn_of_forall_ne fun p progress hrun => hwaits ⟨p, progress, hrun⟩]
    exact h

/-- Whatever turns callbacks take, the outcomes are those of the finished ones. -/
theorem tallied_interleave (callbacks : List Params) (s : σ) (parties : Parties σ)
    (turns : List Nat) : ((enter callbacks s).interleave parties turns).Tallied := by
  have hall : ∀ c : Crowd σ, c.Tallied → (c.interleave parties turns).Tallied := by
    induction turns with
    | nil => exact fun c h => h
    | cons i turns ih => exact fun c h => ih _ (h.turn parties i)
  exact hall _ (tallied_enter callbacks s)

theorem lookup_of_mem {l : List (Nat × Outcome)} {outcome : Outcome}
    (h : (l.map Prod.fst).Nodup) (hmem : (i, outcome) ∈ l) : l.lookup i = some outcome := by
  induction l with
  | nil => cases hmem
  | cons x l ih =>
    obtain ⟨hfirst, hrest⟩ := List.nodup_cons.1 h
    obtain rfl | hlater := List.mem_cons.1 hmem
    · exact List.lookup_cons_self
    · have hne : i ≠ x.1 := by
        rintro rfl
        exact hfirst (List.mem_map.2 ⟨_, hlater, rfl⟩)
      rw [List.lookup_cons, beq_false_of_ne hne]
      exact ih hrest hlater

/-- What is found among the outcomes is what the callback came to. -/
theorem Tallied.lookup_eq (h : c.Tallied) {run : Option Run} (hrun : c.runs[i]? = some run) :
    c.finished.lookup i = run.bind Run.outcome? := by
  cases houtcome : run.bind Run.outcome? with
  | none =>
    refine List.lookup_eq_none_iff.2 fun x hx => ?_
    rw [bne_iff_ne]
    rintro rfl
    have hfinished := (h.finished x.1 x.2).1 hx
    obtain rfl := Option.some.inj (hrun.symm.trans hfinished)
    cases houtcome
  | some outcome =>
    refine lookup_of_mem h.nodup ((h.finished i outcome).2 ?_)
    rcases run with _ | ⟨_ | final⟩
    · cases houtcome
    · cases houtcome
    · obtain rfl := Option.some.inj houtcome
      exact hrun

/-! ### Three turns are enough -/

theorem stepsLeft_of_forall_ne
    (h : ∀ p progress, c.runs[i]? ≠ some (some (.suspended p progress))) : c.stepsLeft i = 0 := by
  rw [stepsLeft]
  split
  · next run hrun =>
    cases run with
    | suspended p progress => exact absurd hrun (h p progress)
    | finished outcome => rfl
  · rfl

/-- At its turn a callback gets on, unless it has nothing more to do. -/
theorem stepsLeft_turn_self (parties : Parties σ) (c : Crowd σ) (i : Nat) :
    (c.turn parties i).stepsLeft i ≤ c.stepsLeft i - 1 := by
  by_cases hwaits : ∃ p progress, c.runs[i]? = some (some (.suspended p progress))
  · obtain ⟨p, progress, hrun⟩ := hwaits
    obtain ⟨⟨world, next⟩, hstep⟩ :
      ∃ x, (Run.suspended p progress).resume parties c.world = x := ⟨_, rfl⟩
    simp only [stepsLeft, runs_turn_self hrun hstep, hrun]
    cases next with
    | never => exact Nat.zero_le _
    | after delay next => exact Nat.le_sub_one_of_lt (Run.stepsLeft_resume hstep)
  · have hidle : ∀ p progress, c.runs[i]? ≠ some (some (.suspended p progress)) :=
      fun p progress hrun => hwaits ⟨p, progress, hrun⟩
    simp [turn_of_forall_ne hidle, stepsLeft_of_forall_ne hidle]

/-- The others stay where they are. -/
theorem stepsLeft_turn_of_ne {j : Nat} (h : j ≠ i) :
    (c.turn parties i).stepsLeft j = c.stepsLeft j := by
  rw [stepsLeft, runs_turn_of_ne h]
  rfl

theorem stepsLeft_interleave (parties : Parties σ) (turns : List Nat) (c : Crowd σ) (i : Nat) :
    (c.interleave parties turns).stepsLeft i ≤ c.stepsLeft i - turns.count i := by
  induction turns generalizing c with
  | nil => exact Nat.le_refl _
  | cons j turns ih =>
    have hrest := ih (c.turn parties j)
    rw [interleave, List.foldl_cons, List.count_cons]
    refine Nat.le_trans hrest ?_
    by_cases hij : i = j
    · subst hij
      have hturn := stepsLeft_turn_self parties c i
      simp only [beq_self_eq_true, if_true]
      omega
    · simp [stepsLeft_turn_of_ne hij, Ne.symm hij]

/-- If every callback has three turns, each is finished or waits for ever. -/
theorem isSettled_of_count {callbacks : List Params} {turns : List Nat}
    (h : ∀ i < callbacks.length, 3 ≤ turns.count i) (parties : Parties σ) (s : σ) :
    ((enter callbacks s).interleave parties turns).IsSettled := by
  intro i p progress hrun
  have hleft := stepsLeft_interleave parties turns (enter callbacks s) i
  have hpos : 0 < ((enter callbacks s).interleave parties turns).stepsLeft i := by
    rw [stepsLeft, hrun]
    exact Run.stepsLeft_pos p progress
  have hturns : (enter callbacks s).stepsLeft i ≤ turns.count i := by
    rw [stepsLeft]
    split
    · next run hstart =>
      obtain ⟨hi, -⟩ := List.getElem?_eq_some_iff.1 hstart
      have hthree := h i (by simpa [enter] using hi)
      exact Nat.le_trans run.stepsLeft_le hthree
    · exact Nat.zero_le _
  omega

end Crowd

/-! ### What is done by itself is a list of turns -/

/-- A callback that has to wait is not finished. -/
theorem Run.suspended_of_wait {parties : Parties σ} {p : Params} {progress : Progress} {s s' : σ}
    {delay : Nat} {next : Run}
    (h : (suspended p progress).resume parties s = (s', .after (delay + 1) next)) :
    ∃ progress', next = .suspended p progress' := by
  cases progress with
  | exchange code =>
    obtain ⟨answer, -, rfl⟩ := Delayed.of_map_eq_after (Prod.mk.inj h).2
    exact ⟨_, rfl⟩
  | verify token =>
    obtain ⟨answer, -, rfl⟩ := Delayed.of_map_eq_after (Prod.mk.inj h).2
    exact ⟨_, rfl⟩
  | announce verdict =>
    obtain ⟨hdelay, -⟩ := Delayed.after.inj (Prod.mk.inj h).2
    exact absurd hdelay (Nat.succ_ne_zero delay).symm

namespace Schedule

section GoOn

variable {parties : Parties σ} {i now steps : Nat} {p : Params} {progress : Progress} {next : Run}
  {q : Schedule} {s s' : σ}

theorem goOn_finished (parties : Parties σ) (i now steps : Nat) (outcome : Outcome) (q : Schedule)
    (s : σ) : goOn parties i now steps (.finished outcome) q s =
      ({ q with finished := q.finished ++ [(i, outcome)] }, s) := by
  cases steps <;> rfl

theorem goOn_of_never (h : (Run.suspended p progress).resume parties s = (s', .never)) :
    goOn parties i now (steps + 1) (.suspended p progress) q s = (q, s') := by
  simp only [goOn, h]

theorem goOn_of_now (h : (Run.suspended p progress).resume parties s = (s', .after 0 next)) :
    goOn parties i now (steps + 1) (.suspended p progress) q s =
      goOn parties i now steps next q s' := by
  simp only [goOn, h]

theorem goOn_of_wait {delay : Nat}
    (h : (Run.suspended p progress).resume parties s = (s', .after (delay + 1) next)) :
    goOn parties i now (steps + 1) (.suspended p progress) q s =
      ({ q with waiting := q.waiting ++ [⟨i, now + (delay + 1), next⟩] }, s') := by
  simp only [goOn, h]

end GoOn

/-- The most steps that callbacks that wait can still take. -/
def stepsLeft (ws : List Waiting) : Nat := ws.foldr (fun w steps => w.run.stepsLeft + steps) 0

theorem stepsLeft_of_perm {ws others : List Waiting} {w : Waiting} (h : (w :: others).Perm ws) :
    stepsLeft ws = w.run.stepsLeft + stepsLeft others :=
  (h.foldr_eq' (fun v _ w _ steps =>
    Nat.add_left_comm w.run.stepsLeft v.run.stepsLeft steps) 0).symm

theorem stepsLeft_concat (ws : List Waiting) (w : Waiting) :
    stepsLeft (ws ++ [w]) = w.run.stepsLeft + stepsLeft ws :=
  stepsLeft_of_perm (List.perm_append_singleton w ws).symm

/-- A schedule and a crowd tell of the same callbacks. Those at the places `outside` have not come
in yet or are just going on; of the others, the schedule knows all that are suspended. -/
structure Matches (outside : List Nat) (q : Schedule) (c : Crowd σ) : Prop where
  finished : c.finished = q.finished
  waiting : ∀ w ∈ q.waiting, c.runs[w.index]? = some (some w.run)
  waits : ∀ w ∈ q.waiting, ∃ p progress, w.run = .suspended p progress
  nodup : (outside ++ q.waiting.map (·.index)).Nodup
  suspended : ∀ i p progress, c.runs[i]? = some (some (.suspended p progress)) →
    i ∈ outside ++ q.waiting.map (·.index)

namespace Matches

variable {parties : Parties σ} {outside : List Nat} {q : Schedule} {c : Crowd σ} {i : Nat}

/-- A callback that is just going on takes a turn. -/
theorem turn (h : Matches (i :: outside) q c) {finished : List (Nat × Outcome)}
    (hfinished : (c.turn parties i).finished = finished) :
    Matches (i :: outside) { q with finished } (c.turn parties i) where
  finished := hfinished
  waiting := by
    intro w hw
    have hother : w.index ≠ i := by
      rintro rfl
      refine (List.nodup_cons.1 h.nodup).1 (List.mem_append_right _ ?_)
      exact List.mem_map_of_mem hw
    rw [Crowd.runs_turn_of_ne hother]
    exact h.waiting w hw
  waits := h.waits
  nodup := h.nodup
  suspended := by
    intro j p progress hrun
    by_cases hij : j = i
    · rw [hij]
      exact List.mem_cons_self
    · rw [Crowd.runs_turn_of_ne hij] at hrun
      exact h.suspended j p progress hrun

/-- It has nothing more to do. -/
theorem leave (h : Matches (i :: outside) q c)
    (hidle : ∀ p progress, c.runs[i]? ≠ some (some (.suspended p progress))) :
    Matches outside q c where
  finished := h.finished
  waiting := h.waiting
  waits := h.waits
  nodup := (List.nodup_cons.1 h.nodup).2
  suspended := by
    intro j p progress hrun
    obtain rfl | hmem := List.mem_cons.1 (h.suspended j p progress hrun)
    · exact absurd hrun (hidle p progress)
    · exact hmem

/-- It has to wait. -/
theorem wait (h : Matches (i :: outside) q c) {p : Params} {progress : Progress}
    (hrun : c.runs[i]? = some (some (.suspended p progress))) (wakesAt : Nat) :
    Matches outside { q with waiting := q.waiting ++ [⟨i, wakesAt, .suspended p progress⟩] } c := by
  let new : Waiting := ⟨i, wakesAt, .suspended p progress⟩
  have hplaces : (i :: outside ++ q.waiting.map (·.index)).Perm
      (outside ++ (q.waiting ++ [new]).map (·.index)) := by
    rw [List.map_append, ← List.append_assoc]
    exact (List.perm_append_singleton i _).symm
  refine ⟨h.finished, ?_, ?_, hplaces.nodup_iff.1 h.nodup, ?_⟩
  · intro w hw
    obtain hold | hnew := List.mem_append.1 hw
    · exact h.waiting w hold
    · obtain rfl := List.mem_singleton.1 hnew
      exact hrun
  · intro w hw
    obtain hold | hnew := List.mem_append.1 hw
    · exact h.waits w hold
    · obtain rfl := List.mem_singleton.1 hnew
      exact ⟨p, progress, rfl⟩
  · intro j p' progress' hj
    exact hplaces.subset (h.suspended j p' progress' hj)

/-- A callback that goes on until it has to wait takes some turns, and in the end there is less to
do than before. -/
theorem goOn {steps : Nat} {p : Params} {progress : Progress} (h : Matches (i :: outside) q c)
    (hrun : c.runs[i]? = some (some (.suspended p progress)))
    (hsteps : (Run.suspended p progress).stepsLeft ≤ steps) (parties : Parties σ) (now : Nat) :
    ∃ turns q', Schedule.goOn parties i now steps (.suspended p progress) q c.world =
        (q', (c.interleave parties turns).world) ∧
      Matches outside q' (c.interleave parties turns) ∧
      (∀ j ≠ i, (c.interleave parties turns).runs[j]? = c.runs[j]?) ∧
      stepsLeft q'.waiting < stepsLeft q.waiting + (Run.suspended p progress).stepsLeft := by
  induction steps generalizing p progress c with
  | zero => exact absurd hsteps (Nat.not_le.2 (Run.stepsLeft_pos p progress))
  | succ steps ih =>
    obtain ⟨⟨world, next⟩, hstep⟩ :
      ∃ x, (Run.suspended p progress).resume parties c.world = x := ⟨_, rfl⟩
    have hturn := Crowd.turn_of_suspended hrun hstep
    have hnext := Crowd.runs_turn_self hrun hstep
    have hothers : ∀ j ≠ i, (c.turn parties i).runs[j]? = c.runs[j]? :=
      fun j hj => Crowd.runs_turn_of_ne hj
    have hpos := Run.stepsLeft_pos p progress
    -- Unless the turn finishes the callback, the schedule still tells the same.
    have hstays : next.value?.bind Run.outcome? = none →
        Matches (i :: outside) q (c.turn parties i) := by
      intro hnone
      refine h.turn ?_
      rw [hturn, hnone, h.finished]
      exact List.append_nil _
    cases next with
    | never =>
      refine ⟨[i], q, ?_, (hstays rfl).leave ?_, hothers, Nat.lt_add_of_pos_right hpos⟩
      · rw [goOn_of_never hstep, Crowd.interleave_singleton, hturn]
      · intro p' progress' hidle
        cases hnext.symm.trans hidle
    | after delay next =>
      have hless := Run.stepsLeft_resume hstep
      cases delay with
      | succ delay =>
        obtain ⟨progress', rfl⟩ := Run.suspended_of_wait hstep
        refine ⟨[i], _, ?_, (hstays rfl).wait hnext (now + (delay + 1)), hothers, ?_⟩
        · rw [goOn_of_wait hstep, Crowd.interleave_singleton, hturn]
        · rw [stepsLeft_concat, Nat.add_comm]
          exact Nat.add_lt_add_left hless _
      | zero =>
        cases next with
        | finished outcome =>
          have hfinished : (c.turn parties i).finished = q.finished ++ [(i, outcome)] := by
            rw [hturn, h.finished]
            rfl
          refine ⟨[i], _, ?_, (h.turn hfinished).leave ?_, hothers, Nat.lt_add_of_pos_right hpos⟩
          · rw [goOn_of_now hstep, goOn_finished, Crowd.interleave_singleton, hturn]
          · intro p' progress' hidle
            cases hnext.symm.trans hidle
        | suspended p' progress' =>
          have hworld : (c.turn parties i).world = world := by rw [hturn]
          obtain ⟨turns, q', hgoOn, hmatches, hothers', hleft⟩ :=
            ih (hstays rfl) hnext (by omega)
          refine ⟨i :: turns, q', ?_, hmatches, fun j hj => ?_, ?_⟩
          · rw [goOn_of_now hstep, ← hworld]
            exact hgoOn
          · exact (hothers' j hj).trans (hothers j hj)
          · exact Nat.lt_trans hleft (Nat.add_lt_add_left hless _)

/-- A callback that waits goes on. -/
theorem pick {w : Waiting} {others : List Waiting} (h : Matches [] q c)
    (hpick : (w :: others).Perm q.waiting) : Matches [w.index] { q with waiting := others } c := by
  have hplaces : ([w.index] ++ others.map (·.index)).Perm ([] ++ q.waiting.map (·.index)) :=
    hpick.map _
  refine ⟨h.finished, ?_, ?_, hplaces.nodup_iff.2 h.nodup, ?_⟩
  · intro w' hw'
    exact h.waiting w' (hpick.subset (List.mem_cons_of_mem _ hw'))
  · intro w' hw'
    exact h.waits w' (hpick.subset (List.mem_cons_of_mem _ hw'))
  · intro i p progress hrun
    exact hplaces.symm.subset (h.suspended i p progress hrun)

end Matches

theorem next_eq_none {ws : List Waiting} (h : next ws = none) : ws = [] := by
  cases ws with
  | nil => rfl
  | cons w ws =>
    rw [next] at h
    split at h
    · cases h
    · split at h <;> cases h

/-- Whoever goes on, the others still wait. -/
theorem next_perm {ws others : List Waiting} {w : Waiting} (h : next ws = some (w, others)) :
    (w :: others).Perm ws := by
  induction ws generalizing w others with
  | nil => cases h
  | cons v ws ih =>
    rw [next] at h
    split at h
    · next hnone =>
      obtain ⟨rfl, rfl⟩ := Prod.mk.inj (Option.some.inj h)
      rw [next_eq_none hnone]
    · next first rest hfirst =>
      split at h
      · obtain ⟨rfl, rfl⟩ := Prod.mk.inj (Option.some.inj h)
        exact (List.Perm.swap v first rest).trans ((ih hfirst).cons v)
      · obtain ⟨rfl, rfl⟩ := Prod.mk.inj (Option.some.inj h)
        exact .refl _

section Whole

variable {q : Schedule} {c : Crowd σ}

/-- Callbacks are resumed until none waits any more. -/
theorem drain_spec {steps : Nat} (h : Matches [] q c) (hsteps : stepsLeft q.waiting ≤ steps)
    (parties : Parties σ) :
    ∃ turns q', drain parties steps q c.world = (q', (c.interleave parties turns).world) ∧
      Matches [] q' (c.interleave parties turns) ∧ q'.waiting = [] := by
  induction steps generalizing q c with
  | zero =>
    refine ⟨[], q, rfl, h, ?_⟩
    cases hnext : next q.waiting with
    | none => exact next_eq_none hnext
    | some picked =>
      obtain ⟨w, others⟩ := picked
      have hperm := next_perm hnext
      obtain ⟨p, progress, hrun⟩ := h.waits w (hperm.subset List.mem_cons_self)
      have hpos := Run.stepsLeft_pos p progress
      rw [stepsLeft_of_perm hperm, hrun] at hsteps
      omega
  | succ steps ih =>
    cases hnext : next q.waiting with
    | none => exact ⟨[], q, by rw [drain, hnext]; rfl, h, next_eq_none hnext⟩
    | some picked =>
      obtain ⟨w, others⟩ := picked
      have hperm := next_perm hnext
      have hmem : w ∈ q.waiting := hperm.subset List.mem_cons_self
      obtain ⟨p, progress, hrun⟩ := h.waits w hmem
      have hwaiting := h.waiting w hmem
      rw [stepsLeft_of_perm hperm] at hsteps
      rw [hrun] at hwaiting hsteps
      obtain ⟨turns, q₁, hgoOn, hmatches, -, hless⟩ :=
        (h.pick hperm).goOn hwaiting (Nat.le_refl _) parties w.wakesAt
      have hsteps' : stepsLeft q₁.waiting ≤ steps := by
        simp only at hless
        omega
      obtain ⟨turns', q₂, hdrain, hdone⟩ := ih hmatches hsteps'
      refine ⟨turns ++ turns', q₂, ?_, ?_⟩
      · rw [drain, hnext, Crowd.interleave_append]
        simp only [hrun, hgoOn]
        exact hdrain
      · rw [Crowd.interleave_append]
        exact hdone

/-- Callbacks come in, and each takes its first turns. Then none has more than two steps left. -/
theorem enter_spec {callbacks : List Params} {index : Nat}
    (h : Matches (List.range' index callbacks.length) q c)
    (hstart : ∀ k p, callbacks[k]? = some p → c.runs[index + k]? = some (some (.start p)))
    (parties : Parties σ) :
    ∃ turns q', enter parties index callbacks q c.world =
        (q', (c.interleave parties turns).world) ∧
      Matches [] q' (c.interleave parties turns) ∧
      stepsLeft q'.waiting ≤ stepsLeft q.waiting + 2 * callbacks.length := by
  induction callbacks generalizing index q c with
  | nil => exact ⟨[], q, rfl, h, Nat.le_add_right _ _⟩
  | cons p callbacks ih =>
    have hrun : c.runs[index]? = some (some (.suspended p (.start p))) := hstart 0 p rfl
    obtain ⟨turns, q₁, hgoOn, hmatches, hothers, hless⟩ :=
      h.goOn hrun (Nat.le_refl _) parties 0
    have hthree := (Run.suspended p (.start p)).stepsLeft_le
    have hrest : ∀ k p, callbacks[k]? = some p →
        (c.interleave parties turns).runs[index + 1 + k]? = some (some (.start p)) := by
      intro k p' hk
      rw [hothers _ (by omega), Nat.add_right_comm]
      exact hstart (k + 1) p' hk
    obtain ⟨turns', q₂, henter, hdone, hleft⟩ := ih hmatches hrest
    refine ⟨turns ++ turns', q₂, ?_, ?_, ?_⟩
    · rw [enter, Crowd.interleave_append]
      simp only [Run.start, hgoOn]
      exact henter
    · rw [Crowd.interleave_append]
      exact hdone
    · rw [List.length_cons]
      omega

end Whole

end Schedule

/-- **Callbacks that are handled at the same time take turns**, until none of them has anything to
do any more. -/
theorem handleAll_eq (parties : Parties σ) (callbacks : List Params) (s : σ) :
    ∃ turns, ((Crowd.enter callbacks s).interleave parties turns).IsSettled ∧
      handleAll parties callbacks s =
        ((List.range callbacks.length).map fun i =>
            ((Crowd.enter callbacks s).interleave parties turns).finished.lookup i,
          ((Crowd.enter callbacks s).interleave parties turns).world) := by
  have hempty : Schedule.Matches (List.range' 0 callbacks.length) ⟨[], []⟩
      (Crowd.enter callbacks s) := by
    refine ⟨rfl, by simp, by simp, ?_, ?_⟩
    · simpa using List.nodup_range'
    · intro i p progress hrun
      obtain ⟨hi, -⟩ := List.getElem?_eq_some_iff.1 hrun
      simpa [Crowd.enter] using hi
  have hstart : ∀ k p, callbacks[k]? = some p →
      (Crowd.enter callbacks s).runs[0 + k]? = some (some (.start p)) := by
    intro k p hk
    simp [Crowd.enter, hk]
  obtain ⟨turns, q, henter, hmatches, hleft⟩ := Schedule.enter_spec hempty hstart parties
  have hsteps : Schedule.stepsLeft q.waiting ≤ 2 * callbacks.length := by
    simpa [Schedule.stepsLeft] using hleft
  obtain ⟨turns', q', hdrain, hdone, hnone⟩ := Schedule.drain_spec hmatches hsteps parties
  refine ⟨turns ++ turns', ?_⟩
  rw [Crowd.interleave_append]
  constructor
  · intro i p progress hrun
    have hmem := hdone.suspended i p progress hrun
    rw [hnone] at hmem
    cases hmem
  · have hentered : Schedule.enter parties 0 callbacks ⟨[], []⟩ s =
        (q, ((Crowd.enter callbacks s).interleave parties turns).world) := henter
    rw [handleAll, hentered]
    simp only [hdrain, hdone.finished]

end SignIn.Callback
