import Mathlib.Data.List.Induction
import Mathlib.Data.List.Nodup
import SignIn.Party.Instance
import SignIn.Proofs.Handshake
import SignIn.Proofs.Party.Server

/-!
# The end of a relying party

A relying party comes to its end in an order: it stops accepting, waits for the requests in flight,
and then tears its broker client down. Nothing that happens can change this order. `destroy` may be
called as often as anybody likes, at any time and while another call is still waiting, and requests
may be in any state.

So who was accepted cannot tell that there is an end. What makes this precise is a comparison of two
runs: one with all calls of `destroy`, and one without them, in which the requests that were refused
because of them do not come in either.

## What is observed

The world and the way in which a client is torn down may be anything. If the end was not reached,
the run is the same for all ways to tear a client down, so it was not torn down; and if it was
reached, the way occurs once in what has become of the world. The requests are known by their
tickets.

## Main definitions

* `Party.Server.undisturbed` — what would have happened without `destroy`
* `Party.Server.LifeCycle` — the order in which a relying party comes to its end

## Main results

* `Party.Server.step_of_over` — nothing is served behind the end
* `Party.Server.Reckoning.step` — no request is lost, and none is answered twice
* `Party.Server.Alike.step` — who was accepted cannot tell a difference
* `Party.Server.lives_once` — every sequence of occurrences
-/

namespace SignIn.Party

open Http

variable {σ : Type}

namespace Server

variable {service : Service σ} {tearDown : σ → σ} {s s' : Server σ} {o : Occurrence σ}
  {os : List (Occurrence σ)}

/-! ### Behind the end -/

/-- What an occurrence does to the world if nothing is in flight. -/
def Occurrence.change? : Occurrence σ → Option (σ → σ)
  | .change f => some f
  | _ => none

/-- The world after everything that others do to it. -/
def changed (os : List (Occurrence σ)) (world : σ) : σ :=
  (os.filterMap Occurrence.change?).foldl (fun world f => f world) world

theorem changed_concat (os : List (Occurrence σ)) (o : Occurrence σ) (world : σ) :
    changed (os ++ [o]) world = changed [o] (changed os world) := by
  simp only [changed, List.filterMap_append, List.foldl_append]

/-- The relying party has come to its end. -/
structure IsOver (s : Server σ) : Prop where
  phase : s.phase = .destroyed
  inFlight : s.inFlight = []

/-- Behind the end nothing is accepted and nothing is answered. -/
theorem step_of_over (h : s.IsOver) :
    s.step service tearDown o = (none, { s with world := changed [o] s.world }) := by
  obtain ⟨phase, accepted, inFlight, world⟩ := s
  obtain rfl : phase = .destroyed := h.phase
  obtain rfl : inFlight = [] := h.inFlight
  cases o <;> rfl

/-! ### Up to the end -/

theorem phase_resume (ticket : Nat) : (s.resume service ticket).2.phase = s.phase := by
  rw [resume]
  split
  · rfl
  · split
    · rfl
    · simp only
      split <;> rfl

theorem phase_cutOff (ticket : Nat) : (s.cutOff ticket).2.phase = s.phase := by
  rw [cutOff]
  split <;> rfl

/-- A relying party lives, and serves until `destroy` is called. -/
def IsGoing (s : Server σ) : Prop := s.phase = .serving ∨ s.phase = .draining

/-- Only the end of a `destroy` that has nothing to wait for brings the end. Everything else is the
same for all ways to tear the client down. -/
theorem step_cases (h : s.IsGoing) :
    (o = .finish ∧ s.phase = .draining ∧ s.inFlight = [] ∧
      s.step service tearDown o =
        (none, { s with phase := .destroyed, world := tearDown s.world })) ∨
    ((s.step service tearDown o).2.IsGoing ∧
      ∀ other, s.step service other o = s.step service tearDown o) := by
  cases o with
  | request request fault =>
    refine .inr ⟨?_, fun _ => rfl⟩
    rw [step, accept]
    rcases h with hphase | hphase <;> rw [hphase]
    · exact .inl rfl
    · exact .inr hphase
  | resume ticket =>
    have hphase := @phase_resume σ service s ticket
    refine .inr ⟨?_, fun _ => rfl⟩
    rwa [IsGoing, step, hphase]
  | cutOff ticket =>
    have hphase := @phase_cutOff σ s ticket
    refine .inr ⟨?_, fun _ => rfl⟩
    rwa [IsGoing, step, hphase]
  | change f => exact .inr ⟨h, fun _ => rfl⟩
  | destroy =>
    refine .inr ⟨.inr ?_, fun _ => rfl⟩
    rw [step, destroy]
    rcases h with hphase | hphase <;> rw [hphase]
    exact hphase
  | finish =>
    by_cases hready : s.phase = .draining ∧ s.inFlight.isEmpty
    · refine .inl ⟨rfl, hready.1, List.isEmpty_iff.1 hready.2, ?_⟩
      rw [step, finish, if_pos hready]
    · have hsame (tearDown : σ → σ) : s.step service tearDown .finish = (none, s) := by
        rw [step, finish, if_neg hready]
      refine .inr ⟨?_, fun other => ?_⟩
      · rwa [hsame tearDown]
      · rw [hsame other, hsame tearDown]

theorem isGoing_launch (world : σ) : (launch world).IsGoing := .inl rfl

theorem IsGoing.phase_ne (h : s.IsGoing) : s.phase ≠ .destroyed := by
  rcases h with hphase | hphase <;> simp [hphase]

/-! ### Whole lives -/

section Lives

variable {world : σ}

theorem run_concat (os : List (Occurrence σ)) (o : Occurrence σ) :
    run service tearDown (os ++ [o]) s =
      ((run service tearDown os s).1 ++
          ((run service tearDown os s).2.step service tearDown o).1.toList,
        ((run service tearDown os s).2.step service tearDown o).2) := by
  rw [run_append, run_cons, run, List.append_nil]

/-- A relying party comes to its end behind calls of `destroy`, when nothing is in flight any more.
Before that the client was not torn down, and afterwards nothing is answered. -/
structure Ends (service : Service σ) (tearDown : σ → σ) (s : Server σ)
    (before after : List (Occurrence σ)) : Prop where
  draining : (run service tearDown before s).2.phase = .draining
  inFlight : (run service tearDown before s).2.inFlight = []
  untouched : ∀ other, run service other before s = run service tearDown before s
  once : run service tearDown (before ++ .finish :: after) s =
    ((run service tearDown before s).1,
      { (run service tearDown before s).2 with
        phase := .destroyed
        world := changed after (tearDown (run service tearDown before s).2.world) })

theorem Ends.isOver {before after : List (Occurrence σ)}
    (h : Ends service tearDown s before after) :
    (run service tearDown (before ++ .finish :: after) s).2.IsOver := by
  rw [h.once]
  exact ⟨rfl, h.inFlight⟩

/-- It still goes on, and its client was not torn down, or it has come to its end. -/
theorem goes_or_ends (service : Service σ) (tearDown : σ → σ) (h : s.IsGoing)
    (os : List (Occurrence σ)) :
    ((run service tearDown os s).2.IsGoing ∧
      ∀ other, run service other os s = run service tearDown os s) ∨
    ∃ before after, os = before ++ .finish :: after ∧ Ends service tearDown s before after := by
  induction os using List.reverseRecOn with
  | nil => exact .inl ⟨h, fun _ => rfl⟩
  | append_singleton os o ih =>
    obtain ⟨hgoing, huntouched⟩ | ⟨before, after, rfl, hends⟩ := ih
    · obtain ⟨rfl, hdraining, hinFlight, hfinish⟩ | ⟨hgoing', hsame⟩ :=
        @step_cases σ service tearDown _ o hgoing
      · refine .inr ⟨os, [], rfl, hdraining, hinFlight, huntouched, ?_⟩
        rw [run_concat, hfinish]
        exact Prod.ext (List.append_nil _) rfl
      · refine .inl ⟨?_, fun other => ?_⟩
        · rwa [run_concat]
        · rw [run_concat, run_concat, huntouched other, hsame other]
    · refine .inr ⟨before, after ++ [o], by simp, hends.draining, hends.inFlight,
        hends.untouched, ?_⟩
      rw [← List.cons_append, ← List.append_assoc, run_concat, step_of_over hends.isOver,
        hends.once, changed_concat]
      exact Prod.ext (List.append_nil _) rfl

end Lives

/-! ### Tickets -/

/-- The requests in flight. -/
def tickets (s : Server σ) : List Nat := s.inFlight.map (·.ticket)

/-- Every request that was accepted is in flight or was answered, and no more than once. -/
def Reckoning (answered : List Nat) (s : Server σ) : Prop :=
  (answered ++ s.tickets).Perm (List.range s.accepted)

section Reckoning

variable {answered : List Nat} {ticket : Nat} {q : InFlight}

theorem mem_tickets_of_find? (h : s.find? ticket = some q) : ticket ∈ s.tickets := by
  rw [find?] at h
  have hticket := List.find?_some h
  exact List.mem_map.2 ⟨q, List.mem_of_find?_eq_some h, beq_iff_eq.1 hticket⟩

theorem Reckoning.nodup (h : Reckoning answered s) : s.tickets.Nodup :=
  (h.nodup_iff.2 List.nodup_range).of_append_right

/-- A request that is answered is not in flight any more. -/
theorem Reckoning.remove (h : Reckoning answered s) (hticket : ticket ∈ s.tickets) :
    Reckoning (answered ++ [ticket]) (s.remove ticket) := by
  have hremoved : (s.remove ticket).tickets = s.tickets.erase ticket := by
    rw [h.nodup.erase_eq_filter, tickets, Server.remove, tickets, List.filter_map]
    refine congrArg (List.map _) (List.filter_congr fun q _ => ?_)
    simp [bne, Bool.beq_eq_decide_eq]
  have hperm : (ticket :: s.tickets.erase ticket).Perm s.tickets :=
    (List.perm_cons_erase hticket).symm
  rw [Reckoning, hremoved, List.append_assoc, List.singleton_append]
  exact (hperm.append_left answered).trans h

/-- A request that takes a step without an answer keeps its ticket. -/
theorem tickets_advance (inFlight : List InFlight) (ticket : Nat) (job : Job) :
    (inFlight.map fun q => if q.ticket = ticket then { q with job } else q).map (·.ticket) =
      inFlight.map (·.ticket) := by
  rw [List.map_map]
  refine List.map_congr_left fun q _ => ?_
  show (if q.ticket = ticket then { q with job } else q : InFlight).ticket = q.ticket
  split <;> rfl

/-- Whatever happens, no request is lost, and none is answered twice. -/
theorem Reckoning.step (h : Reckoning answered s) (service : Service σ) (tearDown : σ → σ)
    (o : Occurrence σ) :
    Reckoning (answered ++ (s.step service tearDown o).1.toList.map Prod.fst)
      (s.step service tearDown o).2 := by
  have hnothing : Reckoning (answered ++ []) s := by rwa [List.append_nil]
  cases o with
  | request request fault =>
    rw [Server.step, accept]
    cases s.phase with
    | serving =>
      show (answered ++ [] ++ (s.inFlight ++ [_]).map _).Perm (List.range (s.accepted + 1))
      rw [List.append_nil, List.map_append, ← List.append_assoc, List.range_succ]
      exact h.append_right [s.accepted]
    | _ => exact hnothing
  | resume ticket =>
    rw [Server.step, resume]
    cases hfind : s.find? ticket with
    | none => exact hnothing
    | some q =>
      simp only
      cases q.job.response? with
      | some response => exact h.remove (mem_tickets_of_find? hfind)
      | none =>
        obtain ⟨⟨world, next⟩, hresume⟩ : ∃ x, q.job.resume service s.world = x := ⟨_, rfl⟩
        rw [hresume]
        cases next with
        | never => exact hnothing
        | after delay job =>
          show (answered ++ [] ++ List.map _ (List.map _ _)).Perm _
          rw [tickets_advance]
          exact hnothing
  | cutOff ticket =>
    rw [Server.step, cutOff]
    cases hfind : s.find? ticket with
    | none => exact hnothing
    | some q => exact h.remove (mem_tickets_of_find? hfind)
  | change f => exact hnothing
  | destroy =>
    rw [Server.step, destroy]
    cases s.phase <;> exact hnothing
  | finish =>
    rw [Server.step, finish]
    split <;> exact hnothing

theorem reckoning_run (service : Service σ) (tearDown : σ → σ) (world : σ)
    (os : List (Occurrence σ)) :
    Reckoning ((run service tearDown os (launch world)).1.map Prod.fst)
      (run service tearDown os (launch world)).2 := by
  induction os using List.reverseRecOn with
  | nil => exact .refl _
  | append_singleton os o ih =>
    rw [run_concat, List.map_append]
    exact ih.step service tearDown o

end Reckoning

/-! ### Without `destroy` -/

/-- `destroy` is called. -/
def Occurrence.isDestroy : Occurrence σ → Bool
  | .destroy => true
  | _ => false

/-- What would also have happened if nobody had called `destroy`, given whether somebody has. A
request that comes too late would have been accepted, so it does not count. -/
def Occurrence.remains (isDestroyed : Bool) : Occurrence σ → Bool
  | .request _ _ => !isDestroyed
  | .resume _ | .cutOff _ | .change _ => true
  | .destroy | .finish => false

/-- What would have happened without `destroy`. -/
def undisturbed : (isDestroyed : Bool) → List (Occurrence σ) → List (Occurrence σ)
  | _, [] => []
  | isDestroyed, o :: os =>
    let rest := undisturbed (isDestroyed || o.isDestroy) os
    if o.remains isDestroyed then o :: rest else rest

theorem destroy_not_mem_undisturbed (isDestroyed : Bool) (os : List (Occurrence σ)) :
    .destroy ∉ undisturbed isDestroyed os ∧ .finish ∉ undisturbed isDestroyed os := by
  induction os generalizing isDestroyed with
  | nil => exact ⟨List.not_mem_nil, List.not_mem_nil⟩
  | cons o os ih =>
    rw [undisturbed]
    cases o with
    | request request fault => cases isDestroyed <;> simp [Occurrence.remains, ih]
    | _ => simp [Occurrence.remains, ih]

/-- The one relying party may have come to its end or be on its way to it, and the other one not.
Otherwise they are the same, and the end only comes when there is nothing left that could tell. -/
structure Alike (s s' : Server σ) : Prop where
  serving : s'.phase = .serving
  accepted : s'.accepted = s.accepted
  inFlight : s'.inFlight = s.inFlight
  stage : (s.IsGoing ∧ s'.world = s.world) ∨ s.IsOver

/-- What a request does next does not depend on how far the life of the relying party has come. -/
theorem resume_phase (service : Service σ) (ticket : Nat) (s : Server σ) (phase : Phase) :
    ({ s with phase } : Server σ).resume service ticket =
      ((s.resume service ticket).1, { (s.resume service ticket).2 with phase }) := by
  have hfind : ({ s with phase } : Server σ).find? ticket = s.find? ticket := rfl
  rw [resume, resume, hfind]
  cases s.find? ticket with
  | none => rfl
  | some q =>
    simp only
    cases q.job.response? with
    | some response => rfl
    | none =>
      obtain ⟨⟨world, next⟩, hresume⟩ : ∃ x, q.job.resume service s.world = x := ⟨_, rfl⟩
      rw [hresume]
      cases next <;> rfl

theorem cutOff_phase (ticket : Nat) (s : Server σ) (phase : Phase) :
    ({ s with phase } : Server σ).cutOff ticket =
      ((s.cutOff ticket).1, { (s.cutOff ticket).2 with phase }) := by
  have hfind : ({ s with phase } : Server σ).find? ticket = s.find? ticket := rfl
  rw [cutOff, cutOff, hfind]
  cases s.find? ticket <;> rfl

/-- What remains without `destroy` has the same effect on both, and what does not remain has none
that could be noticed. -/
theorem Alike.step (h : Alike s s') (service : Service σ) (tearDown : σ → σ)
    (o : Occurrence σ) :
    if o.remains s.isDestroyed then
      (s.step service tearDown o).1 = (s'.step service tearDown o).1 ∧
        Alike (s.step service tearDown o).2 (s'.step service tearDown o).2
    else (s.step service tearDown o).1 = none ∧ Alike (s.step service tearDown o).2 s' := by
  obtain ⟨phase, accepted, inFlight, world⟩ := s
  obtain ⟨phase', accepted', inFlight', world'⟩ := s'
  obtain ⟨rfl, rfl, rfl, ⟨hgoing, rfl⟩ | hover⟩ := h
  · have hsame (t : Server σ) (ht : t.phase = .serving) : Alike { t with phase } t :=
      ⟨ht, rfl, rfl, .inl ⟨hgoing, rfl⟩⟩
    cases o with
    | resume ticket =>
      have hresume := resume_phase service ticket ⟨.serving, accepted', inFlight', world'⟩ phase
      simp only [Occurrence.remains, if_true, Server.step, hresume, true_and]
      exact hsame _ (phase_resume ticket)
    | cutOff ticket =>
      have hcutOff := cutOff_phase ticket ⟨.serving, accepted', inFlight', world'⟩ phase
      simp only [Occurrence.remains, if_true, Server.step, hcutOff, true_and]
      exact hsame _ (phase_cutOff ticket)
    | change f => exact ⟨rfl, hsame ⟨.serving, accepted', inFlight', f world'⟩ rfl⟩
    | request request fault =>
      obtain hphase | hphase := hgoing
      · obtain rfl : phase = .serving := hphase
        exact ⟨rfl, rfl, rfl, rfl, .inl ⟨.inl rfl, rfl⟩⟩
      · obtain rfl : phase = .draining := hphase
        exact ⟨rfl, rfl, rfl, rfl, .inl ⟨.inr rfl, rfl⟩⟩
    | destroy =>
      obtain hphase | hphase := hgoing
      · obtain rfl : phase = .serving := hphase
        exact ⟨rfl, rfl, rfl, rfl, .inl ⟨.inr rfl, rfl⟩⟩
      · obtain rfl : phase = .draining := hphase
        exact ⟨rfl, rfl, rfl, rfl, .inl ⟨.inr rfl, rfl⟩⟩
    | finish =>
      obtain hphase | hphase := hgoing
      · obtain rfl : phase = .serving := hphase
        exact ⟨rfl, rfl, rfl, rfl, .inl ⟨.inl rfl, rfl⟩⟩
      · obtain rfl : phase = .draining := hphase
        cases inFlight' with
        | nil => exact ⟨rfl, rfl, rfl, rfl, .inr ⟨rfl, rfl⟩⟩
        | cons q qs => exact ⟨rfl, rfl, rfl, rfl, .inl ⟨.inr rfl, rfl⟩⟩
  · obtain rfl : phase = .destroyed := hover.phase
    obtain rfl : inFlight' = [] := hover.inFlight
    cases o <;> exact ⟨rfl, rfl, rfl, rfl, .inr ⟨rfl, rfl⟩⟩

theorem isDestroyed_of_phase (h : s'.phase = s.phase) : s'.isDestroyed = s.isDestroyed := by
  rw [isDestroyed, isDestroyed, h]

/-- Whether `destroy` was called can be seen from then on. -/
theorem isDestroyed_step (h : s.IsGoing ∨ s.IsOver) (service : Service σ) (tearDown : σ → σ)
    (o : Occurrence σ) :
    (s.step service tearDown o).2.isDestroyed = (s.isDestroyed || o.isDestroy) := by
  have hsame (hphase : (s.step service tearDown o).2.phase = s.phase) (ho : o.isDestroy = false) :
      (s.step service tearDown o).2.isDestroyed = (s.isDestroyed || o.isDestroy) := by
    rw [isDestroyed_of_phase hphase, ho, Bool.or_false]
  obtain ⟨phase, accepted, inFlight, world⟩ := s
  obtain (hphase | hphase) | hover := h
  · obtain rfl : phase = .serving := hphase
    cases o with
    | resume ticket => exact hsame (phase_resume ticket) rfl
    | cutOff ticket => exact hsame (phase_cutOff ticket) rfl
    | _ => rfl
  · obtain rfl : phase = .draining := hphase
    cases o with
    | resume ticket => exact hsame (phase_resume ticket) rfl
    | cutOff ticket => exact hsame (phase_cutOff ticket) rfl
    | finish => cases inFlight <;> rfl
    | _ => rfl
  · rw [step_of_over hover]
    obtain rfl : phase = .destroyed := hover.phase
    rfl

/-- Who was accepted cannot tell a difference, however often `destroy` is called. -/
theorem Alike.run (h : Alike s s') (service : Service σ) (tearDown : σ → σ)
    (os : List (Occurrence σ)) :
    (Server.run service tearDown os s).1 =
        (Server.run service tearDown (undisturbed s.isDestroyed os) s').1 ∧
      Alike (Server.run service tearDown os s).2
        (Server.run service tearDown (undisturbed s.isDestroyed os) s').2 := by
  induction os generalizing s s' with
  | nil => exact ⟨rfl, h⟩
  | cons o os ih =>
    have hstep := h.step service tearDown o
    have hdestroyed := isDestroyed_step (h.stage.imp_left And.left) service tearDown o
    rw [undisturbed, ← hdestroyed, run_cons]
    by_cases hremains : o.remains s.isDestroyed
    · rw [if_pos hremains] at hstep
      obtain ⟨hanswers, hend⟩ := ih hstep.2
      simp only [if_pos hremains, run_cons]
      exact ⟨by rw [hstep.1, hanswers], hend⟩
    · rw [if_neg hremains] at hstep
      obtain ⟨hanswers, hend⟩ := ih hstep.2
      simp only [if_neg hremains]
      exact ⟨by rw [hstep.1, hanswers]; rfl, hend⟩

theorem alike_launch (world : σ) : Alike (launch world) (launch world) :=
  ⟨rfl, rfl, rfl, .inl ⟨.inl rfl, rfl⟩⟩

end Server

/-! ### What is preserved up to the end -/

/-- Whatever a service does to the world, this stays true of it. -/
structure Service.Preserves (service : Service σ) (P : σ → Prop) : Prop where
  exchange : ∀ code redirectUri s, P s → P (service.exchange code redirectUri s).1
  verify : ∀ token s, P s → P (service.verify token s).1
  publish : ∀ event s, P s → P (service.publish event s).1
  log : ∀ diagnostic s, P s → P (service.log diagnostic s)
  authenticate : ∀ identifier s, P s → P (service.authenticate identifier s).1

section Preserves

variable {service : Service σ} {tearDown : σ → σ} {P Q : σ → Prop} {world : σ}

theorem Service.Preserves.announce (h : service.Preserves P) (p : Callback.Params)
    (verdict : Callback.Verdict) (hworld : P world) :
    P (service.announce p verdict world) := by
  have hpublished := h.publish (verdict.event p) world hworld
  rw [Callback.Parties.announce]
  simp only
  split
  · exact h.log _ _ hpublished
  · exact hpublished

theorem Service.Preserves.resume (h : service.Preserves P) (job : Job) (hworld : P world) :
    P (job.resume service world).1 := by
  match job with
  | .answered response => exact hworld
  | .authenticate identifier => exact h.authenticate identifier world hworld
  | .authenticated (.ok url) => exact hworld
  | .authenticated (.error e) => exact h.log _ world hworld
  | .callback (.finished outcome) => exact hworld
  | .callback (.suspended p (.exchange code)) => exact h.exchange code _ world hworld
  | .callback (.suspended p (.verify token)) => exact h.verify token world hworld
  | .callback (.suspended p (.announce verdict)) => exact h.announce p verdict hworld

namespace Server

variable {s : Server σ} {o : Occurrence σ}

/-- Nothing but the end changes what a service preserves, if others do not change it. -/
theorem world_step (h : service.Preserves P) (hchange : ∀ f ∈ o.change?, ∀ w, P w → P (f w))
    (hgoing : (s.step service tearDown o).2.IsGoing) (hworld : P s.world) :
    P (s.step service tearDown o).2.world := by
  cases o with
  | request request fault =>
    rw [step, accept]
    cases s.phase <;> exact hworld
  | resume ticket =>
    rw [step, resume]
    cases s.find? ticket with
    | none => exact hworld
    | some q =>
      simp only
      cases q.job.response? with
      | some response => exact hworld
      | none =>
        have hkept := h.resume q.job hworld
        obtain ⟨⟨world, next⟩, hresume⟩ : ∃ x, q.job.resume service s.world = x := ⟨_, rfl⟩
        rw [hresume] at hkept ⊢
        cases next <;> exact hkept
  | cutOff ticket =>
    rw [step, cutOff]
    cases s.find? ticket <;> exact hworld
  | change f => exact hchange f rfl s.world hworld
  | destroy =>
    rw [step, destroy]
    cases s.phase <;> exact hworld
  | finish =>
    by_cases hready : s.phase = .draining ∧ s.inFlight.isEmpty
    · rw [step, finish, if_pos hready] at hgoing
      exact absurd rfl hgoing.phase_ne
    · rwa [step, finish, if_neg hready]

/-- What a service preserves is so as long as the end has not come. -/
theorem world_of_isGoing (h : service.Preserves P) (hs : s.IsGoing) (hworld : P s.world)
    {os : List (Occurrence σ)} (hchange : ∀ f ∈ os.filterMap Occurrence.change?, ∀ w, P w → P (f w))
    (hgoing : (run service tearDown os s).2.IsGoing) :
    P (run service tearDown os s).2.world := by
  induction os using List.reverseRecOn with
  | nil => exact hworld
  | append_singleton os o ih =>
    rw [List.filterMap_append] at hchange
    rw [run_concat] at hgoing ⊢
    obtain ⟨hbefore, -⟩ | ⟨before, after, rfl, hends⟩ := goes_or_ends service tearDown hs os
    · have hrest := ih (fun f hf => hchange f (List.mem_append_left _ hf)) hbefore
      refine world_step h (fun f hf => hchange f (List.mem_append_right _ ?_)) hgoing hrest
      rw [List.filterMap_cons, Option.mem_def.1 hf]
      exact List.mem_singleton_self f
    · rw [step_of_over hends.isOver] at hgoing
      exact absurd hends.isOver.phase hgoing.phase_ne

theorem changed_preserves {os : List (Occurrence σ)} {world : σ}
    (hchange : ∀ f ∈ os.filterMap Occurrence.change?, ∀ w, Q w → Q (f w)) (hworld : Q world) :
    Q (changed os world) :=
  List.foldlRecOn _ _ hworld fun w hw f hf => hchange f hf w hw

end Server

end Preserves

/-! ### The order of the end -/

namespace Server

/-- The answers that a relying party gives, and what it comes to, from its start on. -/
def life (service : Service σ) (tearDown : σ → σ) (world : σ) (os : List (Occurrence σ)) :
    List (Nat × Response) × Server σ :=
  run service tearDown os (launch world)

/-- The order in which a relying party comes to its end, in a sequence of occurrences. -/
structure LifeCycle (service : Service σ) (tearDown : σ → σ) (world : σ)
    (os : List (Occurrence σ)) : Prop where
  /-- It says that it is destroyed from the first call of `destroy` on. -/
  isDestroyed : (life service tearDown world os).2.isDestroyed = true ↔ .destroy ∈ os
  /-- A call of `destroy` changes nothing but that. -/
  quiet : ∃ phase, life service tearDown world (os ++ [.destroy]) =
    ((life service tearDown world os).1, { (life service tearDown world os).2 with phase })
  /-- Every request that was accepted is in flight or was answered, once. -/
  reckoning : Reckoning ((life service tearDown world os).1.map Prod.fst)
    (life service tearDown world os).2
  /-- The client is not torn down before the end. -/
  untouched : (life service tearDown world os).2.phase ≠ .destroyed →
    ∀ other, life service other world os = life service tearDown world os
  /-- The end comes behind a call of `destroy` and when every request was answered. The client is
  torn down then, once, and nothing is answered any more. -/
  once : (life service tearDown world os).2.phase = .destroyed →
    ∃ before after, os = before ++ .finish :: after ∧ .destroy ∈ before ∧
      ((life service tearDown world before).1.map Prod.fst).Perm
        (List.range (life service tearDown world os).2.accepted) ∧
      Ends service tearDown (launch world) before after
  /-- It comes if there is nothing to wait for. -/
  completes : .destroy ∈ os → (life service tearDown world os).2.inFlight = [] →
    (life service tearDown world (os ++ [.finish])).2.phase = .destroyed
  /-- The sequence without `destroy` is one. -/
  without : .destroy ∉ undisturbed false os ∧ .finish ∉ undisturbed false os
  /-- Whoever is answered gets the answer that he would have got without `destroy`. Up to the end,
  the world is what it would have been, too. -/
  undisturbed : (life service tearDown world os).1 =
      (life service tearDown world (undisturbed false os)).1 ∧
    ((life service tearDown world os).2.phase ≠ .destroyed →
      (life service tearDown world os).2.world =
        (life service tearDown world (undisturbed false os)).2.world)

variable {service : Service σ} {tearDown : σ → σ} {s : Server σ}

theorem step_destroy (s : Server σ) :
    s.step service tearDown .destroy = (none, { s with phase := s.destroy.phase }) := by
  obtain ⟨phase, accepted, inFlight, world⟩ := s
  cases phase <;> rfl

theorem phase_finish (hdraining : s.phase = .draining) (hinFlight : s.inFlight = []) :
    (s.step service tearDown .finish).2.phase = .destroyed := by
  rw [step, finish, if_pos ⟨hdraining, List.isEmpty_iff.2 hinFlight⟩]

theorem isGoing_or_isOver (service : Service σ) (tearDown : σ → σ) (world : σ)
    (os : List (Occurrence σ)) :
    (life service tearDown world os).2.IsGoing ∨ (life service tearDown world os).2.IsOver := by
  obtain ⟨hgoing, -⟩ | ⟨before, after, rfl, hends⟩ :=
    goes_or_ends service tearDown (isGoing_launch world) os
  · exact .inl hgoing
  · exact .inr hends.isOver

/-- A relying party says that it is destroyed from the first call of `destroy` on. -/
theorem isDestroyed_life (service : Service σ) (tearDown : σ → σ) (world : σ)
    (os : List (Occurrence σ)) :
    (life service tearDown world os).2.isDestroyed = true ↔ .destroy ∈ os := by
  induction os using List.reverseRecOn with
  | nil => simp [life, run, launch, isDestroyed]
  | append_singleton os o ih =>
    have hstep := isDestroyed_step (isGoing_or_isOver service tearDown world os) service tearDown o
    have ho : o.isDestroy = true ↔ .destroy = o := by cases o <;> simp [Occurrence.isDestroy]
    rw [life, run_concat, List.mem_append, List.mem_singleton, ← ih, ← ho]
    rw [life] at hstep ⊢
    rw [hstep, Bool.or_eq_true]

/-- The order of the end is kept, whatever happens. -/
theorem lifeCycle (service : Service σ) (tearDown : σ → σ) (world : σ)
    (os : List (Occurrence σ)) : LifeCycle service tearDown world os where
  isDestroyed := isDestroyed_life service tearDown world os
  quiet := by
    refine ⟨(life service tearDown world os).2.destroy.phase, ?_⟩
    rw [life, run_concat, step_destroy]
    exact Prod.ext (List.append_nil _) rfl
  reckoning := reckoning_run service tearDown world os
  untouched := by
    intro hphase
    obtain ⟨-, huntouched⟩ | ⟨before, after, rfl, hends⟩ :=
      goes_or_ends service tearDown (isGoing_launch world) os
    · exact huntouched
    · exact absurd hends.isOver.phase hphase
  once := by
    intro hphase
    obtain ⟨hgoing, -⟩ | ⟨before, after, rfl, hends⟩ :=
      goes_or_ends service tearDown (isGoing_launch world) os
    · exact absurd hphase hgoing.phase_ne
    · refine ⟨before, after, rfl, ?_, ?_, hends⟩
      · rw [← isDestroyed_life service tearDown world before, isDestroyed, life, hends.draining]
        rfl
      · have hreckoning := reckoning_run service tearDown world before
        rw [Reckoning, tickets, hends.inFlight, List.map_nil, List.append_nil] at hreckoning
        rw [life, life, hends.once]
        exact hreckoning
  completes := by
    intro hdestroy hinFlight
    rw [life, run_concat]
    obtain (hserving | hdraining) | hover := isGoing_or_isOver service tearDown world os
    · rw [← isDestroyed_life service tearDown world os, isDestroyed, hserving] at hdestroy
      exact absurd hdestroy (by decide)
    · exact @phase_finish σ service tearDown _ hdraining hinFlight
    · rw [life] at hover
      rw [step_of_over hover]
      exact hover.phase
  without := destroy_not_mem_undisturbed false os
  undisturbed := by
    obtain ⟨hanswers, halike⟩ := (alike_launch world).run service tearDown os
    refine ⟨hanswers, fun hphase => ?_⟩
    obtain ⟨-, hworld⟩ | hover := halike.stage
    · exact hworld.symm
    · exact absurd hover.phase hphase

end Server

/-! ### The client of a relying party -/

section Client

variable {μ : Type}

/-- What is sent out neither tears the client down nor brings it back. -/
def Setup.LeavesClient (setup : Setup μ) : Prop :=
  ∀ request s, (setup.transport request s).1.client.isDestroyed = s.client.isDestroyed

/-- Serving does not tear the client down. -/
theorem Setup.LeavesClient.preserves {setup : Setup μ} (h : setup.LeavesClient) (b : Bool) :
    setup.service.Preserves fun s => s.client.isDestroyed = b where
  exchange code redirectUri s hs :=
    @send_keeps _ setup.transport _ _ s (fun s => s.client.isDestroyed = b)
      (fun request s hs => (h request s).trans hs) hs
  verify token s hs :=
    (Broker.Client.isDestroyed_verify setup.dialect s.client token s.now).trans hs
  publish event s hs := by
    show (s.publish setup.nesting event).1.client.isDestroyed = b
    rw [State.publish]
    split <;> exact hs
  log _ _ hs := hs
  authenticate identifier s hs := by
    show (s.authenticate setup.dialect identifier).1.client.isDestroyed = b
    rw [(s.authenticate_client setup.dialect identifier).1]
    exact (Broker.Client.isDestroyed_authenticate ..).trans hs

/-- What others do to a relying party leaves its client as it is: they register a listener, or emit
an event, or time passes. -/
def Server.LeaveClient (os : List (Server.Occurrence (State μ))) : Prop :=
  ∀ f ∈ os.filterMap Server.Occurrence.change?, ∀ s, (f s).client.isDestroyed = s.client.isDestroyed

/-- The client of a relying party is torn down at the end and not before. -/
theorem Setup.LeavesClient.isDestroyed_iff {setup : Setup μ} (h : setup.LeavesClient) {s : State μ}
    (hs : s.client.isDestroyed = false) {os : List (Server.Occurrence (State μ))}
    (hos : Server.LeaveClient os) :
    (Server.life setup.service State.destroyClient s os).2.world.client.isDestroyed = true ↔
      (Server.life setup.service State.destroyClient s os).2.phase = .destroyed := by
  obtain ⟨hgoing, -⟩ | ⟨before, after, rfl, hends⟩ :=
    Server.goes_or_ends setup.service State.destroyClient (Server.isGoing_launch s) os
  · have halive := Server.world_of_isGoing (h.preserves false) (Server.isGoing_launch s) hs
      (fun f hf w hw => (hos f hf w).trans hw) hgoing
    refine iff_of_false ?_ hgoing.phase_ne
    rw [Server.life, halive]
    exact Bool.false_ne_true
  · refine iff_of_true ?_ hends.isOver.phase
    have hchange : ∀ f ∈ after.filterMap Server.Occurrence.change?, ∀ w : State μ,
        w.client.isDestroyed = true → (f w).client.isDestroyed = true := by
      intro f hf w hw
      refine (hos f ?_ w).trans hw
      rw [List.filterMap_append]
      exact List.mem_append_right _ hf
    rw [Server.life, hends.once]
    exact Server.changed_preserves hchange (Broker.Client.isDestroyed_destroy _)

/-- **One life.** Whatever happens to a relying party, in any order: requests come in, take their
steps and run out of time, listeners are registered, events are emitted, and `destroy` is called,
any number of times and while other calls are waiting. The relying party says that it is destroyed
from the first call on. A call changes nothing else, so nobody hears of it. Requests that were
accepted before are answered as they would have been without any call, in the same world, with the
same events and the same lines in the log. When all of them are answered the client is torn down,
once, and that is the end of the first call. Nothing is answered behind it.

So as long as a request is in flight, the client of a relying party is alive, if nobody else has
torn it down; and the listeners and the log do not notice the end. -/
theorem lives_once (service : Service σ) (tearDown : σ → σ) (world : σ)
    (os : List (Server.Occurrence σ)) :
    Server.LifeCycle service tearDown world os ∧
    ∀ (setup : Setup μ) (s : State μ) (os : List (Server.Occurrence (State μ))),
      setup.LeavesClient → Server.LeaveClient os → s.client.isDestroyed = false →
      ((Server.life setup.service State.destroyClient s os).2.world.client.isDestroyed = true ↔
        (Server.life setup.service State.destroyClient s os).2.phase = .destroyed) ∧
      ((Server.life setup.service State.destroyClient s os).2.inFlight ≠ [] →
        (Server.life setup.service State.destroyClient s os).2.world.client.isDestroyed = false) ∧
      (s.destroyClient.listeners = s.listeners ∧ s.destroyClient.log = s.log) := by
  refine ⟨Server.lifeCycle service tearDown world os, fun setup s os hsetup hos hs => ?_⟩
  have hiff := hsetup.isDestroyed_iff hs hos
  refine ⟨hiff, fun hinFlight => ?_, rfl, rfl⟩
  obtain hgoing | hover :=
    Server.isGoing_or_isOver setup.service State.destroyClient s os
  · exact Bool.eq_false_iff.2 fun hdestroyed => hgoing.phase_ne (hiff.1 hdestroyed)
  · exact absurd hover.inFlight hinFlight

/-- A request that comes in before `destroy` and one that comes too late, and two more calls. -/
theorem lives_once_local :
    let home : Request := ⟨"GET", "/", none, none, []⟩
    let os : List (Server.Occurrence (State Unit)) :=
      [.request home, .destroy, .request home, .destroy, .finish, .resume 0, .finish, .destroy]
    let life := Server.life localSetup.service State.destroyClient localState os
    localSetup.LeavesClient ∧ Server.LeaveClient os ∧ localState.client.isDestroyed = false ∧
      life.2.phase = .destroyed ∧ life.2.world.client.isDestroyed = true ∧
      Server.LifeCycle localSetup.service State.destroyClient localState os := by
  intro home os life
  have hsetup : localSetup.LeavesClient := fun _ _ => rfl
  have hos : Server.LeaveClient os := fun f hf => absurd hf List.not_mem_nil
  have hphase : life.2.phase = .destroyed := rfl
  obtain ⟨hlife, hclient⟩ :=
    @lives_once _ Unit localSetup.service State.destroyClient localState os
  obtain ⟨hiff, -⟩ := hclient localSetup localState os hsetup hos rfl
  exact ⟨hsetup, hos, rfl, hphase, hiff.2 hphase, hlife⟩

end Client

end SignIn.Party
