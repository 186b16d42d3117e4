import SignIn.Party.Server

/-!
# Sequences of occurrences

What happens to a relying party later happens to what has come of what happened before. Of a request
only its job matters, and whether it was sent by `HEAD`, which decides if its answer has a body. So
a request can be replaced by another one that is the same job, in the midst of anything that
happens, and nobody else can tell a difference.

## Main definitions

* `Party.Server.plain` — a relying party without what does not matter

## Main results

* `Party.Service.serve_eq_of_start` — a request that is the same job is answered alike
* `Party.Server.run_append` — what happens later
* `Party.Server.step_plain`, `Party.Server.run_plain` — what does not matter makes no difference
* `Party.Server.run_of_start` — a request that is the same job can be put in another one's place
-/

namespace SignIn.Party

open Http

variable {σ : Type} {fault fault' : Option String}

/-! ### One request -/

/-- Only what is sent to `HEAD` has no body. -/
theorem forMethod_of_ne {method : String} (h : method ≠ "HEAD") (response : Response) :
    response.forMethod method = response :=
  if_neg h

/-- The same job is answered in the same way. -/
theorem Service.serve_eq_of_start (service : Service σ) {a b : Request} (ha : a.method ≠ "HEAD")
    (hb : b.method ≠ "HEAD") (h : Job.start a fault = Job.start b fault') (s : σ) :
    service.serve a s fault = service.serve b s fault' := by
  rw [serve, serve, h]
  simp only [forMethod_of_ne ha, forMethod_of_ne hb]

/-! ### What does not matter -/

/-- A request in flight, of whose method is kept only whether its answer has a body. -/
def InFlight.plain (q : InFlight) : InFlight :=
  { q with method := if q.method = "HEAD" then "HEAD" else "GET" }

theorem InFlight.plain_plain (q : InFlight) : q.plain.plain = q.plain := by
  rw [plain, plain]
  split <;> rfl

theorem InFlight.forMethod_plain (q : InFlight) (response : Response) :
    response.forMethod q.plain.method = response.forMethod q.method := by
  by_cases hhead : q.method = "HEAD"
  · have hplain : q.plain.method = q.method := (if_pos hhead).trans hhead.symm
    rw [hplain]
  · have hplain : q.plain.method = "GET" := if_neg hhead
    rw [hplain, forMethod_of_ne hhead, forMethod_of_ne (by decide)]

namespace Server

/-- A relying party, of whose requests in flight only this is kept. -/
def plain (s : Server σ) : Server σ := { s with inFlight := s.inFlight.map InFlight.plain }

theorem find?_plain (s : Server σ) (ticket : Nat) :
    s.plain.find? ticket = (s.find? ticket).map InFlight.plain := by
  rw [find?, find?, plain, List.find?_map]
  rfl

theorem remove_plain (s : Server σ) (ticket : Nat) :
    s.plain.remove ticket = (s.remove ticket).plain := by
  rw [remove, remove, plain, plain]
  simp only [List.filter_map]
  rfl

theorem plain_plain (s : Server σ) : s.plain.plain = s.plain := by
  simp only [plain, List.map_map, Function.comp_def, InFlight.plain_plain]

theorem accept_plain (request : Request) (fault : Option String) (s : Server σ) :
    (s.plain.accept request fault).2.plain = (s.accept request fault).2.plain := by
  have hphase : s.plain.phase = s.phase := rfl
  rw [accept, accept, hphase]
  cases s.phase with
  | serving => simp [plain, Function.comp_def, InFlight.plain_plain]
  | _ => exact plain_plain s

theorem cutOff_plain (ticket : Nat) (s : Server σ) :
    s.plain.cutOff ticket = ((s.cutOff ticket).1, (s.cutOff ticket).2.plain) := by
  rw [cutOff, cutOff, find?_plain]
  cases s.find? ticket with
  | none => rfl
  | some q => simp only [Option.map_some, InFlight.forMethod_plain, remove_plain]

theorem resume_plain (service : Service σ) (ticket : Nat) (s : Server σ) :
    s.plain.resume service ticket =
      ((s.resume service ticket).1, (s.resume service ticket).2.plain) := by
  have hworld : s.plain.world = s.world := rfl
  rw [resume, resume, find?_plain, hworld]
  cases s.find? ticket with
  | none => rfl
  | some q =>
    have hjob : q.plain.job = q.job := rfl
    simp only [Option.map_some, hjob]
    cases q.job.response? with
    | some response => simp only [InFlight.forMethod_plain, remove_plain]
    | none =>
      obtain ⟨⟨world, next⟩, hresume⟩ : ∃ x, q.job.resume service s.world = x := ⟨_, rfl⟩
      rw [hresume]
      cases next with
      | never => rfl
      | after delay job =>
        have hadvance (r : InFlight) :
            (if r.plain.ticket = ticket then { r.plain with job } else r.plain) =
              InFlight.plain (if r.ticket = ticket then { r with job } else r) := by
          have hticket : r.plain.ticket = r.ticket := rfl
          rw [hticket]
          split <;> rfl
        simp only [plain, List.map_map, Function.comp_def, hadvance]

/-- The methods of requests in flight make no difference to what happens next, as long as it stays
the same which of them are `HEAD`. -/
theorem step_plain (service : Service σ) (tearDown : σ → σ) (o : Occurrence σ) (s : Server σ) :
    (s.plain.step service tearDown o).1 = (s.step service tearDown o).1 ∧
      (s.plain.step service tearDown o).2.plain = (s.step service tearDown o).2.plain := by
  cases o with
  | request request fault => exact ⟨rfl, accept_plain request fault s⟩
  | resume ticket =>
    simp only [step, resume_plain, plain_plain, and_self]
  | cutOff ticket =>
    simp only [step, cutOff_plain, plain_plain, and_self]
  | change f => exact ⟨rfl, plain_plain { s with world := f s.world }⟩
  | destroy =>
    have hdestroy : s.plain.destroy = s.destroy.plain := by
      have hphase : s.plain.phase = s.phase := rfl
      rw [destroy, destroy, hphase]
      cases s.phase <;> rfl
    refine ⟨rfl, ?_⟩
    rw [step, step, hdestroy, plain_plain]
  | finish =>
    have hfinish : s.plain.finish tearDown = (s.finish tearDown).plain := by
      have hphase : s.plain.phase = s.phase := rfl
      have hempty : s.plain.inFlight.isEmpty = s.inFlight.isEmpty := List.isEmpty_map
      rw [finish, finish, hphase, hempty]
      split <;> rfl
    refine ⟨rfl, ?_⟩
    rw [step, step, hfinish, plain_plain]

/-! ### Sequences -/

theorem run_cons (service : Service σ) (tearDown : σ → σ) (o : Occurrence σ)
    (os : List (Occurrence σ)) (s : Server σ) :
    run service tearDown (o :: os) s =
      ((s.step service tearDown o).1.toList ++
          (run service tearDown os (s.step service tearDown o).2).1,
        (run service tearDown os (s.step service tearDown o).2).2) := rfl

/-- What happens later happens to what has come of what happened before. -/
theorem run_append (service : Service σ) (tearDown : σ → σ) (before after : List (Occurrence σ))
    (s : Server σ) :
    run service tearDown (before ++ after) s =
      ((run service tearDown before s).1 ++
          (run service tearDown after (run service tearDown before s).2).1,
        (run service tearDown after (run service tearDown before s).2).2) := by
  induction before generalizing s with
  | nil => rfl
  | cons o before ih => simp only [List.cons_append, run_cons, ih, List.append_assoc]

/-- Nor do they to anything that ever happens. -/
theorem run_plain (service : Service σ) (tearDown : σ → σ) (os : List (Occurrence σ))
    {s s' : Server σ} (h : s.plain = s'.plain) :
    (run service tearDown os s).1 = (run service tearDown os s').1 ∧
      (run service tearDown os s).2.plain = (run service tearDown os s').2.plain := by
  induction os generalizing s s' with
  | nil => exact ⟨rfl, h⟩
  | cons o os ih =>
    obtain ⟨hanswer, hnext⟩ := step_plain service tearDown o s
    obtain ⟨hanswer', hnext'⟩ := step_plain service tearDown o s'
    rw [h] at hanswer hnext
    obtain ⟨hanswers, hend⟩ := ih (hnext.symm.trans hnext')
    refine ⟨?_, hend⟩
    rw [run_cons, run_cons, ← hanswer, hanswer', hanswers]

/-! ### Replacing a request -/

/-- Requests that are the same job are accepted alike. -/
theorem accept_of_start {a b : Request} (ha : a.method ≠ "HEAD") (hb : b.method ≠ "HEAD")
    (h : Job.start a fault = Job.start b fault') (s : Server σ) :
    (s.accept a fault).2.plain = (s.accept b fault').2.plain := by
  rw [accept, accept, h]
  cases s.phase with
  | serving =>
    simp only [plain, List.map_append, List.map_cons, InFlight.plain, if_neg ha, if_neg hb]
  | _ => rfl

/-- Whatever happens before and after, requests that are the same job can be exchanged. -/
theorem run_of_start (service : Service σ) (tearDown : σ → σ) {a b : Request}
    (ha : a.method ≠ "HEAD") (hb : b.method ≠ "HEAD")
    (h : Job.start a fault = Job.start b fault') (before after : List (Occurrence σ))
    (s : Server σ) :
    (run service tearDown (before ++ .request a fault :: after) s).1 =
        (run service tearDown (before ++ .request b fault' :: after) s).1 ∧
      (run service tearDown (before ++ .request a fault :: after) s).2.world =
        (run service tearDown (before ++ .request b fault' :: after) s).2.world := by
  obtain ⟨hanswers, hend⟩ := run_plain service tearDown after
    (accept_of_start ha hb h (run service tearDown before s).2)
  have hworld := congrArg world hend
  rw [run_append, run_append]
  exact ⟨congrArg (_ ++ ·) hanswers, hworld⟩

end Server

end SignIn.Party
