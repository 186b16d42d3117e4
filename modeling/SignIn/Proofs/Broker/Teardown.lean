import SignIn.Proofs.Broker.Redemption
import SignIn.Proofs.Log

/-!
# The end of a broker client

Three things make up the life of a client: a flag, the nonces and the task that purges them. Tearing
the client down changes all three at once, and nothing changes any of them afterwards, so it is
always the same client that is left over. It refuses whatever it is asked, and nobody is told before
that it was torn down.

A token is refused then without a look at it. An empty one is, and so is one whose nonce was made up
for it and could have been redeemed a moment before.

## Main definitions

* `Broker.Client.IsTornDown` — what is left over of a client
* `Broker.Deed.IsRefused` — the answer is that the client was torn down
* `Broker.Journal.EndsOnce` — what was asked of a client, before it was torn down and afterwards

## Main results

* `Broker.Client.authenticate_of_alive`, `Broker.Client.verify_of_alive` — nobody is told too early
* `Broker.Journal.Ending.note` — what every moment has to bring along
* `Broker.Site.endsOnce_after` — every use of a client, by callbacks and by others
-/

namespace SignIn.Broker

/-! ### Dialects -/

/-- Neither the start of an authentication nor the check of a token fails because a client was torn
down. That is for the client to say. -/
structure Dialect.LeavesTeardown (d : Dialect) : Prop where
  start : ∀ c, d.start c ≠ .error .destroyed
  check : ∀ c token now, d.check c token now ≠ .error .destroyed

theorem leavesTeardown_mock (flow : Mock.Flow) (mode : Mock.ResponseMode) :
    (Mock.dialect flow mode).LeavesTeardown where
  start c := by
    show c.resolve "/auth" ≠ _
    rw [Connection.resolve]
    split <;> simp
  check c token now := by
    rw [Mock.dialect]
    simp only
    split <;> simp

/-- However tokens are checked: one that is not genuine is called invalid, for some reason. -/
theorem leavesTeardown_openId (endpoint : Url) {ε : Type}
    (check : Connection → String → Instant → Except ε Statement) (reason : ε → String) :
    (OpenId.dialectWith endpoint fun c token now =>
      (check c token now).mapError fun e => .invalidToken (reason e)).LeavesTeardown where
  start _ := by simp [OpenId.dialectWith]
  check c token now := by
    rw [OpenId.dialectWith]
    cases h : check c token now <;> simp [h, Except.mapError]

/-! ### Operations -/

namespace Client

variable {d : Dialect} {c : Client} {identifier nonce state token : String} {now : Instant}

/-- What is left over of a client. -/
structure IsTornDown (c : Client) : Prop where
  isDestroyed : c.isDestroyed = true
  nonces : c.nonces = .empty
  purge : c.purge = none

theorem authenticate_of_isDestroyed (h : c.isDestroyed = true) :
    c.authenticate d identifier nonce state now = (.error (.broker .destroyed), c) :=
  if_pos h

theorem verify_of_isDestroyed (h : c.isDestroyed = true) :
    c.verify d token now = (.error .destroyed, c) :=
  if_pos h

theorem destroy_of_isDestroyed (h : c.isDestroyed = true) : c.destroy = c := if_pos h

theorem isTornDown_destroy (h : c.isDestroyed = false) : c.destroy.IsTornDown := by
  rw [destroy, h]
  exact ⟨rfl, rfl, rfl⟩

theorem IsTornDown.runPurge (h : c.IsTornDown) (time : Nat) : c.runPurge time now = c := by
  rw [Client.runPurge, h.purge]

/-- An authentication does not end a client, and does not say that anything did. -/
theorem authenticate_of_alive (hd : d.LeavesTeardown) (h : c.isDestroyed = false) :
    (c.authenticate d identifier nonce state now).1 ≠ .error (.broker .destroyed) ∧
      (c.authenticate d identifier nonce state now).2.isDestroyed = false := by
  rw [authenticate, h]
  cases hstart : d.start c.connection with
  | error e =>
    refine ⟨?_, h⟩
    rintro ⟨⟩
    exact hd.start _ hstart
  | ok url =>
    simp only [Bool.false_eq_true, if_false]
    split
    · exact ⟨by simp, h⟩
    · split
      · exact ⟨by simp, h⟩
      · exact ⟨by simp, rfl⟩

/-- Nor does a verification. -/
theorem verify_of_alive (hd : d.LeavesTeardown) (h : c.isDestroyed = false) :
    (c.verify d token now).1 ≠ .error .destroyed ∧
      (c.verify d token now).2.isDestroyed = false := by
  rw [verify, h]
  simp only [Bool.false_eq_true, if_false]
  split
  · exact ⟨by simp [reject], h⟩
  · split
    · next hcheck =>
      refine ⟨?_, h⟩
      rintro ⟨⟩
      exact hd.check _ _ _ hcheck
    · exact ⟨by simp [reject], h⟩
    · exact ⟨by simp [reject], h⟩
    · split
      · exact ⟨by simp, rfl⟩
      · exact ⟨by simp [reject], rfl⟩

end Client

/-! ### Journals -/

/-- The answer is that the client was torn down. -/
def Deed.IsRefused : Deed → Prop
  | .authenticate _ _ _ answer => answer = .error (.broker .destroyed)
  | .verify _ _ answer => answer = .error .destroyed
  | .purge _ | .destroy => False

/-- Somebody waits for an answer. -/
def Deed.HasAnswer : Deed → Prop
  | .authenticate _ _ _ _ | .verify _ _ _ => True
  | .purge _ | .destroy => False

/-- What a moment is like behind earlier ones: before the client is torn down, and afterwards. -/
structure Moment.Follows (m : Moment) (earlier : List Moment) : Prop where
  /-- Nobody is refused before the client is torn down. -/
  answered : (∀ n ∈ earlier, n.deed ≠ .destroy) → ¬m.deed.IsRefused
  alive : (∀ n ∈ earlier ++ [m], n.deed ≠ .destroy) → m.client.isDestroyed = false
  tornDown : (∃ n ∈ earlier ++ [m], n.deed = .destroy) → m.client.IsTornDown
  /-- Afterwards everybody is. -/
  refused : (∃ n ∈ earlier, n.deed = .destroy) → m.deed.HasAnswer → m.deed.IsRefused
  /-- And nothing changes the client any more. -/
  unchanged : ∀ n ∈ earlier, n.deed = .destroy → m.client = n.client

namespace Journal

/-- Every moment is as it has to be behind the earlier ones. -/
def EndsOnce (j : Journal) : Prop :=
  ∀ earlier m later, j.moments = earlier ++ m :: later → m.Follows earlier

/-- What every act preserves: the client is what the moments tell. -/
structure Ending (j : Journal) : Prop where
  endsOnce : j.EndsOnce
  alive : (∀ n ∈ j.moments, n.deed ≠ .destroy) → j.client.isDestroyed = false
  tornDown : ∀ n ∈ j.moments, n.deed = .destroy → j.client = n.client ∧ j.client.IsTornDown

variable {j : Journal} {d : Dialect}

/-- A new moment has to bring along what an alive client does, and what one that was torn down
does. -/
theorem Ending.note (h : j.Ending) {now : Instant} {deed : Deed} {client : Client}
    (halive : j.client.isDestroyed = false → ¬deed.IsRefused ∧
      (deed ≠ .destroy → client.isDestroyed = false) ∧ (deed = .destroy → client.IsTornDown))
    (htornDown : j.client.IsTornDown →
      client = j.client ∧ (deed.HasAnswer → deed.IsRefused)) :
    (j.note now deed client).Ending := by
  by_cases hdestroyed : ∃ n ∈ j.moments, n.deed = .destroy
  · obtain ⟨n, hn, hdeed⟩ := hdestroyed
    obtain ⟨-, hgone⟩ := h.tornDown n hn hdeed
    obtain ⟨rfl, hrefused⟩ := htornDown hgone
    have hsame : ∀ n ∈ j.moments, n.deed = .destroy → j.client = n.client :=
      fun n hn hdeed => (h.tornDown n hn hdeed).1
    refine ⟨Log.forall_concat_iff.2 ⟨h.endsOnce, ?_⟩, fun hnone => ?_, fun m hm hdeed' => ?_⟩
    · exact {
        answered := fun hnone => absurd hdeed (hnone n hn)
        alive := fun hnone => absurd hdeed (hnone n (List.mem_append_left _ hn))
        tornDown := fun _ => hgone
        refused := fun _ => hrefused
        unchanged := hsame }
    · exact absurd hdeed (hnone n (List.mem_append_left _ hn))
    · obtain hm | hm := List.mem_append.1 hm
      · exact ⟨hsame m hm hdeed', hgone⟩
      · rw [List.mem_singleton.1 hm]
        exact ⟨rfl, hgone⟩
  · have hnone : ∀ n ∈ j.moments, n.deed ≠ .destroy :=
      fun n hn hdeed => hdestroyed ⟨n, hn, hdeed⟩
    obtain ⟨hanswered, hkept, hended⟩ := halive (h.alive hnone)
    have hlast : ⟨now, deed, client⟩ ∈ j.moments ++ [⟨now, deed, client⟩] :=
      List.mem_append_right _ (List.mem_singleton_self _)
    have hnew : ∀ n ∈ j.moments ++ [⟨now, deed, client⟩], n.deed = .destroy →
        n = ⟨now, deed, client⟩ := by
      intro n hn hdeed
      obtain hn | hn := List.mem_append.1 hn
      · exact absurd hdeed (hnone n hn)
      · exact List.mem_singleton.1 hn
    refine ⟨Log.forall_concat_iff.2 ⟨h.endsOnce, ?_⟩, fun hall => ?_, fun m hm hdeed => ?_⟩
    · exact {
        answered := fun _ => hanswered
        alive := fun hall => hkept (hall _ hlast)
        tornDown := by
          rintro ⟨n, hn, hdeed⟩
          obtain rfl := hnew n hn hdeed
          exact hended hdeed
        refused := fun hsome => absurd hsome hdestroyed
        unchanged := fun n hn hdeed => absurd hdeed (hnone n hn) }
    · exact hkept (hall _ hlast)
    · obtain rfl := hnew m hm hdeed
      exact ⟨rfl, hended hdeed⟩

theorem Ending.authenticate (h : j.Ending) (hd : d.LeavesTeardown)
    (identifier nonce state : String) (now : Instant) :
    (j.authenticate d identifier nonce state now).Ending := by
  show (j.note now (.authenticate identifier nonce state
    (j.client.authenticate d identifier nonce state now).1)
      (j.client.authenticate d identifier nonce state now).2).Ending
  refine h.note (fun halive => ?_) fun hgone => ?_
  · obtain ⟨hanswer, hclient⟩ := Client.authenticate_of_alive hd halive
    exact ⟨hanswer, fun _ => hclient, nofun⟩
  · rw [Client.authenticate_of_isDestroyed hgone.isDestroyed]
    exact ⟨rfl, fun _ => rfl⟩

theorem Ending.verify (h : j.Ending) (hd : d.LeavesTeardown) (callback : Option Nat)
    (token : String) (now : Instant) : (j.verify d callback token now).1.Ending := by
  show (j.note now (.verify callback token (j.client.verify d token now).1)
    (j.client.verify d token now).2).Ending
  refine h.note (fun halive => ?_) fun hgone => ?_
  · obtain ⟨hanswer, hclient⟩ := Client.verify_of_alive hd halive
    exact ⟨hanswer, fun _ => hclient, nofun⟩
  · rw [Client.verify_of_isDestroyed hgone.isDestroyed]
    exact ⟨rfl, fun _ => rfl⟩

theorem Ending.purge (h : j.Ending) (time : Nat) (now : Instant) : (j.purge time now).Ending := by
  refine h.note (fun halive => ?_) fun hgone => ?_
  · obtain ⟨-, hsame, -⟩ := j.client.runPurge_spec time now
    exact ⟨id, fun _ => hsame.trans halive, nofun⟩
  · exact ⟨hgone.runPurge time, nofun⟩

theorem Ending.destroy (h : j.Ending) (now : Instant) : (j.destroy now).Ending := by
  refine h.note (fun halive => ?_) fun hgone => ?_
  · exact ⟨id, fun hne => absurd rfl hne, fun _ => Client.isTornDown_destroy halive⟩
  · exact ⟨Client.destroy_of_isDestroyed hgone.isDestroyed, nofun⟩

end Journal

namespace Site

variable {d : Dialect} {c : Connection} {site : Site}

theorem ending_step (hd : d.LeavesTeardown) (h : site.journal.Ending) (now : Instant) (act : Act) :
    (site.step d c now act).journal.Ending := by
  cases act with
  | authenticate identifier nonce state => exact h.authenticate hd identifier nonce state now
  | verify token => exact h.verify hd none token now
  | purge time => exact h.purge time now
  | destroy => exact h.destroy now
  | arrive p => exact h
  | resume callback grant =>
    cases hcallback : site.callbacks[callback]? with
    | none => simpa [Site.step, hcallback] using h
    | some run =>
      obtain ⟨delay, next, j, hresume, hspec⟩ :=
        resume_spec d c callback now grant run site.journal
      have hstep : (site.step d c now (.resume callback grant)).journal = j := by
        simp [Site.step, hcallback, hresume]
      rw [hstep]
      obtain ⟨rfl, -⟩ | ⟨token, rfl, -⟩ := hspec
      · exact h
      · exact h.verify hd (some callback) token now

/-- Whatever is asked of a client, by callbacks and by others, it ends once. -/
theorem endsOnce_after (hd : d.LeavesTeardown) (c : Connection) (time : Nat)
    (acts : List (Instant × Act)) : (after d c time acts).journal.EndsOnce := by
  have hrun : ∀ site : Site, site.journal.Ending →
      (acts.foldl (fun site act => site.step d c act.1 act.2) site).journal.Ending := by
    induction acts with
    | nil => exact fun _ h => h
    | cons act acts ih => exact fun site h => ih _ (ending_step hd h act.1 act.2)
  have hstart : (start c time).journal.Ending :=
    ⟨fun earlier m later hmoments => absurd hmoments (by simp [start]), fun _ => rfl,
      fun n hn => absurd hn List.not_mem_nil⟩
  exact (hrun _ hstart).endsOnce

end Site

end SignIn.Broker
