import Mathlib.Data.List.TakeWhile
import SignIn.Proofs.Party.Deadline
import SignIn.Proofs.Party.Server

/-!
# Callbacks by `GET` and by `POST`

A browser brings a callback in the query of a `GET` request or in the body of a `POST` request, and
a `POST` request can have a query as well. Which of the two the relying party looks at is decided by
the body alone. A body with a field in it counts and the query does not, and then the request is
handled as if the body were the query of a `GET` request. Otherwise the query counts, whatever is
wrong with the body: that it is said to be something else, that it is too long, that it breaks off,
or that there is nothing in it.

Query and body are read by one reader, so this does not depend on how a field is written. What can
be put behind the question mark of a target is all that can be said in both ways; of a target, a
fragment is cut off before it is sent.

## Main definitions

* `Http.Request.post` — a `POST` request for a target, with any content
* `Http.Request.BringsNoField` — why the query of a `POST` request counts
* `Party.Service.HandlesAlike` — two requests between which nobody can tell a difference

## Main results

* `Party.Service.posted_alike` — every `POST` request is handled like a `GET` request
-/

namespace SignIn

namespace Http.Request

/-- A `POST` request for a target, with any content. -/
def post (target : String) (contentType : Option String) (body : Bytes) : Request :=
  { ofTarget "POST" target with contentType, body }

/-- There is no field in the body of a request, for one of these reasons. -/
inductive BringsNoField (r : Request) : (fault : Option String) → Prop
  | otherType {fault : Option String} (h : r.saysForm = false) : BringsNoField r fault
  | tooLong {fault : Option String} (h : bodyLimit < r.body.length) : BringsNoField r fault
  | brokenOff (reason : String) : BringsNoField r (some reason)
  | empty {fault : Option String} (h : Form.decode r.body = []) : BringsNoField r fault

/-- A text that can be the query of a target: it does not hold the mark of a fragment, and it is not
longer than a body can be. Servers accept only targets that are much shorter than that. -/
structure IsQuery (text : String) : Prop where
  noFragment : '#' ∉ text.toList
  short : (Utf8.encode text).length ≤ bodyLimit

variable {request : Request} {fault : Option String} {query : String}

/-- Without a field, a body is as good as an empty form. -/
theorem BringsNoField.bodyForm (h : request.BringsNoField fault) :
    (request.bodyForm fault).toOption.getD [] = [] := by
  rw [Request.bodyForm.eq_def]
  cases h with
  | otherType h =>
    rw [h]
    rfl
  | tooLong h =>
    rw [if_pos h]
    split <;> rfl
  | brokenOff reason =>
    split
    · rfl
    · split <;> rfl
  | empty h =>
    rw [h]
    split
    · rfl
    · split
      · rfl
      · cases fault <;> rfl

/-- A text in the body of a request that says so is a form. -/
theorem bodyForm_of_isQuery (htype : request.saysForm) (hbody : request.body = Utf8.encode query)
    (hquery : IsQuery query) : request.bodyForm = .ok (Form.ofText query) := by
  rw [Request.bodyForm, htype, hbody, if_neg (Nat.not_lt.2 hquery.short)]
  rfl

/-- What stands behind the question mark of a target is its query. -/
theorem ofTarget_append (method : String) (hquery : '#' ∉ query.toList) :
    (ofTarget method ("/verify?" ++ query)).path = "/verify" ∧
      (ofTarget method ("/verify?" ++ query)).query = some query := by
  have htext : ("/verify?" ++ query).toList =
      ['/', 'v', 'e', 'r', 'i', 'f', 'y', '?'] ++ query.toList := by
    rw [String.toList_append]
    rfl
  have hkept : ∀ c ∈ ("/verify?" ++ query).toList, decide (c ≠ '#') = true := by
    intro c hc
    refine decide_eq_true ?_
    rintro rfl
    rw [htext] at hc
    obtain hc | hc := List.mem_append.1 hc
    · exact absurd hc (by decide)
    · exact hquery hc
  have hwhole : ("/verify?" ++ query).toList.takeWhile (· ≠ '#') = ("/verify?" ++ query).toList :=
    List.takeWhile_eq_self_iff.2 hkept
  rw [ofTarget, hwhole, htext]
  exact ⟨rfl, congrArg some (String.ofList_toList)⟩

end Http.Request

namespace Party

open Http

variable {σ : Type} {request : Request} {fault : Option String}

/-! ### The callback of a request -/

/-- Without a field in the body, the query counts. -/
theorem Job.postedCallback_of_bringsNoField (h : request.BringsNoField fault) :
    postedCallback request fault = .ofForm request.queryForm := by
  rw [postedCallback, h.bodyForm]
  rfl

/-! ### Both ways of bringing a callback -/

/-- Nobody can tell a difference between two requests, of which the first one may have broken off.
They bring the same callback, that of the query of the second one, so it comes to the same outcome.
They are served alike: with the same calls, among them the event and the lines of the log, and with
the same response. And this is so among any other requests, whatever else happens in the
meantime. -/
structure Service.HandlesAlike (service : Service σ) (a : Request) (fault : Option String)
    (b : Request) : Prop where
  callback : Job.start a fault = .callback (.start (.ofForm b.queryForm)) ∧
    Job.start b = .callback (.start (.ofForm b.queryForm))
  served : ∀ r : Callback.Recorded σ,
    service.recorded.serve a r fault = service.recorded.serve b r
  interleaved : ∀ tearDown before after (server : Server (Callback.Recorded σ)),
    (Server.run service.recorded tearDown (before ++ .request a fault :: after) server).1 =
        (Server.run service.recorded tearDown (before ++ .request b :: after) server).1 ∧
      (Server.run service.recorded tearDown (before ++ .request a fault :: after) server).2.world =
        (Server.run service.recorded tearDown (before ++ .request b :: after) server).2.world

theorem Service.HandlesAlike.of_start (service : Service σ) {a b : Request}
    (ha : a.method ≠ "HEAD") (hmethod : b.method = "GET") (hpath : b.path = "/verify")
    (hstart : Job.start a fault = .callback (.start (.ofForm b.queryForm))) :
    service.HandlesAlike a fault b := by
  have hb : b.method ≠ "HEAD" := by
    rw [hmethod]
    decide
  have hstart' := Job.start_of_query hmethod hpath rfl
  have hsame := hstart.trans hstart'.symm
  exact {
    callback := ⟨hstart, hstart'⟩
    served := service.recorded.serve_eq_of_start ha hb hsame
    interleaved := fun tearDown => Server.run_of_start service.recorded tearDown ha hb hsame }

/-- A `POST` request for `/verify` is handled like a `GET` request. If there is no field in its
body, for whatever reason, that is the `GET` request for the same target. If there is one, it is the
`GET` request that has the body as its query, whatever the query of the `POST` request holds. -/
theorem Service.posted_alike (service : Service σ) {target : String}
    (htarget : (Request.ofTarget "GET" target).path = "/verify") :
    (∀ contentType body fault, (Request.post target contentType body).BringsNoField fault →
      service.HandlesAlike (.post target contentType body) fault (.ofTarget "GET" target)) ∧
    ∀ contentType query, (Request.post target contentType (Utf8.encode query)).saysForm →
      Request.IsQuery query → Form.ofText query ≠ [] →
        service.HandlesAlike (.post target contentType (Utf8.encode query)) none
          (.ofTarget "GET" ("/verify?" ++ query)) := by
  have hpost : "POST" ≠ "HEAD" := by decide
  have hposted (contentType : Option String) (body : Bytes) :
      (Request.post target contentType body).path = "/verify" := htarget
  constructor
  · intro contentType body fault hbody
    refine .of_start service hpost rfl htarget ?_
    rw [Job.start_post rfl (hposted contentType body),
      Job.postedCallback_of_bringsNoField hbody]
    rfl
  · intro contentType query htype hquery hfields
    obtain ⟨hpath, hbehind⟩ := Request.ofTarget_append "GET" hquery.noFragment
    have hform : (Request.ofTarget "GET" ("/verify?" ++ query)).queryForm = Form.ofText query := by
      rw [Request.queryForm, hbehind]
      rfl
    refine .of_start service hpost rfl hpath ?_
    rw [hform, Job.start_post rfl (hposted contentType _),
      Job.postedCallback_of_bodyForm (Request.bodyForm_of_isQuery htype rfl hquery) hfields]

/-- A body that breaks off makes room for the query. A form in the body, with an escape, a plus sign
and an empty stretch in it, does not. -/
theorem posted_alike_token :
    let service : Service Unit :=
      { Callback.Parties.ofAnswers "http://localhost:44180/verify" (fun _ _ => .ok ⟨""⟩)
          fun _ => .error .destroyed with
        authenticate := fun _ s => (s, .never)
        requestTimeout := .seconds 1 }
    let type := some Request.formType
    (Request.ofTarget "GET" "/verify?id_token=bad").path = "/verify" ∧
      service.HandlesAlike (.post "/verify?id_token=bad" type [0x69]) (some "connection reset")
        (.ofTarget "GET" "/verify?id_token=bad") ∧
      service.HandlesAlike (.post "/verify?id_token=bad" type (Utf8.encode "id_token=%2B+&&")) none
        (.ofTarget "GET" ("/verify?" ++ "id_token=%2B+&&")) := by
  intro service type
  have htarget : (Request.ofTarget "GET" "/verify?id_token=bad").path = "/verify" := by decide
  obtain ⟨hquery, hbody⟩ := service.posted_alike htarget
  refine ⟨htarget, hquery type [0x69] _ (.brokenOff _), hbody type "id_token=%2B+&&" ?_ ?_ ?_⟩
  · decide
  · exact ⟨by decide, by decide +kernel⟩
  · decide +kernel

end Party

end SignIn
