import HostedRepo.Proofs.CallOpenings

/-!
# Talks

What has come of handing a request to the transport. Unless the request is held up, it goes out
first, and what follows are the redirects of it.
-/

namespace HostedRepo

open Http

/-- What has come of sending a request: what went out for it and its redirects, the responses, and
the outcome. -/
structure Talk where
  requests : List Request
  responses : List Response
  outcome : Except Fault Response

namespace Talk

/-- The final response has a status of a kind. -/
def Ends (t : Talk) (P : Status → Prop) : Prop :=
  ∃ response, t.outcome = .ok response ∧ P response.status

/-- The response that a talk ends with, if it is a success. -/
def answer (t : Talk) (resource : String) : Except RemoteError Response :=
  t.outcome.mapError .transport >>= Client.checked resource

variable {t : Talk} {resource : String} {response : Response}

lemma answer_eq_ok_iff :
    t.answer resource = .ok response ↔
      t.outcome = .ok response ∧ response.status.isSuccess = true := by
  unfold answer
  cases t.outcome with
  | error f => exact ⟨nofun, nofun⟩
  | ok found =>
    constructor
    · intro h
      obtain ⟨rfl, hs⟩ := Client.checked_eq_ok h
      exact ⟨rfl, hs⟩
    · rintro ⟨h, hs⟩
      cases h
      exact if_pos hs

lemma answer_eq_notFound_iff :
    (∃ what, t.answer resource = .error (.notFound what)) ↔ t.Ends (· = 404) := by
  unfold answer Ends
  cases t.outcome with
  | error f => exact ⟨nofun, nofun⟩
  | ok found =>
    simp only [Except.ok.injEq, exists_eq_left']
    change (∃ what, Client.checked resource found = _) ↔ _
    unfold Client.checked
    split
    · next hs =>
      refine iff_of_false nofun fun h => ?_
      rw [h] at hs
      cases hs
    · split
      · next h => exact iff_of_true ⟨_, rfl⟩ h
      · next h => exact iff_of_false nofun h

lemma answer_done_iff :
    (t.answer resource).map (fun _ => ()) = .ok () ↔ t.Ends (·.isSuccess = true) := by
  constructor
  · intro h
    obtain ⟨response, hanswer, -⟩ := map_eq_ok h
    exact ⟨response, answer_eq_ok_iff.mp hanswer⟩
  · rintro ⟨response, hended⟩
    rw [answer_eq_ok_iff.mpr hended]
    rfl

lemma answer_missing_iff :
    (∃ what, (t.answer resource).map (fun _ => ()) = .error (.notFound what)) ↔
      t.Ends (· = 404) := by
  rw [← answer_eq_notFound_iff]
  cases t.answer resource with
  | error e => simp [Except.map]
  | ok response => exact ⟨nofun, nofun⟩

end Talk

/-- Where a request that opens a call goes, seen from the endpoint of the call. -/
def Opening.target (o : Opening) (u : Url) : Url :=
  o.query.foldl (fun u (name, value) => u.withPair name value) u.withoutUserinfo

namespace Client

variable {α : Type} {c : Client}

/-- Why a request never goes out: its URL has no host or is none of the web, a header cannot be sent,
or the target is out of reach. -/
inductive HeldUp (c : Client) (o : Opening) (u : Url) (reaches : Url → Bool) : Prop
  | noHost : u.host? = none → HeldUp c o u reaches
  | header : (c.headers o.accept).all (isHeaderValue ·.2) = false → HeldUp c o u reaches
  | scheme : Agent.isWeb (o.target u) = false → HeldUp c o u reaches
  | unreached : reaches (o.target u) = false → HeldUp c o u reaches

/-- A talk that a client has for a request at its endpoint, and how it leaves the wire. -/
structure Conducts (c : Client) (o : Opening) (u : Url) (w : Wire) (t : Talk) (w' : Wire) :
    Prop where
  endpoint : c.endpoint o.segments = .ok u
  /-- The outcome is what the transport hands back for the request. -/
  handed : (c.agent.send (Agent.prepare o.method u o.query (c.headers o.accept) o.body)).run w =
    (t.outcome, w')
  carries : w.Carries t.requests t.responses w'
  /-- The request goes out first, or it is held up and nothing goes out. -/
  first : (c.HeldUp o u w.reaches ∧ t.requests = [] ∧ w' = w ∧ ∃ f, t.outcome = .error f) ∨
    ∃ q later, t.requests = q :: later ∧ q.method = o.method ∧ q.url = o.target u ∧ q.body = o.body
  /-- Redirects may make a plain read of the request. -/
  asks : ∀ q ∈ t.requests, q.Asks o.method o.body
  /-- A response that is the outcome is the last one, and answers the last request. -/
  final : ∀ response, t.outcome = .ok response →
    t.responses.getLast? = some response ∧ t.requests.length = t.responses.length

variable {o : Opening} {u : Url}

lemma heldUp_of_unsent {reaches : Url → Bool}
    (h : ∀ r, Agent.prepare o.method u o.query (c.headers o.accept) o.body = .ok r →
      Agent.isWeb r.url = true → reaches r.url = false) : c.HeldUp o u reaches := by
  by_cases hhost : u.host? = none
  · exact .noHost hhost
  by_cases hheaders : (c.headers o.accept).all (isHeaderValue ·.2) = true
  · have hprepare : Agent.prepare o.method u o.query (c.headers o.accept) o.body =
        .ok (Agent.prepared o.method u o.query (c.headers o.accept) o.body) := by
      rw [Agent.prepare_eq, hheaders, if_neg (by simpa using hhost)]
      rfl
    by_cases hweb : Agent.isWeb (o.target u) = true
    · exact .unreached (h _ hprepare hweb)
    · exact .scheme (by simpa using hweb)
  · exact .header (by simpa using hheaders)

/-- Sending a request to the API is a talk about it. -/
lemma send_conducts (hu : c.endpoint o.segments = .ok u) (w : Wire) :
    ∃ (t : Talk) (w' : Wire),
      (c.send o.method u o.accept o.query o.body).run w = (t.outcome.mapError .transport, w') ∧
        c.Conducts o u w t w' := by
  rw [send, transmit_run]
  obtain ⟨hunsent, f, h⟩ | hfollows :=
    c.agent.send_prepare_follows o.method u o.query (c.headers o.accept) o.body w
  · rw [h]
    refine ⟨⟨[], [], .error f⟩, w, rfl, hu, h, .refl w, ?_, by simp, by simp⟩
    exact .inl ⟨heldUp_of_unsent hunsent, rfl, rfl, f, rfl⟩
  · rcases hsent : (c.agent.send (Agent.prepare o.method u o.query (c.headers o.accept)
      o.body)).run w with ⟨x, w'⟩
    rw [hsent] at hfollows
    obtain ⟨qs, used, hchain⟩ := hfollows.chain (R := fun _ => True)
      (fun _ q response u hq _ _ => Agent.redirected_asks q response.status u hq)
      (.inl ⟨rfl, rfl⟩) (by simp)
    obtain ⟨later, hfirst⟩ := hchain.first
    refine ⟨⟨qs, used, x⟩, w', rfl, hu, hsent, hchain.carries, ?_, hchain.kept, ?_⟩
    · exact .inr ⟨_, later, hfirst, rfl, rfl, rfl⟩
    · intro response hx
      obtain ⟨earlier, q, before, rfl, rfl, hlen⟩ := hchain.last response hx
      exact ⟨List.getLast?_concat, by simp [hlen]⟩

lemma Concludes.conducts {resource : String} {read : Response → Except RemoteError α}
    {x : Exchange α} (h : c.Concludes o resource read x) (hu : c.endpoint o.segments = .ok u)
    (w : Wire) :
    ∃ (t : Talk) (e : Log.Event) (w' : Wire), x.run w = (t.answer resource >>= read, w') ∧
      c.Conducts o u (w.report e) t w' := by
  obtain ⟨e, hrun⟩ := h u w hu
  obtain ⟨t, w', hsend, ht⟩ := send_conducts hu (w.report e)
  rw [hsend] at hrun
  exact ⟨t, e, w', hrun, ht⟩

end Client
end HostedRepo
