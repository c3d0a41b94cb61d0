import HostedRepo.Client.Run
import HostedRepo.Proofs.RedirectChain
import HostedRepo.Proofs.StateTriples

/-!
# What exchanges send

Triples for exchanges, whatever relation they move the wire along. In the triple that is used most,
while the responses that are left on the wire have a property, every request that is sent has
another one, and a result that is not an error a third. The triple of a plan that is run on a client
comes from those of its calls and downloads.
-/

namespace HostedRepo

open Http

namespace Http.Wire

variable {P S : Request → Prop} {w w₁ w₂ w₃ : Wire}

/-- Between two states of a wire only requests with a property were sent. -/
def Passes (P : Request → Prop) (w w' : Wire) : Prop :=
  ∃ qs used, w.Carries qs used w' ∧ ∀ q ∈ qs, P q

lemma Passes.refl (w : Wire) : w.Passes P w := ⟨[], [], .refl w, by simp⟩

lemma Passes.report (e : Log.Event) (w : Wire) : w.Passes P (w.report e) :=
  ⟨[], [], .report e w, by simp⟩

lemma Passes.trans (h₁ : w₁.Passes P w₂) (h₂ : w₂.Passes P w₃) : w₁.Passes P w₃ := by
  obtain ⟨qs, used, hc, hq⟩ := h₁
  obtain ⟨qs', used', hc', hq'⟩ := h₂
  refine ⟨qs ++ qs', used ++ used', hc.trans hc', fun q hmem => ?_⟩
  rcases List.mem_append.mp hmem with hmem | hmem
  · exact hq q hmem
  · exact hq' q hmem

lemma Passes.imp (h : w₁.Passes P w₂) (hP : ∀ q, P q → S q) : w₁.Passes S w₂ := by
  obtain ⟨qs, used, hc, hq⟩ := h
  exact ⟨qs, used, hc, fun q hmem => hP q (hq q hmem)⟩

lemma Passes.mem_responses (h : w₁.Passes P w₂) {r : Response} (hr : r ∈ w₂.responses) :
    r ∈ w₁.responses := by
  obtain ⟨qs, used, hc, -⟩ := h
  rw [hc.responses]
  exact List.mem_append_right used hr

lemma Passes.sent (h : w₁.Passes P w₂) (hP : ∀ q, P q → S q.onWire) :
    ∃ reqs, w₂.sent = w₁.sent ++ reqs ∧ ∀ q ∈ reqs, S q := by
  obtain ⟨qs, used, hc, hq⟩ := h
  exact ⟨qs.map Request.onWire, hc.sent, List.forall_mem_map.mpr fun q hmem => hP q (hq q hmem)⟩

end Http.Wire

/-- A relation between the states of a wire that reports do not leave. -/
structure Http.Wire.Tracked (I : Wire → Prop) (T : Wire → Wire → Prop) : Prop
    extends Track I T where
  report : ∀ (e : Log.Event) (w : Wire), T w (w.report e)

lemma Http.Wire.passes_tracked (R : Response → Prop) (P : Request → Prop) :
    Wire.Tracked (fun w => ∀ r ∈ w.responses, R r) (Wire.Passes P) where
  refl := .refl
  trans := .trans
  kept h hw r hr := hw r (h.mem_responses hr)
  report := .report

section Triples

variable {α β : Type} {R : Response → Prop} {P : Request → Prop} {Q : α → Prop} {S : β → Prop}

/-- With responses in `R`, an exchange sends requests in `P` and ends in `Q` or with an error. -/
def Sends (R : Response → Prop) (P : Request → Prop) (x : Exchange α) (Q : α → Prop) : Prop :=
  ∀ w : Wire, (∀ r ∈ w.responses, R r) →
    w.Passes P (x.run w).2 ∧ ∀ a, (x.run w).1 = .ok a → Q a

lemma Sends.bind {x : Exchange α} {f : α → Exchange β} (hx : Sends R P x Q)
    (hf : ∀ a, Q a → Sends R P (f a) S) : Sends R P (x >>= f) S :=
  (Wire.passes_tracked R P).bind hx hf

lemma Sends.imp {Q' : α → Prop} {x : Exchange α} (hx : Sends R P x Q) (hQ : ∀ a, Q a → Q' a) :
    Sends R P x Q' :=
  Along.imp hx hQ

end Triples

namespace Http.Agent

/-- The request that is prepared when nothing stands against it. -/
def prepared (method : Method) (u : Url) (query : List (String × String)) (headers : Headers)
    (body : Option Json.Value) : Request where
  method := method
  url := query.foldl (fun u (name, value) => u.withPair name value) u.withoutUserinfo
  headers := basicHeader u ++ headers ++
    (if body.isSome then [("content-type", "application/json")] else [])
  body := body

lemma prepare_eq (method : Method) (u : Url) (query : List (String × String)) (headers : Headers)
    (body : Option Json.Value) :
    prepare method u query headers body =
      if u.host?.isNone then .error (.noHost u)
      else if !headers.all (isHeaderValue ·.2) then .error .headerValue
      else .ok (prepared method u query headers body) := rfl

lemma eq_prepared {method : Method} {u : Url} {query : List (String × String)} {headers : Headers}
    {body : Option Json.Value} {r : Request} (h : prepare method u query headers body = .ok r) :
    r = prepared method u query headers body := by
  rw [prepare_eq] at h
  split at h
  · cases h
  · split at h
    · cases h
    · cases h
      rfl

/-- What is sent is a prepared request and what the responses lead to, or nothing if the request
cannot be prepared or does not reach its target. -/
lemma send_prepare_follows (a : Agent) (m : Method) (u : Url) (query : List (String × String))
    (headers : Headers) (body : Option Json.Value) (w : Wire) :
    ((∀ r, prepare m u query headers body = .ok r → isWeb r.url = true →
          w.reaches r.url = false) ∧
        ∃ f, (a.send (prepare m u query headers body)).run w = (.error f, w)) ∨
      let r := prepared m u query headers body
      let sent := (a.send (prepare m u query headers body)).run w
      a.Follows { r with headers := a.withDefaults r.headers } w sent.1 sent.2 := by
  cases hp : prepare m u query headers body with
  | error f => exact .inl ⟨fun _ h => (by cases h), f, rfl⟩
  | ok r =>
    obtain rfl := eq_prepared hp
    refine (a.send_follows (prepared m u query headers body) w).imp_left ?_
    exact fun ⟨hreach, hnone⟩ => ⟨fun r hr => Except.ok.inj hr ▸ hreach, hnone⟩

end Http.Agent

namespace Client

variable {α : Type} {R : Response → Prop} {P : Request → Prop} {I : Wire → Prop}
  {T : Wire → Wire → Prop}

lemma of_along (ht : Track I T) (r : Except RemoteError α) :
    Along I T (Exchange.of r) (r = .ok ·) :=
  fun w _ => ⟨ht.refl w, fun _ h => h⟩

lemma report_along (ht : Wire.Tracked I T) (source : Log.Source) (message : String)
    (fields : List (String × String)) : Along I T (report source message fields) fun _ => True :=
  fun w _ => ⟨ht.report _ w, fun _ _ => trivial⟩

lemma sends_of (r : Except RemoteError α) : Sends R P (Exchange.of r) (r = .ok ·) :=
  of_along (Wire.passes_tracked R P).toTrack r

lemma sends_report (source : Log.Source) (message : String) (fields : List (String × String)) :
    Sends R P (report source message fields) fun _ => True :=
  report_along (Wire.passes_tracked R P) source message fields

lemma transmit_run (a : Agent) (r : Except Fault Request) (w : Wire) :
    (transmit a r).run w = (((a.send r).run w).1.mapError .transport, ((a.send r).run w).2) := rfl

lemma transmit_follows (a : Agent) (m : Method) (u : Url) (query : List (String × String))
    (headers : Headers) (body : Option Json.Value) (w : Wire) :
    (∃ f, (transmit a (Agent.prepare m u query headers body)).run w =
        (.error (.transport f), w)) ∨
      ∃ x w', (transmit a (Agent.prepare m u query headers body)).run w =
          (x.mapError .transport, w') ∧
        let r := Agent.prepared m u query headers body
        a.Follows { r with headers := a.withDefaults r.headers } w x w' := by
  rw [transmit_run]
  obtain ⟨-, f, h⟩ | h := a.send_prepare_follows m u query headers body w
  · rw [h]
    exact .inl ⟨f, rfl⟩
  · exact .inr ⟨_, _, rfl, h⟩

lemma sends_transmit {a : Agent} {m : Method} {u : Url} {query : List (String × String)}
    {headers : Headers} {body : Option Json.Value}
    (hP : a.follows = true → ∀ q response u, P q → R response →
      Agent.target? q.url response = some u → P (Agent.redirected q response.status u))
    (hr : let r := Agent.prepared m u query headers body
      P { r with headers := a.withDefaults r.headers }) :
    Sends R P (transmit a (Agent.prepare m u query headers body)) R := by
  intro w hw
  obtain ⟨e, h⟩ | ⟨x, w', h, hfollows⟩ :=
    transmit_follows a m u query headers body w
  · rw [h]
    exact ⟨.refl w, fun _ h => by cases h⟩
  · obtain ⟨qs, used, hchain⟩ := hfollows.chain hP hr hw
    rw [h]
    refine ⟨⟨qs, used, hchain.carries, hchain.kept⟩, fun response hresponse => ?_⟩
    cases x with
    | error f => cases hresponse
    | ok answer =>
      cases hresponse
      obtain ⟨-, -, before, -, hused, -⟩ := hchain.last response rfl
      exact hw response (by rw [hchain.carries.responses, hused]; simp)

/-! ### What bodies are blamed for -/

section

variable {E : RemoteError → Prop}

lemma blames_content (hbody : E (.transport .unreadableBody)) (response : Response) :
    Blames E (content response) := by
  unfold content
  split
  · exact blames_error hbody
  · exact blames_ok _

lemma blames_wholeBody (hbody : E (.transport .unreadableBody)) (response : Response) :
    Blames E (wholeBody response) := by
  apply (blames_content hbody response).bind
  intro bs
  apply blames_mapError
  exact fun _ => hbody

lemma blames_decoded (hbody : E (.transport .unreadableBody)) (s : Json.Shape)
    (response : Response) : Blames E (decoded s response) := by
  apply (blames_content hbody response).bind
  intro bs
  apply blames_mapError
  exact fun _ => hbody

lemma blames_fileContent (hbody : E (.transport .unreadableBody)) (hother : ∀ m, E (.unexpected m))
    (path : String) (response : Response) : Blames E (fileContent path response) := by
  apply (blames_content hbody response).bind
  intro bs
  split
  · exact blames_error (hother _)
  · exact blames_ok _

lemma blames_fileInfo (hbody : E (.transport .unreadableBody)) (hother : ∀ m, E (.unexpected m))
    (path : String) (body : Json.Node) : Blames E (fileInfo path body) := by
  unfold fileInfo
  split
  · exact blames_error (hother _)
  · split
    · exact blames_ok _
    · exact blames_error (hother _)
    · exact blames_error hbody

end

/-! ### Calls on files -/

section

variable {c : Client} {r : RepoName} {path : String}

lemma getContents_along (ht : Wire.Tracked I T) {reference : String}
    (h : ∀ u, c.contentsEndpoint r path = .ok u →
      Along I T (c.send .get u acceptJson (refQuery reference) none) fun _ => True) :
    Along I T (c.getContents r path reference) fun _ => True := by
  refine ht.bind (of_along ht.toTrack _) fun u hu => ?_
  refine ht.bind (report_along ht _ _ _) fun _ _ => ht.bind (h u hu) fun _ _ => ?_
  exact ht.bind (of_along ht.toTrack _) fun _ _ => (of_along ht.toTrack _).imp fun _ _ => trivial

lemma downloadContents_along (ht : Wire.Tracked I T) {reference : String}
    (h : ∀ u, c.contentsEndpoint r path = .ok u →
      Along I T (c.send .get u acceptRaw (refQuery reference) none) fun _ => True) :
    Along I T (c.downloadContents r path reference) fun _ => True := by
  refine ht.bind (of_along ht.toTrack _) fun u hu => ?_
  refine ht.bind (report_along ht _ _ _) fun _ _ => ht.bind (h u hu) fun _ _ => ?_
  exact ht.bind (of_along ht.toTrack _) fun _ _ => (of_along ht.toTrack _).imp fun _ _ => trivial

lemma deleteFile_along (ht : Wire.Tracked I T) {d : Deletion}
    (hlookup : ∀ u, c.contentsEndpoint r path = .ok u →
      Along I T (c.send .get u acceptJson (refQuery (d.branch.getD "")) none) fun _ => True)
    (hdelete : ∀ u body, c.contentsEndpoint r path = .ok u →
      Along I T (c.send .delete u acceptJson [] (some body)) fun _ => True) :
    Along I T (c.deleteFile r path d) fun _ => True := by
  have hsha : Along I T (c.deletionSha r path d) fun _ => True := by
    unfold deletionSha
    split
    · exact ht.pure trivial
    · exact ht.bind (getContents_along ht hlookup) fun _ _ => ht.pure trivial
  refine ht.bind hsha fun sha _ => ht.bind (of_along ht.toTrack _) fun u hu => ?_
  refine ht.bind (report_along ht _ _ _) fun _ _ => ht.bind (hdelete u _ hu) fun _ _ => ?_
  exact ht.bind (of_along ht.toTrack _) fun _ _ => ht.pure trivial

lemma getContents_sends {reference : String}
    (h : ∀ u, c.contentsEndpoint r path = .ok u →
      Sends R P (c.send .get u acceptJson (refQuery reference) none) fun _ => True) :
    Sends R P (c.getContents r path reference) fun _ => True :=
  getContents_along (Wire.passes_tracked R P) h

lemma downloadContents_sends {reference : String}
    (h : ∀ u, c.contentsEndpoint r path = .ok u →
      Sends R P (c.send .get u acceptRaw (refQuery reference) none) fun _ => True) :
    Sends R P (c.downloadContents r path reference) fun _ => True :=
  downloadContents_along (Wire.passes_tracked R P) h

lemma deleteFile_sends {d : Deletion}
    (hlookup : ∀ u, c.contentsEndpoint r path = .ok u →
      Sends R P (c.send .get u acceptJson (refQuery (d.branch.getD "")) none) fun _ => True)
    (hdelete : ∀ u body, c.contentsEndpoint r path = .ok u →
      Sends R P (c.send .delete u acceptJson [] (some body)) fun _ => True) :
    Sends R P (c.deleteFile r path d) fun _ => True :=
  deleteFile_along (Wire.passes_tracked R P) hlookup hdelete

end
end Client

lemma downloadArchive_sends {R : Response → Prop} {P : Request → Prop} {a : Agent} {link : Url}
    (h : Sends R P (Client.transmit a (Agent.prepare .get link [] [] none)) fun _ => True) :
    Sends R P (downloadArchive a link) fun _ => True := by
  unfold downloadArchive
  exact h.bind fun _ _ => (Client.sends_of _).imp fun _ _ => trivial

/-! ### Plans -/

namespace Plan

variable {α β : Type} {K : Call → Prop} {D : Url → Prop}

/-- All calls and all downloads that a plan may come to make have a property. -/
def Only (K : Call → Prop) (D : Url → Prop) : Plan α → Prop
  | .done _ => True
  | .log _ next => next.Only K D
  | .call c next => K c ∧ ∀ reply, (next reply).Only K D
  | .download link next => D link ∧ ∀ reply, (next reply).Only K D

lemma Only.bind {p : Plan α} {f : α → Plan β} (hp : p.Only K D) (hf : ∀ a, (f a).Only K D) :
    (p.bind f).Only K D := by
  induction p with
  | done a => exact hf a
  | log e next ih => exact ih hp
  | call c next ih => exact ⟨hp.1, fun reply => ih reply (hp.2 reply)⟩
  | download link next ih => exact ⟨hp.1, fun reply => ih reply (hp.2 reply)⟩

lemma Only.imp {K' : Call → Prop} {D' : Url → Prop} {p : Plan α} (hp : p.Only K D)
    (hK : ∀ x, K x → K' x) (hD : ∀ link, D link → D' link) : p.Only K' D' := by
  induction p with
  | done a => trivial
  | log e next ih => exact ih hp
  | call c next ih => exact ⟨hK c hp.1, fun reply => ih reply (hp.2 reply)⟩
  | download link next ih => exact ⟨hD link hp.1, fun reply => ih reply (hp.2 reply)⟩

/-- A plan sends what its calls and downloads send. -/
theorem Only.sends {R : Response → Prop} {P : Request → Prop} {c : Client} {a : Agent}
    (hK : ∀ x, K x → Sends R P (c.answer x) fun _ => True)
    (hD : ∀ link, D link → Sends R P (downloadArchive a link) fun _ => True) {p : Plan α}
    (hp : p.Only K D) (w : Wire) (hw : ∀ r ∈ w.responses, R r) :
    w.Passes P ((p.runOn c a).run w).2 := by
  induction p generalizing w with
  | done x => exact .refl w
  | log e next ih => exact (Wire.Passes.report e w).trans (ih hp (w.report e) hw)
  | call x next ih =>
    obtain ⟨hx, -⟩ := hK x hp.1 w hw
    exact hx.trans (ih _ (hp.2 _) _ fun r hr => hw r (hx.mem_responses hr))
  | download link next ih =>
    obtain ⟨hx, -⟩ := hD link hp.1 w hw
    exact hx.trans (ih _ (hp.2 _) _ fun r hr => hw r (hx.mem_responses hr))

end Plan

namespace Operation

variable {α β : Type} {K : Call → Prop} {D : Url → Prop}

lemma only_bind {x : Operation α} {f : α → Operation β} (hx : x.run.Only K D)
    (hf : ∀ a, (f a).run.Only K D) : (x >>= f).run.Only K D := by
  refine Plan.Only.bind (f := ExceptT.bindCont f) hx fun r => ?_
  cases r with
  | ok a => exact hf a
  | error e => trivial

end Operation

end HostedRepo
