import HostedRepo.Http.Agent
import Mathlib.Tactic.Common

/-!
# Chains of redirects

What sending a request leaves on a wire. The requests of a chain share what redirects keep, and the
response that comes out of it is the last one that was used up.
-/

namespace HostedRepo.Http

namespace Request

def onWire (r : Request) : Request := { r with url := r.url.target }

@[simp] lemma onWire_method (r : Request) : r.onWire.method = r.method := rfl

@[simp] lemma onWire_body (r : Request) : r.onWire.body = r.body := rfl

end Request

namespace Wire

/-- Requests that went over a wire, and the responses that came back. -/
structure Carries (w : Wire) (qs : List Request) (used : List Response) (w' : Wire) : Prop where
  reaches : w'.reaches = w.reaches
  sent : w'.sent = w.sent ++ qs.map Request.onWire
  responses : w.responses = used ++ w'.responses

lemma Carries.refl (w : Wire) : w.Carries [] [] w := ⟨rfl, by simp, rfl⟩

lemma Carries.report (e : Log.Event) (w : Wire) : w.Carries [] [] (w.report e) :=
  ⟨rfl, by simp [Wire.report], rfl⟩

lemma Carries.trans {w₁ w₂ w₃ : Wire} {qs₁ qs₂ : List Request} {used₁ used₂ : List Response}
    (h₁ : w₁.Carries qs₁ used₁ w₂) (h₂ : w₂.Carries qs₂ used₂ w₃) :
    w₁.Carries (qs₁ ++ qs₂) (used₁ ++ used₂) w₃ where
  reaches := h₂.reaches.trans h₁.reaches
  sent := by rw [h₂.sent, h₁.sent, List.map_append, List.append_assoc]
  responses := by rw [h₁.responses, h₂.responses, List.append_assoc]

lemma exchange_nil {w : Wire} {r : Request} (hr : w.reaches r.url = true)
    (hw : w.responses = []) : ∃ w', w.exchange r = (.dropped, w') ∧ w.Carries [r] [] w' := by
  unfold exchange
  rw [if_pos hr, hw]
  exact ⟨_, rfl, rfl, rfl, hw⟩

lemma exchange_cons {w : Wire} {r : Request} {response : Response} {rest : List Response}
    (hr : w.reaches r.url = true) (hw : w.responses = response :: rest) :
    ∃ w', w.exchange r = (.answered response, w') ∧ w.Carries [r] [response] w' := by
  unfold exchange
  rw [if_pos hr, hw]
  exact ⟨_, rfl, rfl, rfl, hw⟩

lemma exchange_cases (w : Wire) (r : Request) :
    (w.reaches r.url = false ∧ w.exchange r = (.unreachable, w)) ∨
      (∃ w', w.exchange r = (.dropped, w') ∧ w.Carries [r] [] w') ∨
      ∃ response w', w.exchange r = (.answered response, w') ∧ w.Carries [r] [response] w' := by
  by_cases hr : w.reaches r.url = true
  · right
    cases hw : w.responses with
    | nil => exact .inl (exchange_nil hr hw)
    | cons response rest => exact .inr ⟨response, exchange_cons hr hw⟩
  · exact .inl ⟨by simpa using hr, if_neg hr⟩

end Wire

/-- Requests from one to another, each of which the response to the one before it leads to. -/
inductive Trail (next : Request → Response → Request → Prop) :
    Request → List Request → List Response → Request → Prop
  | here (r : Request) : Trail next r [] [] r
  | step {r r' q : Request} {response : Response} {earlier : List Request}
    {before : List Response} : next r response r' → Trail next r' earlier before q →
      Trail next r (r :: earlier) (response :: before) q

namespace Trail

variable {next : Request → Response → Request → Prop} {r q : Request} {earlier : List Request}
  {before : List Response}

lemma length_eq (h : Trail next r earlier before q) : earlier.length = before.length := by
  induction h with
  | here => rfl
  | step _ _ ih => simp [ih]

lemma head?_eq (h : Trail next r earlier before q) : (earlier ++ [q]).head? = some r := by
  cases h <;> rfl

lemma kept {P : Request → Prop} {R : Response → Prop}
    (hP : ∀ p response p', P p → R response → next p response p' → P p')
    (h : Trail next r earlier before q) (hr : P r) (hbefore : ∀ response ∈ before, R response) :
    ∀ p ∈ earlier ++ [q], P p := by
  induction h with
  | here => simpa using hr
  | step hnext _ ih =>
    have hrest := ih (hP _ _ _ hr (hbefore _ List.mem_cons_self) hnext) fun response hmem =>
      hbefore response (List.mem_cons_of_mem _ hmem)
    rw [List.cons_append, List.forall_mem_cons]
    exact ⟨hr, hrest⟩

end Trail

namespace Agent

/-- How an agent goes on from a request when a response has come. -/
def Redirects (a : Agent) (r : Request) (response : Response) (r' : Request) : Prop :=
  a.follows = true ∧ ∃ u, target? r.url response = some u ∧ r' = redirected r response.status u

/-- What a request and the redirects after it leave on a wire. A response that is the result
answers the last request. -/
def Follows (a : Agent) (r : Request) (w : Wire) (x : Except Fault Response) (w' : Wire) : Prop :=
  ∃ earlier before q, ∃ last : Option Response, Trail a.Redirects r earlier before q ∧
    w.Carries (earlier ++ [q]) (before ++ last.toList) w' ∧
    ∀ response, x = .ok response → last = some response

/-- Requests that share a property, the first of them a given one, and the responses to them. A
response that is the result answers the last one. -/
structure Chain (P : Request → Prop) (r : Request) (w : Wire) (qs : List Request)
    (used : List Response) (x : Except Fault Response) (w' : Wire) : Prop where
  carries : w.Carries qs used w'
  kept : ∀ q ∈ qs, P q
  first : ∃ later, qs = r :: later
  last : ∀ response, x = .ok response → ∃ earlier q before,
    qs = earlier ++ [q] ∧ used = before ++ [response] ∧ earlier.length = before.length

section Chains

variable {a : Agent} {first : Url} {hops : Nat} {r : Request} {w w' : Wire} {response : Response}

lemma follow_unreachable (he : w.exchange r = (.unreachable, w')) :
    (follow a first hops r).run w = (.error (.unreachable first), w') := by
  unfold follow
  simp only [StateT.run, bind, StateT.bind, pure, he]
  rfl

lemma follow_dropped (he : w.exchange r = (.dropped, w')) :
    (follow a first hops r).run w = (.error (.dropped first), w') := by
  unfold follow
  simp only [StateT.run, bind, StateT.bind, pure, he]
  rfl

lemma follow_staying (hf : a.follows = false) (he : w.exchange r = (.answered response, w')) :
    (follow a first hops r).run w = (.ok response, w') := by
  rw [follow]
  simp only [StateT.run, bind, StateT.bind, pure, he, hf]
  rfl

/-- A response ends a chain, or the request that it redirects to goes on with it. -/
lemma follow_answered (a : Agent) (first : Url) (hops : Nat)
    (he : w.exchange r = (.answered response, w')) :
    (follow a first hops r).run w = (.ok response, w') ∨
      (∃ f, (follow a first hops r).run w = (.error f, w')) ∨
      ∃ n u, a.follows = true ∧ hops = n + 1 ∧ target? r.url response = some u ∧
        isWeb u = true ∧ (follow a first hops r).run w =
          (follow a first n (redirected r response.status u)).run w' := by
  rw [follow]
  simp only [StateT.run, bind, StateT.bind, pure, he]
  by_cases hf : a.follows = true
  · simp only [hf]
    cases ht : target? r.url response with
    | none => exact .inl rfl
    | some u =>
      right
      cases hops with
      | zero => exact .inl ⟨_, rfl⟩
      | succ n =>
        by_cases hu : isWeb u = true
        · simp only [hu]
          exact .inr ⟨n, u, trivial, rfl, rfl, hu, rfl⟩
        · simp only [hu]
          exact .inl ⟨_, rfl⟩
  · simp only [hf]
    exact .inl rfl

/-- Following redirects sends a request and what the responses lead to, or nothing if the request
does not reach its target. -/
theorem follow_follows (a : Agent) (first : Url) (hops : Nat) (r : Request) (w : Wire) :
    (w.reaches r.url = false ∧ ∃ f, (follow a first hops r).run w = (.error f, w)) ∨
      a.Follows r w ((follow a first hops r).run w).1 ((follow a first hops r).run w).2 := by
  -- The redirects that are left are those of the recursion.
  induction hops using Nat.strongRecOn generalizing r w with
  | _ hops ih =>
    obtain ⟨hr, he⟩ | ⟨w', he, hc⟩ | ⟨response, w', he, hc⟩ := w.exchange_cases r
    · exact .inl ⟨hr, _, follow_unreachable he⟩
    · rw [follow_dropped he]
      exact .inr ⟨[], [], r, none, .here r, hc, fun _ h => by cases h⟩
    · right
      obtain h | ⟨f, h⟩ | ⟨n, u, hf, rfl, hu, -, h⟩ := follow_answered a first hops he
      · rw [h]
        exact ⟨[], [], r, some response, .here r, hc, fun _ h => by cases h; rfl⟩
      · rw [h]
        exact ⟨[], [], r, some response, .here r, hc, fun _ h => by cases h⟩
      · rw [h]
        obtain ⟨-, f, hnone⟩ | ⟨earlier, before, q, last, htrail, hcarries, hlast⟩ :=
          ih n (by omega) (redirected r response.status u) w'
        · rw [hnone]
          exact ⟨[], [], r, some response, .here r, hc, fun _ h => by cases h⟩
        · exact ⟨r :: earlier, response :: before, q, last, .step ⟨hf, u, hu, rfl⟩ htrail,
            hc.trans hcarries, hlast⟩

/-- Sending a request that could be prepared sends it with all its headers and what the responses
lead to, or nothing if its target is not one of the web or cannot be reached. -/
theorem send_follows (a : Agent) (r : Request) (w : Wire) :
    ((isWeb r.url = true → w.reaches r.url = false) ∧
        ∃ f, (a.send (.ok r)).run w = (.error f, w)) ∨
      a.Follows { r with headers := a.withDefaults r.headers } w
        ((a.send (.ok r)).run w).1 ((a.send (.ok r)).run w).2 := by
  unfold send
  by_cases hu : isWeb r.url = true
  · simp only [hu]
    exact (follow_follows ..).imp_left fun ⟨hr, hnone⟩ => ⟨fun _ => hr, hnone⟩
  · simp only [hu]
    exact .inl ⟨nofun, _, rfl⟩

variable {P : Request → Prop}

lemma Follows.chain {R : Response → Prop} {x : Except Fault Response}
    (hP : a.follows = true → ∀ q response u, P q → R response →
      target? q.url response = some u → P (redirected q response.status u))
    (hr : P r) (h : a.Follows r w x w') (hw : ∀ response ∈ w.responses, R response) :
    ∃ qs used, Chain P r w qs used x w' := by
  obtain ⟨earlier, before, q, last, htrail, hcarries, hlast⟩ := h
  have hbefore : ∀ response ∈ before, R response := fun response hmem =>
    hw response (by rw [hcarries.responses]; simp [hmem])
  have hnext : ∀ p response p', P p → R response → a.Redirects p response p' → P p' := by
    rintro p response _ hp hR ⟨hf, u, hu, rfl⟩
    exact hP hf p response u hp hR hu
  refine ⟨earlier ++ [q], before ++ last.toList, hcarries, htrail.kept hnext hr hbefore, ?_, ?_⟩
  · exact List.head?_eq_some_iff.mp htrail.head?_eq
  · intro response hx
    rw [hlast response hx]
    exact ⟨earlier, q, before, rfl, rfl, htrail.length_eq⟩

end Chains

end Agent

/-! ### What redirects keep -/

/-- A request of one method with its body, or a plain read. -/
def Request.Asks (q : Request) (m : Method) (body : Option Json.Value) : Prop :=
  (q.method = m ∧ q.body = body) ∨ (q.method = .get ∧ q.body = none)

lemma Request.Asks.patch {q : Request} {m : Method} {body : Option Json.Value}
    (h : q.Asks m body) (hq : q.method = .patch) : m = .patch ∧ q.body = body := by
  obtain ⟨hm, hb⟩ | ⟨hm, -⟩ := h
  · exact ⟨hm.symm.trans hq, hb⟩
  · cases hm.symm.trans hq

namespace Agent

lemma redirectedMethod_eq_or (status : Status) (m : Method) :
    redirectedMethod status m = m ∨ redirectedMethod status m = .get := by
  unfold redirectedMethod
  split
  · exact .inr rfl
  · exact .inl rfl

lemma redirected_asks {m : Method} {body : Option Json.Value} (q : Request) (status : Status)
    (u : Url) (h : q.Asks m body) : (redirected q status u).Asks m body := by
  by_cases hm : redirectedMethod status q.method = q.method
  · have hbody : (redirected q status u).body = q.body := by simp [redirected, hm]
    have hmethod : (redirected q status u).method = q.method := hm
    unfold Request.Asks
    rw [hmethod, hbody]
    exact h
  · have hget := (redirectedMethod_eq_or status q.method).resolve_left hm
    exact .inr ⟨hget, by simp [redirected, hm]⟩

end Agent
end HostedRepo.Http
