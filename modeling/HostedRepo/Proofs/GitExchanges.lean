import HostedRepo.Proofs.Sending

/-!
# Exchanges on git objects

All calls on references, trees and commits have one form: a request with its redirects, a final
response that has to be a success, and a body that has to have a shape.
-/

namespace HostedRepo

open Http

/-- All requests of an exchange have a property. -/
def SendsOnly {α : Type} (P : Request → Prop) (x : Exchange α) : Prop :=
  ∀ w : Wire, ∃ qs used, w.Carries qs used (x.run w).2 ∧ ∀ q ∈ qs, P q

lemma Sends.sendsOnly {α : Type} {P : Request → Prop} {Q : α → Prop} {x : Exchange α}
    (h : Sends (fun _ => True) P x Q) : SendsOnly P x :=
  fun w => (h w fun _ _ => trivial).1

namespace Client

variable {α : Type}

lemma of_run_eq {r x : Except RemoteError α} {w w' : Wire}
    (h : (Exchange.of r).run w = (x, w')) : r = x ∧ w' = w :=
  ⟨congrArg Prod.fst h, (congrArg Prod.snd h).symm⟩

/-- What is sent is a chain, or nothing. -/
lemma transmit_chain (a : Agent) (m : Method) (u : Url) (query : List (String × String))
    (headers : Headers) (body : Option Json.Value) (w : Wire) :
    (∃ e, (transmit a (Agent.prepare m u query headers body)).run w = (.error e, w)) ∨
      ∃ r qs used x w', r.method = m ∧ r.body = body ∧
        Agent.Chain (·.Asks m body) r w qs used x w' ∧
        (transmit a (Agent.prepare m u query headers body)).run w =
          (x.mapError .transport, w') := by
  obtain ⟨f, h⟩ | ⟨x, w', h, hfollows⟩ :=
    transmit_follows a m u query headers body w
  · exact .inl ⟨.transport f, h⟩
  · obtain ⟨qs, used, hchain⟩ := hfollows.chain (R := fun _ => True)
      (fun _ q response u hq _ _ => Agent.redirected_asks q response.status u hq)
      (.inl ⟨rfl, rfl⟩) (by simp)
    exact .inr ⟨_, qs, used, x, w', rfl, rfl, hchain, h⟩

lemma sends_transmit_asks (a : Agent) (m : Method) (u : Url) (query : List (String × String))
    (headers : Headers) (body : Option Json.Value) :
    Sends (fun _ => True) (·.Asks m body) (transmit a (Agent.prepare m u query headers body))
      fun _ => True :=
  sends_transmit (fun _ q response u hq _ _ => Agent.redirected_asks q response.status u hq)
    (.inl ⟨rfl, rfl⟩)

/-! ### The form of a call -/

/-- A call below the `git` endpoint of a repository. -/
def gitCall (c : Client) (u : Except RemoteError Url) (message : String)
    (fields : List (String × String)) (m : Method) (query : List (String × String))
    (body : Option Json.Value) (resource : String) (s : Json.Shape) (ofVal : s.Val → α) :
    Exchange α := do
  let u ← Exchange.of u
  report .gitObjects message fields
  let answer ← c.send m u acceptJson query body
  let answer ← Exchange.of (checked resource answer)
  return ofVal (← Exchange.of (decoded s answer))

/-- An exchange that ends well: of the responses that came back, one for each request, the last
one is a success, and the result is what its whole body says in the form of a shape. -/
structure Decodes (x : Exchange α) (s : Json.Shape) (ofVal : s.Val → α) (w : Wire) (a : α)
    (w' : Wire) : Prop where
  run : x.run w = (.ok a, w')
  last : ∃ qs before response val, w.Carries qs (before ++ [response]) w' ∧
    qs.length = before.length + 1 ∧ response.status.isSuccess = true ∧
    decoded s response = .ok val ∧ a = ofVal val

section Calls

variable {c : Client} {u : Except RemoteError Url} {message : String}
  {fields : List (String × String)} {m : Method} {query : List (String × String)}
  {body : Option Json.Value} {resource : String} {s : Json.Shape} {ofVal : s.Val → α}

lemma checked_eq_ok {response response' : Response}
    (h : checked resource response = .ok response') :
    response' = response ∧ response.status.isSuccess = true := by
  unfold checked at h
  split at h
  · next hs =>
    cases h
    exact ⟨rfl, hs⟩
  · split at h <;> cases h

lemma gitCall_along {I : Wire → Prop} {T : Wire → Wire → Prop} (ht : Wire.Tracked I T)
    (h : ∀ v, u = .ok v → Along I T (c.send m v acceptJson query body) fun _ => True) :
    Along I T (c.gitCall u message fields m query body resource s ofVal) fun _ => True := by
  unfold gitCall
  refine ht.bind (of_along ht.toTrack u) fun v hv => ?_
  refine ht.bind (report_along ht _ _ _) fun _ _ => ?_
  refine ht.bind (h v hv) fun answer _ => ?_
  refine ht.bind (of_along ht.toTrack _) fun answer _ => ?_
  exact ht.bind (of_along ht.toTrack _) fun _ _ => ht.pure trivial

lemma gitCall_sends {R : Response → Prop} {P : Request → Prop}
    (h : ∀ v, u = .ok v → Sends R P (c.send m v acceptJson query body) fun _ => True) :
    Sends R P (c.gitCall u message fields m query body resource s ofVal) fun _ => True :=
  gitCall_along (Wire.passes_tracked R P) h

lemma gitCall_sendsOnly :
    SendsOnly (·.Asks m body) (c.gitCall u message fields m query body resource s ofVal) :=
  (gitCall_sends fun v _ => sends_transmit_asks c.agent m v query _ body).sendsOnly

lemma gitCall_run_eq_ok {w w' : Wire} {a : α}
    (h : (c.gitCall u message fields m query body resource s ofVal).run w = (.ok a, w')) :
    ∃ v response val, (c.send m v acceptJson query body).run
        (w.report ⟨.debug, .gitObjects, message, fields⟩) = (.ok response, w') ∧
      response.status.isSuccess = true ∧ decoded s response = .ok val ∧ a = ofVal val ∧
      u = .ok v := by
  unfold gitCall at h
  obtain ⟨v, w₁, hu, h₁⟩ := run_bind_eq_ok h
  obtain ⟨_, w₂, hreport, h₂⟩ := run_bind_eq_ok h₁
  obtain ⟨answer, w₃, hsend, h₃⟩ := run_bind_eq_ok h₂
  obtain ⟨response, w₄, hcheck, h₄⟩ := run_bind_eq_ok h₃
  obtain ⟨val, w₅, hdecode, h₅⟩ := run_bind_eq_ok h₄
  obtain ⟨hv, rfl⟩ := of_run_eq hu
  cases hreport
  obtain ⟨hchecked, rfl⟩ := of_run_eq hcheck
  obtain ⟨rfl, hsuccess⟩ := checked_eq_ok hchecked
  obtain ⟨hdecoded, rfl⟩ := of_run_eq hdecode
  obtain ⟨hval, rfl⟩ := of_run_eq (r := .ok (ofVal val)) h₅
  exact ⟨v, response, val, hsend, hsuccess, hdecoded, (Except.ok.inj hval).symm, hv⟩

/-- A call that ends well decodes a success, and its first request was sent as it was asked. -/
theorem gitCall_eq_ok {w w' : Wire} {a : α}
    (h : (c.gitCall u message fields m query body resource s ofVal).run w = (.ok a, w')) :
    ∃ qs before response val, w.Carries qs (before ++ [response]) w' ∧
      qs.length = before.length + 1 ∧ response.status.isSuccess = true ∧
      decoded s response = .ok val ∧ a = ofVal val ∧
      ∃ q ∈ qs, q.method = m ∧ q.body = body := by
  obtain ⟨v, response, val, hsend, hsuccess, hdecoded, ha, -⟩ := gitCall_run_eq_ok h
  obtain ⟨e, he⟩ | ⟨r, qs, used, x, w', hm, hb, hchain, hx⟩ :=
    transmit_chain c.agent m v query (c.headers acceptJson) body _
  · cases he.symm.trans hsend
  · rw [send, hx] at hsend
    cases x with
    | error f => cases hsend
    | ok answer =>
      cases hsend
      obtain ⟨earlier, q, before, rfl, rfl, hlen⟩ := hchain.last _ rfl
      obtain ⟨later, hlater⟩ := hchain.first
      have hfirst : r ∈ earlier ++ [q] := hlater ▸ List.mem_cons_self
      refine ⟨earlier ++ [q], before, response, val, ?_, by simp [hlen], hsuccess, hdecoded, ha, r,
        hfirst, hm, hb⟩
      exact (Wire.Carries.report _ _).trans hchain.carries

lemma gitCall_decodes {w w' : Wire} {a : α}
    (h : (c.gitCall u message fields m query body resource s ofVal).run w = (.ok a, w')) :
    Decodes (c.gitCall u message fields m query body resource s ofVal) s ofVal w a w' := by
  obtain ⟨qs, before, response, val, hc, hlen, hs, hd, ha, -⟩ := gitCall_eq_ok h
  exact ⟨h, qs, before, response, val, hc, hlen, hs, hd, ha⟩

end Calls

/-! ### The calls -/

section

variable (c : Client) (r : RepoName)

lemma getRef_eq (reference : String) : c.getRef r reference =
    c.gitCall (c.gitEndpoint r ["ref", shortRef reference]) "fetching reference"
      (nameFields r ++ [("reference", reference)]) .get [] none (r.text ++ " " ++ reference)
      Reference.shape Reference.ofVal := rfl

lemma updateRef_eq (reference sha : String) (force : Bool) : c.updateRef r reference sha force =
    c.gitCall (c.gitEndpoint r ["refs", shortRef reference]) "updating reference"
      (nameFields r ++ [("reference", reference), ("sha", sha), ("force", Log.flag force)])
      .patch [] (some (moveValue sha force)) (r.text ++ " " ++ reference)
      Reference.shape Reference.ofVal := rfl

lemma getTree_eq (sha : String) (recursive : Bool) : c.getTree r sha recursive =
    c.gitCall (c.gitEndpoint r ["trees", sha]) "fetching tree"
      (nameFields r ++ [("sha", sha), ("recursive", Log.flag recursive)]) .get
      (if recursive then [("recursive", "1")] else []) none (r.text ++ " tree " ++ sha)
      Tree.shape Tree.ofVal := rfl

lemma createTree_eq (base : String) (entries : List NewEntry) : c.createTree r base entries =
    c.gitCall (c.gitEndpoint r ["trees"]) "creating tree"
      (nameFields r ++ [("base_tree", base), ("entries", toString entries.length)]) .post []
      (some (newTreeValue base entries)) (r.text ++ " trees") Tree.shape Tree.ofVal := rfl

lemma createCommit_eq (commit : NewCommit) : c.createCommit r commit =
    c.gitCall (c.gitEndpoint r ["commits"]) "creating commit"
      (nameFields r ++ [("tree", commit.tree), ("parents", Text.quoteList commit.parents)]) .post
      [] (some commit.toValue) (r.text ++ " commits") Commit.shape Commit.ofVal := rfl

end

end Client

/-- Method and body of the requests that a call on git objects starts with. -/
def Call.asks? : Call → Option (Method × Option Json.Value)
  | .getRef .. | .getTree .. => some (.get, none)
  | .updateRef _ _ sha force => some (.patch, some (moveValue sha force))
  | .createTree _ base entries => some (.post, some (newTreeValue base entries))
  | .createCommit _ commit => some (.post, some commit.toValue)
  | _ => none

namespace Client

/-- The requests of a call on git objects ask what the call asks, or have become plain reads. -/
theorem answer_sendsOnly (c : Client) {x : Call} {m : Method} {body : Option Json.Value}
    (h : x.asks? = some (m, body)) : SendsOnly (·.Asks m body) (c.answer x) := by
  cases x with
  | getRef r reference =>
    cases h
    rw [answer, getRef_eq]
    exact gitCall_sendsOnly
  | updateRef r reference sha force =>
    cases h
    rw [answer, updateRef_eq]
    exact gitCall_sendsOnly
  | getTree r sha recursive =>
    cases h
    rw [answer, getTree_eq]
    exact gitCall_sendsOnly
  | createTree r base entries =>
    cases h
    rw [answer, createTree_eq]
    exact gitCall_sendsOnly
  | createCommit r commit =>
    cases h
    rw [answer, createCommit_eq]
    exact gitCall_sendsOnly
  | _ => cases h

end Client

lemma downloadArchive_sendsOnly (a : Agent) (link : Url) :
    SendsOnly (·.Asks .get none) (downloadArchive a link) :=
  (downloadArchive_sends (Client.sends_transmit_asks a .get link [] [] none)).sendsOnly

end HostedRepo
