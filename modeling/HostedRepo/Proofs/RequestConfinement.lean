import HostedRepo.Proofs.ArchiveLinks
import HostedRepo.Proofs.PathsBelowRepos

/-!
# Where calls start

The requests of a call fall into trails: one request and what the responses lead to from there. All
trails of all calls on a repository that does not climb start below the repositories of the root.
-/

namespace HostedRepo

open Http

namespace Http

lemma Trail.mono {next next' : Request → Response → Request → Prop} {r q : Request}
    {earlier : List Request} {before : List Response} (h : Trail next r earlier before q)
    (hnext : ∀ p response p', next p response p' → next' p response p') :
    Trail next' r earlier before q := by
  induction h with
  | here r => exact .here r
  | step hstep _ ih => exact .step (hnext _ _ _ hstep) ih

/-- Requests and responses in trails one after the other, each of which starts with a property. -/
inductive Rounds (next : Request → Response → Request → Prop) (P : Request → Prop) :
    List Request → List Response → Prop
  | nil : Rounds next P [] []
  | cons {r q : Request} {earlier qs : List Request} {before used : List Response}
    (last : Option Response) : P r → Trail next r earlier before q → Rounds next P qs used →
      Rounds next P (earlier ++ [q] ++ qs) (before ++ last.toList ++ used)

lemma Rounds.append {next : Request → Response → Request → Prop} {P : Request → Prop}
    {qs qs' : List Request} {used used' : List Response} (h : Rounds next P qs used)
    (h' : Rounds next P qs' used') : Rounds next P (qs ++ qs') (used ++ used') := by
  induction h with
  | nil => exact h'
  | cons last hr htrail _ ih =>
    rw [List.append_assoc, List.append_assoc (_ ++ _)]
    exact .cons last hr htrail ih

/-- Between two states of a wire there were trails that start with a property. -/
def Wire.Opens (next : Request → Response → Request → Prop) (P : Request → Prop) (w w' : Wire) :
    Prop :=
  ∃ qs used, w.Carries qs used w' ∧ Rounds next P qs used

/-- Between two states of a wire there was a trail from a request, or nothing. -/
def Wire.Travels (next : Request → Response → Request → Prop) (r : Request) (w w' : Wire) : Prop :=
  w.Carries [] [] w' ∨ ∃ earlier before q, ∃ last : Option Response,
    Trail next r earlier before q ∧ w.Carries (earlier ++ [q]) (before ++ last.toList) w'

section

variable {next : Request → Response → Request → Prop} {P : Request → Prop} {r : Request}
  {w₁ w₂ w₃ : Wire}

lemma Wire.opens_tracked : Wire.Tracked (fun _ => True) (Wire.Opens next P) where
  refl w := ⟨[], [], .refl w, .nil⟩
  report e w := ⟨[], [], .report e w, .nil⟩
  trans := by
    rintro w₁ w₂ w₃ ⟨qs, used, hcarries, hrounds⟩ ⟨qs', used', hcarries', hrounds'⟩
    exact ⟨qs ++ qs', used ++ used', hcarries.trans hcarries', hrounds.append hrounds'⟩
  kept _ _ := trivial

lemma Wire.Travels.opens (h : Wire.Travels next r w₁ w₂) (hr : P r) : w₁.Opens next P w₂ := by
  obtain h | ⟨earlier, before, q, last, htrail, hcarries⟩ := h
  · exact ⟨[], [], h, .nil⟩
  · have hrounds := Rounds.cons last hr htrail .nil
    rw [List.append_nil, List.append_nil] at hrounds
    exact ⟨_, _, hcarries, hrounds⟩

lemma Wire.Travels.of_quiet (hquiet : w₁.Carries [] [] w₂) (h : Wire.Travels next r w₂ w₃) :
    Wire.Travels next r w₁ w₃ := by
  obtain h | ⟨earlier, before, q, last, htrail, hcarries⟩ := h
  · exact .inl (hquiet.trans h)
  · exact .inr ⟨earlier, before, q, last, htrail, hquiet.trans hcarries⟩

end
end Http

/-! ### Calls -/

def Call.target : Call → RepoName
  | .getRef r _ => r
  | .updateRef r _ _ _ => r
  | .getTree r _ _ => r
  | .createTree r _ _ => r
  | .createCommit r _ => r
  | .getContents r _ _ => r
  | .downloadContents r _ _ => r
  | .deleteFile r _ _ => r
  | .archiveLink r _ _ _ => r

namespace Client

/-- What a response leads a client to: the redirects that its agent follows, and the moves of
archive links. -/
def Leads (c : Client) (q : Request) (response : Response) (q' : Request) : Prop :=
  c.agent.Redirects q response q' ∨ (response.status = 301 ∧
    ∃ u v, q = c.resolving u ∧ location response u = .ok v ∧ q' = c.resolving v)

variable {c : Client}

lemma send_travels (c : Client) (m : Method) (u : Url) (accept : String)
    (query : List (String × String)) (body : Option Json.Value) (w : Wire) :
    let r := Agent.prepared m u query (c.headers accept) body
    Wire.Travels c.Leads { r with headers := c.agent.withDefaults r.headers } w
      ((c.send m u accept query body).run w).2 := by
  obtain ⟨f, h⟩ | ⟨x, w', h, earlier, before, q, last, htrail, hcarries, -⟩ :=
    transmit_follows c.agent m u query (c.headers accept) body w
  · rw [send, h]
    exact .inl (.refl w)
  · rw [send, h]
    exact .inr ⟨earlier, before, q, last, htrail.mono fun _ _ _ => .inl, hcarries⟩

lemma staying_run (c : Client) (u : Url) (w : Wire) :
    let x := (transmit c.stayingAgent (Agent.prepare .get u [] (c.headers acceptJson) none)).run w
    x.2 = w ∧ (∃ e, x.1 = .error e) ∨ ∃ last : Option Response,
      w.Carries [c.resolving u] last.toList x.2 ∧ ∀ response, x.1 = .ok response →
        last = some response := by
  obtain ⟨f, h⟩ | ⟨x, w', h, earlier, before, q, last, htrail, hcarries, hlast⟩ :=
    transmit_follows c.stayingAgent .get u [] (c.headers acceptJson) none w
  · rw [h]
    exact .inl ⟨rfl, .transport f, rfl⟩
  · rw [h]
    cases htrail with
    | step hnext => cases hnext.1
    | here =>
      refine .inr ⟨last, hcarries, fun response hx => hlast response ?_⟩
      cases x with
      | error f => cases hx
      | ok answer => cases hx; rfl

/-- A resolution is one trail. -/
lemma resolveLink_travels (c : Client) (r : RepoName) (format : ArchiveFormat) (limit hops : Nat)
    (u : Url) (w : Wire) :
    Wire.Travels c.Leads (c.resolving u) w ((c.resolveLink r format limit hops u).run w).2 := by
  induction hops using Nat.strongRecOn generalizing u w with
  | _ hops ih =>
    let event : Log.Event := ⟨.debug, .contents, "resolving archive link",
      nameFields r ++ [("format", format.name), ("url", u.text)]⟩
    have hreport : (report .contents "resolving archive link" (nameFields r ++
        [("format", format.name), ("url", u.text)])).run w = (.ok (), w.report event) := rfl
    rw [resolveLink.eq_def, run_bind, hreport]
    refine Wire.Travels.of_quiet (.report event w) ?_
    generalize w.report event = w₁
    dsimp only
    rw [run_bind]
    have hsent := staying_run c u w₁
    rcases hx : (transmit c.stayingAgent
      (Agent.prepare .get u [] (c.headers acceptJson) none)).run w₁ with ⟨e | answer, w₂⟩
    · rw [hx] at hsent
      obtain ⟨rfl, -⟩ | ⟨last, hcarries, -⟩ := hsent
      · exact .inl (.refl _)
      · exact .inr ⟨[], [], _, last, .here _, hcarries⟩
    · rw [hx] at hsent
      obtain ⟨-, e, he⟩ | ⟨last, hcarries, hlast⟩ := hsent
      · cases he
      obtain rfl : last = some answer := hlast answer rfl
      have hhere : Wire.Travels c.Leads (c.resolving u) w₁ w₂ :=
        .inr ⟨[], [], _, some answer, .here _, hcarries⟩
      dsimp only
      split
      · exact hhere
      · split
        · next hmoved =>
          cases hops with
          | zero => exact hhere
          | succ hops =>
            dsimp only
            rw [run_bind]
            cases hv : location answer u with
            | error e => exact hhere
            | ok v =>
              obtain hquiet | ⟨earlier, before, q, last, htrail, hrest⟩ := ih hops (by omega) v w₂
              · exact .inr ⟨[], [], _, some answer, .here _, hcarries.trans hquiet⟩
              · exact .inr ⟨c.resolving u :: earlier, answer :: before, q, last,
                  .step (.inr ⟨hmoved, u, v, rfl, hv, rfl⟩) htrail, hcarries.trans hrest⟩
        · rw [run_bind]
          cases checked (r.text ++ " " ++ format.name) answer <;> exact hhere

/-- The trails of a client that start below the repositories of its root. -/
def Opens (c : Client) : Wire → Wire → Prop :=
  Wire.Opens c.Leads fun q => c.apiBase.Below q.onWire.url

lemma opens_tracked (c : Client) : Wire.Tracked (fun _ => True) c.Opens := Wire.opens_tracked

lemma prepared_below {base u : Url} (h : base.Below u) (m : Method)
    (query : List (String × String)) (headers : Headers) (body : Option Json.Value) :
    base.Below (Agent.prepared m u query headers body).url.target :=
  (h.withoutUserinfo.withPairs query).target

lemma send_opens {m : Method} {u : Url} {accept : String} {query : List (String × String)}
    {body : Option Json.Value} (h : c.apiBase.Below u) :
    Along (fun _ => True) c.Opens (c.send m u accept query body) fun _ => True := by
  intro w _
  have hbelow := prepared_below h m query (c.headers accept) body
  exact ⟨(send_travels c m u accept query body w).opens hbelow, fun _ _ => trivial⟩

/-- A URL at an endpoint of a repository. -/
def EndpointOf (c : Client) (r : RepoName) (u : Url) : Prop :=
  ∃ area ∈ areas, ∃ texts, c.endpoint ("repos" :: r.owner :: r.repo :: area :: texts) = .ok u

/-- A call sends to endpoints of its repository, or resolves a link from one of them on. -/
theorem answer_along {I : Wire → Prop} {T : Wire → Wire → Prop} (ht : Wire.Tracked I T) {x : Call}
    (hsend : ∀ m u accept query body, c.EndpointOf x.target u →
      Along I T (c.send m u accept query body) fun _ => True)
    (hlink : ∀ r format limit hops u, c.EndpointOf x.target u →
      Along I T (c.resolveLink r format limit hops u) fun _ => True) :
    Along I T (c.answer x) fun _ => True := by
  cases x with
  | getContents r path reference =>
    exact getContents_along ht fun u hu =>
      hsend .get u _ _ none ⟨"contents", by decide, [path], hu⟩
  | downloadContents r path reference =>
    exact downloadContents_along ht fun u hu =>
      hsend .get u _ _ none ⟨"contents", by decide, [path], hu⟩
  | deleteFile r path d =>
    exact deleteFile_along ht
      (fun u hu => hsend .get u _ _ none ⟨"contents", by decide, [path], hu⟩)
      fun u body hu => hsend .delete u _ [] (some body) ⟨"contents", by decide, [path], hu⟩
  | archiveLink r format reference redirects =>
    have harea : format.name ∈ areas := by cases format <;> decide
    exact ht.bind (of_along ht.toTrack _) fun u hu =>
      hlink r format redirects redirects u ⟨format.name, harea, [reference], hu⟩
  | _ =>
    exact gitCall_along ht fun u hu => hsend _ u _ _ _ ⟨"git", by decide, _, hu⟩

lemma resolveLink_opens {r : RepoName} {format : ArchiveFormat} {limit hops : Nat} {u : Url}
    (h : c.apiBase.Below u) :
    Along (fun _ => True) c.Opens (c.resolveLink r format limit hops u) fun _ => True := by
  intro w _
  have hbelow := prepared_below h .get [] (c.headers acceptJson) none
  exact ⟨(resolveLink_travels c r format limit hops u w).opens hbelow, fun _ _ => trivial⟩

/-- Whatever the arguments of a call are, and whatever comes back, all that it sends are trails that
start below the repositories of the root, unless its repository climbs. -/
theorem answer_opens (hform : Url.WebForm c.apiBase) {x : Call} (hx : x.target.Grounded) :
    Along (fun _ => True) c.Opens (c.answer x) fun _ => True := by
  have hbelow : ∀ u, c.EndpointOf x.target u → c.apiBase.Below u := by
    rintro u ⟨area, harea, texts, hu⟩
    exact endpoint_below hform hx harea hu
  refine answer_along c.opens_tracked (fun m u accept query body hu => ?_) ?_
  · exact send_opens (hbelow u hu)
  · intro r format limit hops u hu
    exact resolveLink_opens (hbelow u hu)

end Client
end HostedRepo
