import HostedRepo.Proofs.GitExchanges
import HostedRepo.Remote.Repository

/-!
# Where a token goes

The requests of a client start at the host and port of its root, whatever the arguments are, and
an authorization that a redirect would take elsewhere is dropped for the rest of the chain. The
download of an archive starts without one.
-/

namespace HostedRepo

open Http

namespace Url

@[simp] lemma origin_withoutUserinfo (u : Url) : u.withoutUserinfo.origin = u.origin := by
  unfold withoutUserinfo origin host? effectivePort
  cases u.authority <;> rfl

@[simp] lemma origin_target (u : Url) : u.target.origin = u.origin := u.origin_withoutUserinfo

lemma exists_withPairs (query : List (String × String)) (u : Url) :
    ∃ q, query.foldl (fun u (name, value) => u.withPair name value) u = { u with query := q } := by
  induction query generalizing u with
  | nil => exact ⟨u.query, rfl⟩
  | cons pair query ih => exact ih (u.withPair pair.1 pair.2)

lemma origin_withPairs (query : List (String × String)) (u : Url) :
    (query.foldl (fun u (name, value) => u.withPair name value) u).origin = u.origin := by
  obtain ⟨q, hq⟩ := exists_withPairs query u
  rw [hq]
  rfl

end Url

lemma Client.exists_path_of_endpoint {c : Client} {segments : List String} {u : Url}
    (h : c.endpoint segments = .ok u) : ∃ path, u = { c.apiBase with path := path } := by
  unfold endpoint at h
  split at h
  · cases h
  · next hu =>
    cases h
    unfold Url.extend? at hu
    split at hu
    · cases hu
    · cases hu
      exact ⟨_, rfl⟩

lemma Client.endpoint_origin {c : Client} {segments : List String} {u : Url}
    (h : c.endpoint segments = .ok u) : u.origin = c.apiBase.origin := by
  obtain ⟨path, rfl⟩ := exists_path_of_endpoint h
  rfl

namespace Http

namespace Agent

lemma basicValue_ne (user password : Bytes) (t : Token) :
    basicValue user password ≠ t.headerValue := by
  intro h
  have hlist := congrArg String.toList h
  simp [basicValue, Token.headerValue] at hlist

lemma headerValue_notMem_basicHeader (u : Url) (t : Token) (name : String) :
    (name, t.headerValue) ∉ basicHeader u := by
  unfold basicHeader
  split
  · simp
  · split
    · simp
    · simp [(basicValue_ne _ _ t).symm]

end Agent

namespace Request

/-- A request carries a token as its authorization. -/
def Bears (q : Request) (t : Token) : Prop := ("authorization", t.headerValue) ∈ q.headers

instance (q : Request) (t : Token) : Decidable (q.Bears t) :=
  inferInstanceAs (Decidable (_ ∈ _))

/-- A request that carries a token goes to a host and port. -/
def Confined (t : Token) (o : Option String × Option Nat) (q : Request) : Prop :=
  q.Bears t → q.url.origin = o

/-- Only as the name of its agent can a request carry the value that shows a token. -/
def Tokenless (t : Token) (q : Request) : Prop :=
  ∀ name, (name, t.headerValue) ∈ q.headers → name = "user-agent"

end Request

namespace Agent

variable {t : Token} {o : Option String × Option Nat}

lemma mem_redirected_headers {q : Request} {status : Status} {u : Url} {h : String × String}
    (hmem : h ∈ (redirected q status u).headers) :
    h ∈ q.headers ∧ (h.1 = "authorization" → u.origin = q.url.origin) := by
  obtain ⟨hq, hkept⟩ := List.mem_filter.mp hmem
  refine ⟨hq, fun hname => ?_⟩
  by_contra hne
  simp [hname, Ne.symm hne] at hkept

/-- An authorization that is still there after a redirect has not left its host and port. -/
lemma redirected_confined (q : Request) (status : Status) (u : Url)
    (h : q.Confined t o) : (redirected q status u).Confined t o := by
  intro hb
  obtain ⟨hq, horigin⟩ := mem_redirected_headers hb
  exact (horigin rfl).trans (h hq)

lemma redirected_tokenless (q : Request) (status : Status) (u : Url)
    (h : q.Tokenless t) : (redirected q status u).Tokenless t :=
  fun name hmem => h name (mem_redirected_headers hmem).1

lemma prepared_origin (method : Method) (u : Url) (query : List (String × String))
    (headers : Headers) (body : Option Json.Value) :
    (prepared method u query headers body).url.origin = u.origin := by
  rw [prepared, Url.origin_withPairs, Url.origin_withoutUserinfo]

lemma mem_withDefaults {a : Agent} {headers : Headers} {h : String × String}
    (hmem : h ∈ a.withDefaults headers) :
    h ∈ headers ∨ h = ("accept", "*/*") ∨ h.1 = "user-agent" := by
  unfold withDefaults at hmem
  obtain hmem | hmem := List.mem_append.mp hmem
  · obtain hmem | hmem := List.mem_append.mp hmem
    · exact .inl hmem
    · split at hmem
      · exact .inr (.inl (by simpa using hmem))
      · cases hmem
  · split at hmem
    · split at hmem
      · rw [List.mem_singleton.mp hmem]
        exact .inr (.inr rfl)
      · cases hmem
    · cases hmem

lemma prepared_tokenless (a : Agent) (link : Url) :
    let r := prepared .get link [] [] none
    ({ r with headers := a.withDefaults r.headers } : Request).Tokenless t := by
  intro r name hmem
  obtain h | h | h := mem_withDefaults hmem
  · have hbasic : (name, t.headerValue) ∈ basicHeader link := by simpa [r, prepared] using h
    exact absurd hbasic (headerValue_notMem_basicHeader link t name)
  · have hvalue := congrArg (fun h => h.2.toList) h
    simp [Token.headerValue] at hvalue
  · exact h

end Agent
end Http

/-! ### Calls -/

/-- Whether a call resolves the link of an archive. -/
def Call.isArchiveLink : Call → Bool
  | .archiveLink .. => true
  | _ => false

namespace Client

variable {t : Token} (c : Client)

lemma send_confined (m : Method) {u : Url} (accept : String) (query : List (String × String))
    (body : Option Json.Value) (hu : u.origin = c.apiBase.origin) :
    Sends (fun _ => True) (·.Confined t c.apiBase.origin) (c.send m u accept query body)
      fun _ => True :=
  sends_transmit
    (fun _ q response u hq _ _ => Agent.redirected_confined q response.status u hq)
    (fun _ => (Agent.prepared_origin m u query (c.headers accept) body).trans hu)

lemma gitCall_confined {α : Type} {segments : List String} {message : String}
    {fields : List (String × String)} {m : Method} {query : List (String × String)}
    {body : Option Json.Value} {resource : String} {s : Json.Shape} {ofVal : s.Val → α} :
    Sends (fun _ => True) (·.Confined t c.apiBase.origin)
      (c.gitCall (c.endpoint segments) message fields m query body resource s ofVal)
      fun _ => True :=
  gitCall_sends fun _ hu => c.send_confined m acceptJson query body (endpoint_origin hu)

/-- All calls but the resolution of archive links keep a token at the root of the client. -/
theorem answer_confined {x : Call} (h : x.isArchiveLink = false) :
    Sends (fun _ => True) (·.Confined t c.apiBase.origin) (c.answer x) fun _ => True := by
  cases x with
  | getRef r reference => exact c.gitCall_confined
  | updateRef r reference sha force => exact c.gitCall_confined
  | getTree r sha recursive => exact c.gitCall_confined
  | createTree r base entries => exact c.gitCall_confined
  | createCommit r commit => exact c.gitCall_confined
  | getContents r path reference =>
    exact getContents_sends fun u hu => c.send_confined .get _ _ none (endpoint_origin hu)
  | downloadContents r path reference =>
    exact downloadContents_sends fun u hu => c.send_confined .get _ _ none (endpoint_origin hu)
  | deleteFile r path d =>
    exact deleteFile_sends (fun u hu => c.send_confined .get _ _ none (endpoint_origin hu))
      fun u body hu => c.send_confined .delete _ [] (some body) (endpoint_origin hu)
  | archiveLink r format reference redirects => cases h

end Client

/-! ### Downloads -/

lemma downloadArchive_tokenless (t : Token) (a : Agent) (link : Url) :
    Sends (fun _ => True) (·.Tokenless t) (downloadArchive a link) fun _ => True :=
  downloadArchive_sends ((Client.sends_transmit
    (fun _ q response u hq _ _ => Agent.redirected_tokenless q response.status u hq)
    (Agent.prepared_tokenless a link)).imp fun _ _ => trivial)

lemma Operation.runOn_call_bind {β : Type} (c : Client) (a : Agent) (x : Call)
    (f : x.Reply → Operation β) (w : Wire) :
    (∃ e w', (c.answer x).run w = (.error e, w') ∧
      ((call x >>= f).run.runOn c a).run w = (.error e, w')) ∨
    ∃ reply w', (c.answer x).run w = (.ok reply, w') ∧
      ((call x >>= f).run.runOn c a).run w = ((f reply).run.runOn c a).run w' := by
  have hrun : ((call x >>= f).run.runOn c a).run w =
      ((ExceptT.bindCont f ((c.answer x).run w).1).runOn c a).run ((c.answer x).run w).2 := rfl
  rcases hx : (c.answer x).run w with ⟨e | reply, w'⟩ <;> rw [hx] at hrun
  · exact .inl ⟨e, w', rfl, hrun⟩
  · exact .inr ⟨reply, w', rfl, hrun⟩

lemma getArchive_run (c : Client) (a : Agent) (r : RepoName) (reference : String) (w : Wire) :
    let resolved := (c.archiveLink r .tarball reference Repository.archiveRedirects).run w
    let out := ((Repository.getArchive r reference).run.runOn c a).run w
    out.2 = resolved.2 ∨
      ∃ link event, out = (downloadArchive a link).run (resolved.2.report event) := by
  intro resolved out
  obtain ⟨e, w', hx, hrun⟩ | ⟨link, w', hx, hrun⟩ := Operation.runOn_call_bind c a
    (.archiveLink r .tarball reference Repository.archiveRedirects) (fun link : Url => do
      Operation.report .debug "downloading archive" (Repository.repoFields r ++
        [("reference", reference), ("host", Text.quoteOption link.host?)])
      Operation.download link) w
  · have hresolved : resolved.2 = w' := congrArg Prod.snd hx
    exact .inl ((congrArg Prod.snd hrun).trans hresolved.symm)
  · have hresolved : resolved.2 = w' := congrArg Prod.snd hx
    rw [hresolved]
    exact .inr ⟨link, _, hrun⟩

lemma getArchive_tokenless (t : Token) (c : Client) (a : Agent) (r : RepoName)
    (reference : String) (w : Wire) :
    ((c.archiveLink r .tarball reference Repository.archiveRedirects).run w).2.Passes
      (·.Tokenless t) (((Repository.getArchive r reference).run.runOn c a).run w).2 := by
  obtain h | ⟨link, event, h⟩ := getArchive_run c a r reference w
  · rw [h]
    exact .refl _
  · rw [h]
    exact (Wire.Passes.report event _).trans
      (downloadArchive_tokenless t a link _ fun _ _ => trivial).1

/-- Whatever comes back, a request with a token goes to the host and port of the root of its
client, in all calls but the resolution of archive links. The download of an archive, by any agent
and from any link, sends no token at all. -/
theorem token_confined (c : Client) (t : Token) (w : Wire) :
    (∀ x : Call, x.isArchiveLink = false →
      ∃ reqs, ((c.answer x).run w).2.sent = w.sent ++ reqs ∧
        ∀ q ∈ reqs, q.Bears t → q.url.origin = c.apiBase.origin) ∧
    (∀ (a : Agent) (link : Url),
      ∃ reqs, ((downloadArchive a link).run w).2.sent = w.sent ++ reqs ∧
        ∀ q ∈ reqs, q.Tokenless t) ∧
    ∀ (a : Agent) (r : RepoName) (reference : String),
      ∃ reqs, (((Repository.getArchive r reference).run.runOn c a).run w).2.sent =
          ((c.archiveLink r .tarball reference Repository.archiveRedirects).run w).2.sent ++ reqs ∧
        ∀ q ∈ reqs, q.Tokenless t := by
  refine ⟨fun x hx => ?_, fun a link => ?_, fun a r reference => ?_⟩
  · exact (c.answer_confined hx w fun _ _ => trivial).1.sent fun q hq hb =>
      (Url.origin_target q.url).trans (hq hb)
  · exact (downloadArchive_tokenless t a link w fun _ _ => trivial).1.sent fun _ hq => hq
  · exact (getArchive_tokenless t c a r reference w).sent fun _ hq => hq

section

/-- A client on a host of its own, with a token. -/
def keyed : Client where
  apiBase := ⟨"http", some { host := .domain "api.test" }, .segments [""], none, none⟩
  token := some ⟨"secret"⟩
  userAgent := "agent"

def movedTo (status : Status) (reference : String) : Response :=
  { status := status, headers := [("location", Text.Utf8.encode reference)] }

/-- A chain that leaves the host and comes back: the token does not come back with it. -/
theorem token_confined_returning :
    let w := Wire.scripted "http"
      [movedTo 302 "http://other.test/x", movedTo 302 "http://api.test/y"]
    let x := Call.getRef ⟨"o", "r"⟩ "refs/heads/main"
    ((keyed.answer x).run w).2.sent.map (fun q => (q.url.host?, q.headers.lookup "authorization")) =
        [(some "api.test", some "Bearer secret"), (some "other.test", none),
          (some "api.test", none)] ∧
      ∃ reqs, ((keyed.answer x).run w).2.sent = w.sent ++ reqs ∧
        ∀ q ∈ reqs, q.Bears ⟨"secret"⟩ → q.url.origin = keyed.apiBase.origin :=
  ⟨by decide +kernel, (token_confined keyed ⟨"secret"⟩ _).1 _ rfl⟩

end

end HostedRepo
