import HostedRepo.Proofs.CommandChecks
import HostedRepo.Proofs.ConfinedCommands

/-!
# The authorization of requests

When the URL of its root names no user, every trail of a client starts with its token as the only
authorization. Without a token, no request has one, wherever it comes from. With a token that cannot
be the value of a header, nothing is sent and every operation fails.
-/

namespace HostedRepo

open Http

/-! ### Headers of requests -/

namespace Http

/-- The values of the authorization headers of a request. -/
def Request.authorizations (q : Request) : List String :=
  (q.headers.filter (·.1 = "authorization")).map (·.2)

lemma isHeaderValue_bearer (s : String) :
    isHeaderValue (Token.headerValue ⟨s⟩) = isHeaderValue s := by
  unfold isHeaderValue Token.headerValue
  rw [String.toList_append, List.all_append]
  simp

namespace Agent

lemma basicHeader_of_plain {u : Url} (h : u.withoutUserinfo.authority = u.authority) :
    basicHeader u = [] := by
  unfold basicHeader
  cases ha : u.authority with
  | none => rfl
  | some a =>
    rw [Url.withoutUserinfo, ha, Option.map_some, Option.some.injEq] at h
    rw [← h]
    rfl

lemma filter_withDefaults (a : Agent) (headers : Headers) :
    (a.withDefaults headers).filter (·.1 = "authorization") =
      headers.filter (·.1 = "authorization") := by
  unfold withDefaults
  extract_lets missing
  cases missing "accept" <;> cases missing "user-agent" <;> cases a.userAgent <;> simp

lemma prepared_not_bears (a : Agent) (m : Method) (u : Url) (query : List (String × String))
    {headers : Headers} (body : Option Json.Value) {t : Token}
    (h : ("authorization", t.headerValue) ∉ headers) :
    let r := prepared m u query headers body
    ¬({ r with headers := a.withDefaults r.headers } : Request).Bears t := by
  intro r hbears
  obtain hmem | heq | hname := mem_withDefaults hbears
  · have hcases : ("authorization", t.headerValue) ∈ basicHeader u ∨
        ("authorization", t.headerValue) ∈ headers ∨ body.isSome = true ∧ False := by
      simpa [r, prepared] using hmem
    obtain hbasic | hheaders | ⟨-, ⟨⟩⟩ := hcases
    · exact headerValue_notMem_basicHeader u t _ hbasic
    · exact h hheaders
  · simp at heq
  · simp at hname

end Agent
end Http

namespace Client

variable {c : Client}

lemma authorizations_prepared (c : Client) (a : Agent) {u : Url}
    (hplain : Agent.basicHeader u = []) (m : Method) (accept : String)
    (query : List (String × String)) (body : Option Json.Value) :
    let r := Agent.prepared m u query (c.headers accept) body
    ({ r with headers := a.withDefaults r.headers } : Request).authorizations =
      (c.token.map Token.headerValue).toList := by
  intro r
  unfold Request.authorizations
  rw [Agent.filter_withDefaults]
  have hheaders : r.headers = c.headers accept ++
      (if body.isSome then [("content-type", "application/json")] else []) := by
    simp [r, Agent.prepared, hplain]
  rw [hheaders, headers]
  cases body <;> cases c.token <;> simp

/-! ### The start of trails -/

/-- Trails that start with the token of a client as the only authorization, if it has one. -/
def OpensAuthorized (c : Client) : Wire → Wire → Prop :=
  Wire.Opens c.Leads (·.authorizations = (c.token.map Token.headerValue).toList)

lemma endpoint_authority {segments : List String} {u : Url} (h : c.endpoint segments = .ok u) :
    u.authority = c.apiBase.authority := by
  obtain ⟨path, rfl⟩ := exists_path_of_endpoint h
  rfl

lemma endpoint_plain (hbase : c.apiBase.withoutUserinfo = c.apiBase) {segments : List String}
    {u : Url} (h : c.endpoint segments = .ok u) : Agent.basicHeader u = [] := by
  have hauthority := endpoint_authority h
  apply Agent.basicHeader_of_plain
  have hplain := congrArg Url.authority hbase
  rw [Url.withoutUserinfo] at hplain ⊢
  rw [hauthority]
  exact hplain

/-- Whatever is called and whatever comes back, all trails start with the token of the client. -/
theorem answer_authorized (hbase : c.apiBase.withoutUserinfo = c.apiBase) (x : Call) :
    Along (fun _ => True) c.OpensAuthorized (c.answer x) fun _ => True := by
  refine answer_along Wire.opens_tracked ?_ ?_
  · rintro m u accept query body ⟨area, -, texts, hu⟩ w -
    have hfirst := c.authorizations_prepared c.agent (endpoint_plain hbase hu) m accept query body
    exact ⟨(send_travels c m u accept query body w).opens hfirst, fun _ _ => trivial⟩
  · rintro r format limit hops u ⟨area, -, texts, hu⟩ w -
    have hfirst := c.authorizations_prepared c.stayingAgent (endpoint_plain hbase hu) .get
      acceptJson [] none
    exact ⟨(resolveLink_travels c r format limit hops u w).opens hfirst, fun _ _ => trivial⟩

/-! ### Without a token -/

lemma headers_tokenless (hnone : c.token = none) (accept : String) (t : Token) :
    ("authorization", t.headerValue) ∉ c.headers accept := by
  simp [headers, hnone]

lemma redirected_not_bears {q : Request} {response : Response} {u : Url}
    (h : ∀ t, ¬q.Bears t) (t : Token) : ¬(Agent.redirected q response.status u).Bears t :=
  fun hbears => h t (Agent.mem_redirected_headers hbears).1

/-- A client without a token never sends one, wherever responses lead it. -/
theorem answer_bears_nothing (hnone : c.token = none) (x : Call) :
    Sends (fun _ => True) (fun q => ∀ t, ¬q.Bears t) (c.answer x) fun _ => True := by
  refine answer_along (Wire.passes_tracked _ _) ?_ ?_
  · intro m u accept query body _
    refine (sends_transmit (fun _ q response v hq _ _ => redirected_not_bears hq) ?_).imp
      fun _ _ => trivial
    exact fun t => Agent.prepared_not_bears _ _ _ _ _ (headers_tokenless hnone accept t)
  · intro r format limit hops u _
    refine resolveLink_sends (U := fun _ => True) (fun v _ t => ?_) (fun _ _ _ _ _ _ _ => trivial)
      r format limit hops trivial
    exact Agent.prepared_not_bears _ _ _ _ _ (headers_tokenless hnone acceptJson t)

end Client

lemma downloadArchive_bears_nothing (a : Agent) (link : Url) :
    Sends (fun _ => True) (fun q => ∀ t, ¬q.Bears t) (downloadArchive a link) fun _ => True := by
  refine downloadArchive_sends ((Client.sends_transmit
    (fun _ q response v hq _ _ => Client.redirected_not_bears hq) ?_).imp fun _ _ => trivial)
  exact fun t => Agent.prepared_not_bears _ _ _ _ _ List.not_mem_nil

lemma Plan.only_any {α : Type} (p : Plan α) : p.Only (fun _ => True) fun _ => True := by
  induction p with
  | done a => trivial
  | log e next ih => exact ih
  | call x next ih => exact ⟨trivial, ih⟩
  | download link next ih => exact ⟨trivial, ih⟩

/-! ### A token that cannot be sent -/

namespace Client

variable {α β : Type} {c : Client}

/-- An exchange that sends nothing and fails, but not because something is missing. -/
def Refuses (x : Exchange α) : Prop :=
  ∀ w, ∃ e w', x.run w = (.error e, w') ∧ e.isNotFound = false ∧ w'.sent = w.sent

lemma Refuses.bind {x : Exchange α} (hx : Refuses x) (f : α → Exchange β) :
    Refuses (x >>= f) := by
  intro w
  obtain ⟨e, w', hrun, he, hsent⟩ := hx w
  exact ⟨e, w', by rw [run_bind, hrun], he, hsent⟩

lemma Refuses.after_report {source : Log.Source} {message : String}
    {fields : List (String × String)} {f : Unit → Exchange β} (hf : Refuses (f ())) :
    Refuses (report source message fields >>= f) := by
  intro w
  obtain ⟨e, w', hrun, he, hsent⟩ := hf (w.report ⟨.debug, source, message, fields⟩)
  exact ⟨e, w', hrun, he, hsent⟩

lemma Refuses.after_endpoint {segments : List String} {f : Url → Exchange β}
    (hf : ∀ u, Refuses (f u)) : Refuses (Exchange.of (c.endpoint segments) >>= f) := by
  intro w
  cases hu : c.endpoint segments with
  | ok u =>
    obtain ⟨e, w', hrun, he, hsent⟩ := hf u w
    exact ⟨e, w', hrun, he, hsent⟩
  | error e =>
    refine ⟨e, w, rfl, ?_, rfl⟩
    unfold endpoint at hu
    split at hu
    · cases hu
      rfl
    · cases hu

lemma Refuses.lift_bind {x : Exchange α} {f : Except RemoteError α → Exchange β} (hx : Refuses x)
    (hf : ∀ e, e.isNotFound = false → Refuses (f (.error e))) :
    Refuses (ExceptT.lift x.run >>= f) := by
  intro w
  obtain ⟨e, w', hrun, he, hsent⟩ := hx w
  obtain ⟨e', w'', hrun', he', hsent'⟩ := hf e he w'
  refine ⟨e', w'', ?_, he', hsent'.trans hsent⟩
  have hlift : (ExceptT.lift x.run : Exchange _).run w = (.ok (x.run w).1, (x.run w).2) := rfl
  rw [run_bind, hlift, hrun]
  exact hrun'

lemma refuses_throw {e : RemoteError} (he : e.isNotFound = false) :
    Refuses (throw e : Exchange α) :=
  fun w => ⟨e, w, rfl, he, rfl⟩

lemma refuses_transmit (a : Agent) (m : Method) (u : Url) (query : List (String × String))
    {headers : Headers} (body : Option Json.Value)
    (h : headers.all (isHeaderValue ·.2) = false) :
    Refuses (transmit a (Agent.prepare m u query headers body)) := by
  intro w
  have hfault : ∃ f, Agent.prepare m u query headers body = .error f := by
    rw [Agent.prepare_eq, h]
    split
    · exact ⟨_, rfl⟩
    · exact ⟨_, rfl⟩
  obtain ⟨f, hf⟩ := hfault
  rw [hf]
  exact ⟨.transport f, w, rfl, rfl, rfl⟩

section

variable {t : Token} (ht : c.token = some t) (hinvalid : isHeaderValue t.headerValue = false)

include ht hinvalid

lemma headers_invalid (accept : String) :
    (c.headers accept).all (isHeaderValue ·.2) = false := by
  simp [headers, ht, hinvalid]

lemma refuses_send (m : Method) (u : Url) (accept : String) (query : List (String × String))
    (body : Option Json.Value) : Refuses (c.send m u accept query body) :=
  refuses_transmit _ _ _ _ _ (headers_invalid ht hinvalid accept)

lemma refuses_request {segments : List String} {source : Log.Source} {message : String}
    {fields : List (String × String)} {m : Method} {accept : String}
    {query : List (String × String)} {body : Option Json.Value} (f : Response → Exchange β) :
    Refuses (do
      let u ← Exchange.of (c.endpoint segments)
      report source message fields
      let answer ← c.send m u accept query body
      f answer) := by
  apply Refuses.after_endpoint
  intro u
  apply Refuses.after_report
  exact (refuses_send ht hinvalid m u accept query body).bind f

lemma refuses_getContents (r : RepoName) (path reference : String) :
    Refuses (c.getContents r path reference) :=
  refuses_request ht hinvalid _

lemma refuses_deleteFile (r : RepoName) (path : String) (d : Deletion) :
    Refuses (c.deleteFile r path d) := by
  unfold deleteFile deletionSha
  split
  · rw [pure_bind]
    exact refuses_request ht hinvalid _
  · exact ((refuses_getContents ht hinvalid r path _).bind _).bind _

theorem answer_refuses (x : Call) : Refuses (c.answer x) := by
  cases x with
  | getContents r path reference => exact refuses_getContents ht hinvalid r path reference
  | deleteFile r path d => exact refuses_deleteFile ht hinvalid r path d
  | archiveLink r format reference redirects =>
    refine Refuses.after_endpoint fun u => ?_
    rw [resolveLink.eq_def]
    refine Refuses.after_report ?_
    exact (refuses_transmit _ _ _ _ _ (headers_invalid ht hinvalid acceptJson)).bind _
  | _ => exact refuses_request ht hinvalid _

lemma refuses_call_bind (a : Agent) (x : Call) (f : x.Reply → Operation β) :
    Refuses (c.perform a (Operation.call x >>= f)) := by
  rw [perform_call_bind]
  exact (answer_refuses ht hinvalid x).bind _

lemma refuses_deleteDir (a : Agent) (r : RepoName) (folder : String) :
    Refuses (c.perform a (Repository.deleteDir r folder)) := by
  unfold Repository.deleteDir
  rw [perform_bind, perform_attempt]
  refine (answer_refuses ht hinvalid _).lift_bind fun e he => ?_
  cases e with
  | notFound resource => cases he
  | _ => exact refuses_throw he

lemma refuses_deleteDirs (a : Agent) (r : RepoName) {folders : List String}
    (h : Check.folders folders = .ok ()) :
    Refuses (c.perform a (Repository.deleteDirs r folders)) := by
  unfold Repository.deleteDirs
  rw [Check.find?_isRoot_of_folders h]
  cases folders with
  | nil => cases h
  | cons folder rest =>
    dsimp only
    rw [perform_forM_cons]
    exact (refuses_deleteDir ht hinvalid a r folder).bind _

end

end Client

lemma Task.refuses {x : Command} {d : Files.Disk} {task : Task} {c : Client} {t : Token}
    (ht : c.token = some t) (hinvalid : isHeaderValue t.headerValue = false) (a : Agent)
    (htask : x.task? d = some task) (hmet : x.firstFailure? d = none) :
    Client.Refuses (c.perform a task.operation) := by
  cases x with
  | parseUrl url => cases htask
  | get r path reference output =>
    cases htask
    exact Client.refuses_call_bind ht hinvalid a _ _
  | archive r reference output =>
    cases htask
    exact Client.refuses_call_bind ht hinvalid a _ _
  | sha r path reference =>
    cases htask
    exact Client.refuses_call_bind ht hinvalid a _ _
  | push r branch message mappings =>
    obtain ⟨files, -, rfl⟩ := Option.map_eq_some_iff.mp htask
    exact Client.refuses_call_bind ht hinvalid a _ _
  | removeDirs r folders =>
    cases htask
    exact Client.refuses_deleteDirs ht hinvalid a r (Command.folders_accepted hmet)

/-! ### Commands -/

/-- One act of a plan that is run on a client. A call only opens trails that start with the token
of the client. -/
def Client.TakesAuthorized (c : Client) (w : Wire) (act : Act) (w' : Wire) : Prop :=
  c.Takes c.agent w act w' ∧ ∀ x, act = .answered x → c.OpensAuthorized w w'

namespace Command

variable {c : Client} {x : Command}

/-- A command whose demands are met goes through a history of its operation, and all trails of the
calls in it start with the token. -/
theorem execute_authorized (hbase : c.apiBase.withoutUserinfo = c.apiBase) {w : World}
    {task : Task} (hmet : x.firstFailure? w.disk = none) (htask : x.task? w.disk = some task) :
    ∃ h result, task.operation.run.Yields h result ∧
      Through c.TakesAuthorized w.wire h ((x.execute c).run w).2.wire := by
  obtain ⟨hwire, -⟩ := execute_performs (c := c) hmet htask
  obtain ⟨h, hyields, ht⟩ := runOn_history c c.agent task.operation.run w.wire
  refine ⟨h, _, hyields, ?_⟩
  rw [hwire]
  refine ht.imp fun v v' act _ htakes => ⟨htakes, ?_⟩
  rintro y rfl
  have hopens := (Client.answer_authorized hbase y.call v trivial).1
  have hrun : ((c.answer y.call).run v).2 = v' := congrArg Prod.snd htakes
  rwa [hrun] at hopens

theorem execute_bears_nothing (hnone : c.token = none) (hx : ∀ url, x ≠ .parseUrl url)
    (w : World) : w.wire.Passes (fun q => ∀ t, ¬q.Bears t) ((x.execute c).run w).2.wire := by
  cases hmet : x.firstFailure? w.disk with
  | some f =>
    rw [execute_run_of_failure hmet]
    exact .refl _
  | none =>
    obtain ⟨task, htask⟩ := exists_task hx hmet
    obtain ⟨hwire, -⟩ := execute_performs (c := c) hmet htask
    rw [hwire]
    exact (Plan.only_any _).sends (fun y _ => Client.answer_bears_nothing hnone y)
      (fun link _ => downloadArchive_bears_nothing c.agent link) w.wire fun _ _ => trivial

/-- A command that needs the repository fails with a token that cannot be sent, and sends
nothing. -/
theorem execute_refused {t : Token} (ht : c.token = some t)
    (hinvalid : isHeaderValue t.headerValue = false) (hx : ∀ url, x ≠ .parseUrl url) (w : World) :
    (∃ f, ((x.execute c).run w).1 = .error f) ∧
      ((x.execute c).run w).2.wire.sent = w.wire.sent := by
  cases hmet : x.firstFailure? w.disk with
  | some f =>
    rw [execute_run_of_failure hmet]
    exact ⟨⟨f, rfl⟩, rfl⟩
  | none =>
    obtain ⟨task, htask⟩ := exists_task hx hmet
    obtain ⟨e, w', hrun, -, hsent⟩ := Task.refuses ht hinvalid c.agent htask hmet w.wire
    obtain ⟨hwire, ⟨e', -, hfailed⟩ | ⟨a, hok, -⟩⟩ := execute_performs (c := c) hmet htask
    · rw [hrun] at hwire
      rw [hwire]
      exact ⟨⟨_, hfailed⟩, hsent⟩
    · rw [hrun] at hok
      cases hok

end Command
end HostedRepo
