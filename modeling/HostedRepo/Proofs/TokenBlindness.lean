import HostedRepo.Command.Execute
import HostedRepo.Proofs.AgreeingRuns
import HostedRepo.Proofs.TokenConfinement

/-!
# Runs with two tokens

Two clients that differ in nothing but their tokens run side by side on one script. Their wires
stay alike: every request of the first run has a twin in the second, in which the one token stands
where the other stood. All results, and all that is printed, written and reported, is the same.
-/

namespace HostedRepo

open Http

/-! ### Requests with another token -/

section Reissue

variable (t₁ t₂ : Token)

/-- A header with the second token where it had the first. -/
def reissue (h : String × String) : String × String :=
  if h = ("authorization", t₁.headerValue) then ("authorization", t₂.headerValue) else h

/-- A request with the second token where it had the first. -/
def Http.Request.reissued (q : Request) : Request :=
  { q with headers := q.headers.map (reissue t₁ t₂) }

@[simp] lemma reissue_fst (h : String × String) : (reissue t₁ t₂ h).1 = h.1 := by
  unfold reissue
  split
  · next heq => rw [heq]
  · rfl

lemma reissue_eq_self {h : String × String} (hne : h.1 ≠ "authorization") :
    reissue t₁ t₂ h = h := by
  unfold reissue
  rw [if_neg]
  rintro rfl
  exact hne rfl

namespace Http.Agent

lemma withDefaults_reissue (a : Agent) (headers : Headers) :
    a.withDefaults (headers.map (reissue t₁ t₂)) =
      (a.withDefaults headers).map (reissue t₁ t₂) := by
  have hany (name : String) : (headers.map (reissue t₁ t₂)).any (·.1 == name) =
      headers.any (·.1 == name) := by
    simp [List.any_map, Function.comp_def]
  have haccept : reissue t₁ t₂ ("accept", "*/*") = ("accept", "*/*") :=
    reissue_eq_self t₁ t₂ (by decide)
  have hagent (v : String) : reissue t₁ t₂ ("user-agent", v) = ("user-agent", v) :=
    reissue_eq_self t₁ t₂ (by simp)
  unfold withDefaults
  simp only [hany]
  rw [List.map_append, List.map_append]
  congr 1
  · congr 1
    split <;> simp [haccept]
  · cases a.userAgent with
    | none => rfl
    | some v =>
      dsimp only
      split <;> simp [hagent]

lemma redirected_reissued (q : Request) (status : Status) (u : Url) :
    redirected (q.reissued t₁ t₂) status u = (redirected q status u).reissued t₁ t₂ := by
  unfold redirected Request.reissued
  simp only [List.filter_map, Function.comp_def, reissue_fst]

lemma basicHeader_reissue (u : Url) : (basicHeader u).map (reissue t₁ t₂) = basicHeader u := by
  refine (List.map_congr_left fun h hmem => ?_).trans (List.map_id _)
  unfold reissue
  rw [if_neg]
  · rfl
  · rintro rfl
    exact headerValue_notMem_basicHeader u t₁ _ hmem

lemma prepared_reissued (m : Method) (u : Url) (query : List (String × String))
    (headers : Headers) (body : Option Json.Value) :
    prepared m u query (headers.map (reissue t₁ t₂)) body =
      (prepared m u query headers body).reissued t₁ t₂ := by
  have hcontent : reissue t₁ t₂ ("content-type", "application/json") =
      ("content-type", "application/json") := reissue_eq_self t₁ t₂ (by decide)
  unfold prepared Request.reissued
  simp only [List.map_append, basicHeader_reissue]
  congr 2
  split <;> simp [hcontent]

end Http.Agent
end Reissue

/-! ### Sending -/

/-- Wires on which the same has happened, but for the token in the requests that came after
earlier ones. -/
structure Http.Wire.Twins (t₁ t₂ : Token) (earlier : List Request) (w₁ w₂ : Wire) : Prop where
  reaches : w₂.reaches = w₁.reaches
  responses : w₂.responses = w₁.responses
  log : w₂.log = w₁.log
  sent : ∃ reqs, w₁.sent = earlier ++ reqs ∧ w₂.sent = earlier ++ reqs.map (·.reissued t₁ t₂)

section Sending

variable {t₁ t₂ : Token} {earlier : List Request}

lemma Http.Wire.Twins.refl (w : Wire) : Wire.Twins t₁ t₂ w.sent w w :=
  ⟨rfl, rfl, rfl, [], by simp⟩

lemma Http.Wire.Twins.report (e : Log.Event) {w₁ w₂ : Wire} (h : Wire.Twins t₁ t₂ earlier w₁ w₂) :
    Wire.Twins t₁ t₂ earlier (w₁.report e) (w₂.report e) :=
  { h with log := congrArg (· ++ [e]) h.log }

namespace Http.Agent

lemma exchange_agree (q : Request) : Agree (Wire.Twins t₁ t₂ earlier)
    (fun w => pure (w.exchange q)) (fun w => pure (w.exchange (q.reissued t₁ t₂))) := by
  intro w₁ w₂ h
  change (w₁.exchange q).1 = (w₂.exchange _).1 ∧
    Wire.Twins t₁ t₂ earlier (w₁.exchange q).2 (w₂.exchange _).2
  obtain ⟨reqs, hs₁, hs₂⟩ := h.sent
  unfold Wire.exchange
  have hreaches : w₂.reaches (q.reissued t₁ t₂).url = w₁.reaches q.url := congrFun h.reaches q.url
  rw [hreaches]
  split
  · have hsent : ∃ reqs, w₁.sent ++ [q.onWire] = earlier ++ reqs ∧
        w₂.sent ++ [(q.reissued t₁ t₂).onWire] = earlier ++ reqs.map (·.reissued t₁ t₂) :=
      ⟨reqs ++ [q.onWire], by simp [hs₁], by simp [hs₂, Request.reissued, Request.onWire]⟩
    simp only [h.responses]
    cases hr : w₁.responses with
    | nil => exact ⟨rfl, h.reaches, rfl, h.log, hsent⟩
    | cons response rest => exact ⟨rfl, h.reaches, rfl, h.log, hsent⟩
  · exact ⟨rfl, h⟩

/-- Neither redirects nor the wire take notice of the token. -/
lemma reissued_unnoticed :
    Unnoticed (Wire.Twins t₁ t₂ earlier) (Request.reissued t₁ t₂) where
  url _ := rfl
  redirected := redirected_reissued t₁ t₂
  defaults a q := by simp [Request.reissued, withDefaults_reissue]
  exchange := exchange_agree

end Http.Agent

lemma transmit_agree (a : Agent) (prepared : Except Fault Request) :
    Agree (Wire.Twins t₁ t₂ earlier) (Client.transmit a prepared).run
      (Client.transmit a (prepared.map (·.reissued t₁ t₂))).run :=
  (Agent.reissued_unnoticed.send a prepared).bind fun _ => .pure _

lemma report_agree (source : Log.Source) (message : String) (fields : List (String × String)) :
    Agree (Wire.Twins t₁ t₂ earlier) (Client.report source message fields).run
      (Client.report source message fields).run :=
  fun _ _ h => ⟨rfl, h.report _⟩

lemma of_agree {α : Type} (r : Except RemoteError α) :
    Agree (Wire.Twins t₁ t₂ earlier) (Client.Exchange.of r).run (Client.Exchange.of r).run :=
  .pure r

end Sending

/-! ### Calls -/

namespace Client

def withToken (c : Client) (t : Token) : Client := { c with token := some t }

lemma headers_withToken (c : Client) (t₁ t₂ : Token) (accept : String) :
    (c.withToken t₂).headers accept =
      ((c.withToken t₁).headers accept).map (reissue t₁ t₂) := by
  simp [headers, withToken, reissue]

section

variable (c : Client) {t₁ t₂ : Token} (h₁ : isHeaderValue t₁.headerValue = true)
  (h₂ : isHeaderValue t₂.headerValue = true) {earlier : List Request}

include h₁ h₂

lemma prepare_withToken (m : Method) (u : Url) (accept : String)
    (query : List (String × String)) (body : Option Json.Value) :
    Agent.prepare m u query ((c.withToken t₂).headers accept) body =
      (Agent.prepare m u query ((c.withToken t₁).headers accept) body).map
        (·.reissued t₁ t₂) := by
  have hvalid : ((c.withToken t₂).headers accept).all (isHeaderValue ·.2) =
      ((c.withToken t₁).headers accept).all (isHeaderValue ·.2) := by
    simp [headers, withToken, h₁, h₂]
  rw [Agent.prepare_eq, Agent.prepare_eq, hvalid]
  split
  · rfl
  · split
    · rfl
    · rw [c.headers_withToken t₁ t₂, Agent.prepared_reissued]
      rfl

lemma send_agree (m : Method) (u : Url) (accept : String) (query : List (String × String))
    (body : Option Json.Value) :
    Agree (Wire.Twins t₁ t₂ earlier) ((c.withToken t₁).send m u accept query body).run
      ((c.withToken t₂).send m u accept query body).run := by
  unfold send
  rw [c.prepare_withToken h₁ h₂]
  exact transmit_agree c.agent _

lemma gitCall_agree {α : Type} {u : Except RemoteError Url} {message : String}
    {fields : List (String × String)} {m : Method} {query : List (String × String)}
    {body : Option Json.Value} {resource : String} {s : Json.Shape} {ofVal : s.Val → α} :
    Agree (Wire.Twins t₁ t₂ earlier)
      ((c.withToken t₁).gitCall u message fields m query body resource s ofVal).run
      ((c.withToken t₂).gitCall u message fields m query body resource s ofVal).run := by
  refine (of_agree u).andThen fun v => (report_agree _ _ _).andThen fun _ => ?_
  refine (c.send_agree h₁ h₂ m v acceptJson query body).andThen fun answer => ?_
  exact (of_agree _).andThen fun answer => (of_agree _).andThen fun _ => .pure _

lemma getContents_agree (r : RepoName) (path reference : String) :
    Agree (Wire.Twins t₁ t₂ earlier) ((c.withToken t₁).getContents r path reference).run
      ((c.withToken t₂).getContents r path reference).run := by
  refine (of_agree (c.contentsEndpoint r path)).andThen fun u => ?_
  refine (report_agree _ _ _).andThen fun _ => ?_
  refine (c.send_agree h₁ h₂ .get u acceptJson _ none).andThen fun answer => ?_
  exact (of_agree _).andThen fun answer => of_agree _

lemma downloadContents_agree (r : RepoName) (path reference : String) :
    Agree (Wire.Twins t₁ t₂ earlier) ((c.withToken t₁).downloadContents r path reference).run
      ((c.withToken t₂).downloadContents r path reference).run := by
  refine (of_agree (c.contentsEndpoint r path)).andThen fun u => ?_
  refine (report_agree _ _ _).andThen fun _ => ?_
  refine (c.send_agree h₁ h₂ .get u acceptRaw _ none).andThen fun answer => ?_
  exact (of_agree _).andThen fun answer => of_agree _

lemma deletionSha_agree (r : RepoName) (path : String) (d : Deletion) :
    Agree (Wire.Twins t₁ t₂ earlier) ((c.withToken t₁).deletionSha r path d).run
      ((c.withToken t₂).deletionSha r path d).run := by
  unfold deletionSha
  split
  · exact .pure _
  · exact (c.getContents_agree h₁ h₂ r path _).andThen fun _ => .pure _

lemma deleteFile_agree (r : RepoName) (path : String) (d : Deletion) :
    Agree (Wire.Twins t₁ t₂ earlier) ((c.withToken t₁).deleteFile r path d).run
      ((c.withToken t₂).deleteFile r path d).run := by
  refine (c.deletionSha_agree h₁ h₂ r path d).andThen fun sha => ?_
  refine (of_agree (c.contentsEndpoint r path)).andThen fun u => ?_
  refine (report_agree _ _ _).andThen fun _ => ?_
  refine (c.send_agree h₁ h₂ .delete u acceptJson [] _).andThen fun answer => ?_
  exact (of_agree _).andThen fun _ => .pure _

lemma resolveLink_agree (r : RepoName) (format : ArchiveFormat) (limit hops : Nat) (u : Url) :
    Agree (Wire.Twins t₁ t₂ earlier) ((c.withToken t₁).resolveLink r format limit hops u).run
      ((c.withToken t₂).resolveLink r format limit hops u).run := by
  induction hops using Nat.strongRecOn generalizing u with
  | _ hops ih =>
    rw [resolveLink.eq_def (c.withToken t₁), resolveLink.eq_def (c.withToken t₂)]
    refine (report_agree _ _ _).andThen fun _ => ?_
    rw [c.prepare_withToken h₁ h₂]
    refine (transmit_agree c.stayingAgent _).andThen fun answer => ?_
    split
    · exact of_agree _
    · split
      · cases hops with
        | zero => exact .pure _
        | succ hops => exact (of_agree _).andThen fun next => ih hops (by omega) next
      · exact (of_agree _).andThen fun _ => .pure _

theorem answer_agree (x : Call) :
    Agree (Wire.Twins t₁ t₂ earlier) ((c.withToken t₁).answer x).run
      ((c.withToken t₂).answer x).run := by
  cases x with
  | getRef r reference => exact c.gitCall_agree h₁ h₂
  | updateRef r reference sha force => exact c.gitCall_agree h₁ h₂
  | getTree r sha recursive => exact c.gitCall_agree h₁ h₂
  | createTree r base entries => exact c.gitCall_agree h₁ h₂
  | createCommit r commit => exact c.gitCall_agree h₁ h₂
  | getContents r path reference => exact c.getContents_agree h₁ h₂ r path reference
  | downloadContents r path reference => exact c.downloadContents_agree h₁ h₂ r path reference
  | deleteFile r path d => exact c.deleteFile_agree h₁ h₂ r path d
  | archiveLink r format reference redirects =>
    exact (of_agree _).andThen fun u => c.resolveLink_agree h₁ h₂ r format redirects redirects u

end
end Client

lemma downloadArchive_agree {t₁ t₂ : Token} {earlier : List Request} (a : Agent) (link : Url) :
    Agree (Wire.Twins t₁ t₂ earlier) (downloadArchive a link).run (downloadArchive a link).run := by
  have hprepare : Agent.prepare .get link [] [] none =
      (Agent.prepare .get link [] [] none).map (·.reissued t₁ t₂) := by
    have hprepared := Agent.prepared_reissued t₁ t₂ .get link [] [] none
    rw [Agent.prepare_eq]
    split
    · rfl
    · exact congrArg Except.ok hprepared
  have hsent : Agree (Wire.Twins t₁ t₂ earlier)
      (Client.transmit a (Agent.prepare .get link [] [] none)).run
      (Client.transmit a ((Agent.prepare .get link [] [] none).map (·.reissued t₁ t₂))).run :=
    transmit_agree a _
  rw [← hprepare] at hsent
  exact hsent.andThen fun answer => of_agree _

/-! ### Plans, commands and sessions -/

section

variable (c : Client) {t₁ t₂ : Token} (h₁ : isHeaderValue t₁.headerValue = true)
  (h₂ : isHeaderValue t₂.headerValue = true) {earlier : List Request}

include h₁ h₂

theorem Plan.runOn_agree {α : Type} (a : Agent) (p : Plan α) :
    Agree (Wire.Twins t₁ t₂ earlier) (p.runOn (c.withToken t₁) a) (p.runOn (c.withToken t₂) a) := by
  induction p with
  | done x => exact .pure x
  | log e next ih =>
    exact (Agree.modify fun _ _ h => h.report e).bind fun _ => ih
  | call x next ih => exact (c.answer_agree h₁ h₂ x).bind fun reply => ih reply
  | download link next ih => exact (downloadArchive_agree a link).bind fun reply => ih reply

end

/-- Worlds with one disk and one console, and with wires that are twins. -/
structure World.Twins (t₁ t₂ : Token) (earlier : List Request) (w₁ w₂ : World) : Prop where
  disk : w₂.disk = w₁.disk
  console : w₂.console = w₁.console
  wire : Wire.Twins t₁ t₂ earlier w₁.wire w₂.wire

namespace Action

variable {α : Type} {t₁ t₂ : Token} {earlier : List Request}

lemma of_agree (r : Except Failure α) :
    Agree (World.Twins t₁ t₂ earlier) (Action.of r).run (Action.of r).run := .pure r

lemma onDisk_agree (f : Files.Disk → Except Failure α × Files.Disk) :
    Agree (World.Twins t₁ t₂ earlier) (onDisk f).run (onDisk f).run := by
  intro w₁ w₂ h
  change (f w₁.disk).1 = (f w₂.disk).1 ∧ World.Twins t₁ t₂ earlier
    { w₁ with disk := (f w₁.disk).2 } { w₂ with disk := (f w₂.disk).2 }
  rw [h.disk]
  exact ⟨rfl, rfl, h.console, h.wire⟩

lemma print_agree (f : Console → Console) :
    Agree (World.Twins t₁ t₂ earlier) (Action.print f).run (Action.print f).run :=
  fun _ _ h => ⟨rfl, h.disk, congrArg f h.console, h.wire⟩

lemma remote_agree (c : Client) (h₁ : isHeaderValue t₁.headerValue = true)
    (h₂ : isHeaderValue t₂.headerValue = true) (a : Activity) (op : Operation α) :
    Agree (World.Twins t₁ t₂ earlier) (remote (c.withToken t₁) a op).run
      (remote (c.withToken t₂) a op).run := by
  intro w₁ w₂ h
  obtain ⟨heq, hwire⟩ := Plan.runOn_agree c h₁ h₂ c.agent op.run w₁.wire w₂.wire h.wire
  exact ⟨congrArg (Except.mapError fun e => Failure.during a (.remote e)) heq,
    h.disk, h.console, hwire⟩

end Action

namespace Command

variable (c : Client) {t₁ t₂ : Token} (h₁ : isHeaderValue t₁.headerValue = true)
  (h₂ : isHeaderValue t₂.headerValue = true) {earlier : List Request}

lemma checkRepo_agree (r : RepoName) :
    Agree (World.Twins t₁ t₂ earlier) (checkRepo r).run (checkRepo r).run :=
  (Action.of_agree _).andThen fun _ => Action.of_agree _

include h₁ h₂

/-- A command does the same to the world, whatever the token is. -/
theorem execute_agree (x : Command) :
    Agree (World.Twins t₁ t₂ earlier) (execute (c.withToken t₁) x).run
      (execute (c.withToken t₂) x).run := by
  cases x with
  | parseUrl url =>
    exact (Action.of_agree _).andThen fun b => Action.print_agree _
  | get repo path reference output =>
    refine (checkRepo_agree repo).andThen fun _ => ?_
    refine (Action.remote_agree c h₁ h₂ _ _).andThen fun file => ?_
    cases output with
    | none => exact Action.print_agree _
    | some target => exact (Action.onDisk_agree _).andThen fun _ => Action.print_agree _
  | archive repo reference output =>
    refine (checkRepo_agree repo).andThen fun _ => ?_
    refine (Action.remote_agree c h₁ h₂ _ _).andThen fun archive => ?_
    exact (Action.onDisk_agree _).andThen fun _ => Action.print_agree _
  | sha repo path reference =>
    refine (checkRepo_agree repo).andThen fun _ => ?_
    exact (Action.remote_agree c h₁ h₂ _ _).andThen fun sha => Action.print_agree _
  | push repo branch message mappings =>
    refine (checkRepo_agree repo).andThen fun _ => (Action.of_agree _).andThen fun _ => ?_
    refine (Action.of_agree _).andThen fun _ => (Action.of_agree _).andThen fun _ => ?_
    refine (Action.onDisk_agree _).andThen fun files => ?_
    exact (Action.remote_agree c h₁ h₂ _ _).andThen fun _ => Action.print_agree _
  | removeDirs repo folders =>
    refine (checkRepo_agree repo).andThen fun _ => (Action.of_agree _).andThen fun _ => ?_
    exact (Action.remote_agree c h₁ h₂ _ _).andThen fun _ => Action.print_agree _

end Command

/-- What is done with a client: calls, operations with an agent for archives, and commands. All
that was answered may decide what comes next, and on the outside files and the responses to come
may change. -/
inductive Session (α : Type) : Type 1 where
  | done (a : α)
  | call (x : Call) (next : Except RemoteError x.Reply → Session α)
  | operation {β : Type} (a : Agent) (op : Operation β)
      (next : Except RemoteError β → Session α)
  | command (x : Command) (next : Except Failure Unit → Session α)
  | outside (files : Files.Disk → Files.Disk) (responses : List Response → List Response)
      (next : Session α)

namespace Session

variable {α : Type}

def onWire (m : StateM Wire α) : StateM World α := fun w =>
  let (a, wire) := m.run w.wire
  (a, { w with wire := wire })

def run (c : Client) : Session α → StateM World α
  | .done a => return a
  | .call x next => do
    let reply ← onWire (c.answer x).run
    (next reply).run c
  | .operation a op next => do
    let result ← onWire (op.run.runOn c a)
    (next result).run c
  | .command x next => do
    let result ← (x.execute c).run
    (next result).run c
  | .outside files responses next => do
    modify fun w => { w with
      disk := files w.disk
      wire := { w.wire with responses := responses w.wire.responses } }
    next.run c

section

variable {t₁ t₂ : Token} {earlier : List Request}

lemma onWire_agree {m₁ m₂ : StateM Wire α} (h : Agree (Wire.Twins t₁ t₂ earlier) m₁ m₂) :
    Agree (World.Twins t₁ t₂ earlier) (onWire m₁) (onWire m₂) := by
  intro w₁ w₂ hw
  obtain ⟨heq, hwire⟩ := h w₁.wire w₂.wire hw.wire
  exact ⟨heq, hw.disk, hw.console, hwire⟩

lemma run_agree (c : Client) (h₁ : isHeaderValue t₁.headerValue = true)
    (h₂ : isHeaderValue t₂.headerValue = true) (s : Session α) :
    Agree (World.Twins t₁ t₂ earlier) (s.run (c.withToken t₁)) (s.run (c.withToken t₂)) := by
  induction s with
  | done a => exact .pure a
  | call x next ih => exact (onWire_agree (c.answer_agree h₁ h₂ x)).bind fun reply => ih reply
  | operation a op next ih =>
    exact (onWire_agree (Plan.runOn_agree c h₁ h₂ a op.run)).bind fun result => ih result
  | command x next ih => exact (Command.execute_agree c h₁ h₂ x).bind fun result => ih result
  | outside files responses next ih =>
    refine (Agree.modify fun w₁ w₂ h => ?_).bind fun _ => ih
    exact ⟨congrArg files h.disk, h.console,
      { h.wire with responses := congrArg responses h.wire.responses }⟩

end

/-- Of two clients that differ in the token alone, every session gives the same result, leaves the
same files, output and events, and sends the same requests but for the token in their
authorization. -/
theorem token_blind (c : Client) (t₁ t₂ : Token) (h₁ : isHeaderValue t₁.headerValue = true)
    (h₂ : isHeaderValue t₂.headerValue = true) (s : Session α) (w : World) :
    let out₁ := (s.run { c with token := some t₁ }).run w
    let out₂ := (s.run { c with token := some t₂ }).run w
    out₁.1 = out₂.1 ∧ out₁.2.disk = out₂.2.disk ∧ out₁.2.console = out₂.2.console ∧
      out₁.2.wire.log = out₂.2.wire.log ∧ out₁.2.wire.responses = out₂.2.wire.responses ∧
      ∃ reqs, out₁.2.wire.sent = w.wire.sent ++ reqs ∧
        out₂.2.wire.sent = w.wire.sent ++ reqs.map (·.reissued t₁ t₂) := by
  obtain ⟨heq, h⟩ := run_agree c h₁ h₂ s w w ⟨rfl, rfl, .refl w.wire⟩
  exact ⟨heq, h.disk.symm, h.console.symm, h.wire.log.symm, h.wire.responses.symm, h.wire.sent⟩

/-- A lookup that is sent to another host, and a command after it. -/
theorem token_blind_redirected :
    let s : Session Bool := .call (.getRef ⟨"o", "r"⟩ "refs/heads/main") fun _ =>
      .command (.sha ⟨"o", "r"⟩ "p" "main") fun result => .done result.isOk
    let w : World := ⟨{}, .scripted "http" [movedTo 302 "http://other.test/x"], {}⟩
    let out₁ := (s.run { keyed with token := some ⟨"one"⟩ }).run w
    let out₂ := (s.run { keyed with token := some ⟨"two"⟩ }).run w
    out₁.2.wire.sent.map (·.headers.lookup "authorization") =
        [some "Bearer one", none, some "Bearer one"] ∧
      out₂.2.wire.sent.map (·.headers.lookup "authorization") =
        [some "Bearer two", none, some "Bearer two"] ∧
      out₁.1 = out₂.1 ∧ out₁.2.disk = out₂.2.disk ∧ out₁.2.console = out₂.2.console ∧
      out₁.2.wire.log = out₂.2.wire.log ∧ out₁.2.wire.responses = out₂.2.wire.responses ∧
      ∃ reqs, out₁.2.wire.sent = w.wire.sent ++ reqs ∧
        out₂.2.wire.sent = w.wire.sent ++ reqs.map (·.reissued ⟨"one"⟩ ⟨"two"⟩) :=
  ⟨by decide +kernel, by decide +kernel,
    token_blind keyed ⟨"one"⟩ ⟨"two"⟩ (by decide +kernel) (by decide +kernel) _ _⟩

end Session

end HostedRepo
