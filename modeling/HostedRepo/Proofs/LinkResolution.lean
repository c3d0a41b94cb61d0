import HostedRepo.Proofs.ArchiveLinks
import HostedRepo.Proofs.EndpointPaths

/-!
# The resolution of archive links

A resolution asks one URL after the other, each of them joined from the one before it and what the
response to that says. It goes on while it is told that the repository has moved and moves are left,
and the first response of another kind ends it.
-/

namespace HostedRepo

open Http

namespace Client

/-- Why a request for a link cannot be sent to a URL, if it cannot. -/
def hindrance? (c : Client) (reaches : Url → Bool) (u : Url) : Option Fault :=
  match Agent.prepare .get u [] (c.headers acceptJson) none with
  | .error fault => some fault
  | .ok _ =>
    if Agent.isWeb u then
      if reaches u.withoutUserinfo then none else some (.unreachable u.withoutUserinfo)
    else some (.scheme u.withoutUserinfo)

/-- The URLs that are asked on the way from one URL to another, and the responses of a repository
that has moved: each URL is joined from the one before it and the location that its response
names. -/
inductive Moved (c : Client) (reaches : Url → Bool) :
    Url → List Url → List Response → Url → Prop
  | here (u : Url) : Moved c reaches u [] [] u
  | step {u v last : Url} {asked : List Url} {response : Response} {moves : List Response}
    {reference : String} : c.hindrance? reaches u = none → response.status = 301 →
      response.visible? "location" = some reference → u.join reference = .ok v →
      Moved c reaches v asked moves last → Moved c reaches u (u :: asked) (response :: moves) last

/-- What a response of a URL makes of a resolution that it ends, when `left` more moves would be
followed. -/
inductive Verdict (r : RepoName) (format : ArchiveFormat) (limit left : Nat) (u : Url)
    (response : Response) : Except RemoteError Url → Prop
  | found {reference : String} {link : Url} : response.status = 302 →
    response.visible? "location" = some reference → u.join reference = .ok link →
      Verdict r format limit left u response (.ok link)
  | nowhere : response.status = 302 ∨ (response.status = 301 ∧ 0 < left) →
    response.visible? "location" = none →
      Verdict r format limit left u response (.error (.unexpected
        (response.status.text ++ " redirect from " ++ u.text ++ " without a Location header")))
  | astray {reference : String} {fault : Url.Fault} :
    response.status = 302 ∨ (response.status = 301 ∧ 0 < left) →
    response.visible? "location" = some reference → u.join reference = .error fault →
      Verdict r format limit left u response (.error (.url fault))
  | exhausted : response.status = 301 → left = 0 →
      Verdict r format limit left u response (.error (.unexpected ("exceeded " ++ toString limit ++
        " redirects resolving " ++ format.name ++ " link for " ++ r.text)))
  | missing : response.status = 404 →
      Verdict r format limit left u response (.error (.notFound (r.text ++ " " ++ format.name)))
  | settled : response.status.isSuccess = true →
      Verdict r format limit left u response (.error (.unexpected
        ("expected a redirect resolving " ++ format.name ++ " link for " ++ r.text ++ ", got " ++
          response.status.text)))
  | refused : response.status ∉ [301, 302, 404] → response.status.isSuccess = false →
      Verdict r format limit left u response (.error (.refused response.status (refusal response)))

/-- A resolution ends at a URL: the responses that were left when it came there, the requests that
it still sends, the responses that are left then, and the result. -/
inductive EndsAt (c : Client) (reaches : Url → Bool) (r : RepoName) (format : ArchiveFormat)
    (limit left : Nat) (u : Url) :
    List Response → List Url → List Response → Except RemoteError Url → Prop
  | unsent {script : List Response} {fault : Fault} : c.hindrance? reaches u = some fault →
      EndsAt c reaches r format limit left u script [] script (.error (.transport fault))
  | unanswered : c.hindrance? reaches u = none →
      EndsAt c reaches r format limit left u [] [u] []
        (.error (.transport (.dropped u.withoutUserinfo)))
  | answered {response : Response} {script : List Response} {x : Except RemoteError Url} :
    c.hindrance? reaches u = none → Verdict r format limit left u response x →
      EndsAt c reaches r format limit left u (response :: script) [u] script x

section

variable {c : Client} {reaches : Url → Bool} {r : RepoName} {format : ArchiveFormat}
  {limit left : Nat} {u : Url} {w : Wire}

/-! ### One URL -/

/-- The one request that a resolution sends to a URL. -/
def ask (c : Client) (u : Url) : Exchange Response :=
  transmit c.stayingAgent (Agent.prepare .get u [] (c.headers acceptJson) none)

lemma ask_run_of_isWeb {q : Request}
    (hp : Agent.prepare .get u [] (c.headers acceptJson) none = .ok q)
    (hweb : Agent.isWeb u = true) (w : Wire) :
    let sent := (Agent.follow c.stayingAgent u.withoutUserinfo Agent.redirectLimit
      (c.resolving u)).run w
    (c.ask u).run w = (sent.1.mapError .transport, sent.2) := by
  obtain rfl := Agent.eq_prepared hp
  have hsend : c.stayingAgent.send (.ok (Agent.prepared .get u [] (c.headers acceptJson) none)) =
      Agent.follow c.stayingAgent u.withoutUserinfo Agent.redirectLimit (c.resolving u) :=
    if_pos hweb
  rw [ask, hp, transmit_run, hsend]

lemma ask_unsent {fault : Fault} (h : c.hindrance? w.reaches u = some fault) :
    (c.ask u).run w = (.error (.transport fault), w) := by
  unfold hindrance? at h
  cases hp : Agent.prepare .get u [] (c.headers acceptJson) none with
  | error f =>
    rw [hp] at h
    cases h
    rw [ask, hp]
    rfl
  | ok q =>
    rw [hp] at h
    dsimp only at h
    split at h
    · next hweb =>
      split at h
      · cases h
      · next hreached =>
        cases h
        have hexchange : w.exchange (c.resolving u) = (.unreachable, w) := if_neg hreached
        rw [ask_run_of_isWeb hp hweb, Agent.follow_unreachable hexchange]
        rfl
    · next hweb =>
      cases h
      obtain rfl := Agent.eq_prepared hp
      have hsend : c.stayingAgent.send
          (.ok (Agent.prepared .get u [] (c.headers acceptJson) none)) =
          return .error (.scheme u.withoutUserinfo) := if_neg hweb
      rw [ask, hp, transmit_run, hsend]
      rfl

lemma ask_run (h : c.hindrance? w.reaches u = none) :
    w.reaches (c.resolving u).url = true ∧
      let sent := (Agent.follow c.stayingAgent u.withoutUserinfo Agent.redirectLimit
        (c.resolving u)).run w
      (c.ask u).run w = (sent.1.mapError .transport, sent.2) := by
  unfold hindrance? at h
  cases hp : Agent.prepare .get u [] (c.headers acceptJson) none with
  | error f =>
    rw [hp] at h
    cases h
  | ok q =>
    rw [hp] at h
    dsimp only at h
    split at h
    · next hweb =>
      split at h
      · next hreached => exact ⟨hreached, ask_run_of_isWeb hp hweb w⟩
      · cases h
    · cases h

lemma ask_unanswered (h : c.hindrance? w.reaches u = none) (hw : w.responses = []) :
    ∃ w', w.Carries [c.resolving u] [] w' ∧
      (c.ask u).run w = (.error (.transport (.dropped u.withoutUserinfo)), w') := by
  obtain ⟨hreached, hrun⟩ := ask_run h
  obtain ⟨w', hexchange, hcarries⟩ := Wire.exchange_nil hreached hw
  rw [Agent.follow_dropped hexchange] at hrun
  exact ⟨w', hcarries, hrun⟩

lemma ask_answered {response : Response} {later : List Response}
    (h : c.hindrance? w.reaches u = none) (hw : w.responses = response :: later) :
    ∃ w', w.Carries [c.resolving u] [response] w' ∧ (c.ask u).run w = (.ok response, w') := by
  obtain ⟨hreached, hrun⟩ := ask_run h
  obtain ⟨w', hexchange, hcarries⟩ := Wire.exchange_cons hreached hw
  rw [Agent.follow_staying rfl hexchange] at hrun
  exact ⟨w', hcarries, hrun⟩

/-! ### One step -/

lemma location_of_visible {response : Response} {reference : String}
    (h : response.visible? "location" = some reference) :
    location response u = (u.join reference).mapError .url := by
  rw [location, h]

/-- What a resolution reports before it asks a URL. -/
def resolvingEvent (r : RepoName) (format : ArchiveFormat) (u : Url) : Log.Event :=
  ⟨.debug, .contents, "resolving archive link",
    nameFields r ++ [("format", format.name), ("url", u.text)]⟩

lemma resolveLink_of_error {e : RemoteError} {w' : Wire}
    (h : (c.ask u).run (w.report (resolvingEvent r format u)) = (.error e, w')) :
    (c.resolveLink r format limit left u).run w = (.error e, w') := by
  rw [resolveLink.eq_def, run_bind]
  change (c.ask u >>= _ : Exchange Url).run (w.report (resolvingEvent r format u)) = _
  rw [run_bind, h]

section

variable {response : Response} {w' : Wire}
  (h : (c.ask u).run (w.report (resolvingEvent r format u)) = (.ok response, w'))

include h

lemma resolveLink_of_answer :
    (c.resolveLink r format limit left u).run w = (if response.status = 302 then
        Exchange.of (location response u)
      else if response.status = 301 then
        match left with
        | 0 => throw (.unexpected ("exceeded " ++ toString limit ++ " redirects resolving " ++
            format.name ++ " link for " ++ r.text))
        | left + 1 => Exchange.of (location response u) >>= c.resolveLink r format limit left
      else Exchange.of (checked (r.text ++ " " ++ format.name) response) >>= fun answer =>
        throw (.unexpected ("expected a redirect resolving " ++ format.name ++ " link for " ++
          r.text ++ ", got " ++ answer.status.text)) : Exchange Url).run w' := by
  have hrun (f : Response → Exchange Url) :
      (c.ask u >>= f).run (w.report (resolvingEvent r format u)) = (f response).run w' := by
    rw [run_bind, h]
  rw [resolveLink.eq_def, run_bind]
  exact hrun _

lemma resolveLink_of_moved {v : Url} (hmoved : response.status = 301)
    (hv : location response u = .ok v) :
    (c.resolveLink r format limit (left + 1) u).run w =
      (c.resolveLink r format limit left v).run w' := by
  rw [resolveLink_of_answer h, hmoved, if_neg (by decide), if_pos rfl, run_bind, hv]
  rfl

lemma resolveLink_of_lost {e : RemoteError}
    (hstatus : response.status = 302 ∨ (response.status = 301 ∧ 0 < left))
    (he : location response u = .error e) :
    (c.resolveLink r format limit left u).run w = (.error e, w') := by
  rw [resolveLink_of_answer h]
  obtain hfound | ⟨hmoved, hleft⟩ := hstatus
  · rw [if_pos hfound, he]
    rfl
  · obtain ⟨left, rfl⟩ := Nat.exists_eq_add_one_of_ne_zero hleft.ne'
    rw [hmoved, if_neg (by decide), if_pos rfl, run_bind, he]
    rfl

lemma resolveLink_of_checked {x : Except RemoteError Response}
    (hstatus : response.status ≠ 302 ∧ response.status ≠ 301)
    (hx : checked (r.text ++ " " ++ format.name) response = x) :
    (c.resolveLink r format limit left u).run w = (x.bind fun answer => .error (.unexpected
      ("expected a redirect resolving " ++ format.name ++ " link for " ++ r.text ++ ", got " ++
        answer.status.text)), w') := by
  rw [resolveLink_of_answer h, if_neg hstatus.1, if_neg hstatus.2, run_bind, hx]
  cases x <;> rfl

lemma resolveLink_of_verdict {x : Except RemoteError Url}
    (hx : Verdict r format limit left u response x) :
    (c.resolveLink r format limit left u).run w = (x, w') := by
  cases hx with
  | found hstatus hreference hlink =>
    rw [resolveLink_of_answer h, if_pos hstatus, location_of_visible hreference, hlink]
    rfl
  | nowhere hstatus hreference =>
    exact resolveLink_of_lost h hstatus (by rw [location, hreference])
  | astray hstatus hreference hfault =>
    exact resolveLink_of_lost h hstatus (by rw [location_of_visible hreference, hfault]; rfl)
  | exhausted hstatus hleft =>
    subst hleft
    rw [resolveLink_of_answer h, hstatus, if_neg (by decide), if_pos rfl]
    rfl
  | missing hstatus =>
    have hchecked : checked (r.text ++ " " ++ format.name) response =
        .error (.notFound (r.text ++ " " ++ format.name)) := by
      rw [checked, if_neg (by rw [hstatus]; decide), if_pos hstatus]
    exact resolveLink_of_checked h (by rw [hstatus]; decide) hchecked
  | settled hsuccess =>
    have hstatus : response.status ≠ 302 ∧ response.status ≠ 301 := by
      constructor <;> intro hstatus <;> rw [hstatus] at hsuccess <;> cases hsuccess
    exact resolveLink_of_checked h hstatus (by rw [checked, if_pos hsuccess])
  | refused hstatus hsuccess =>
    have hnot : response.status ≠ 301 ∧ response.status ≠ 302 ∧ response.status ≠ 404 := by
      simpa using hstatus
    have hchecked : checked (r.text ++ " " ++ format.name) response =
        .error (.refused response.status (refusal response)) := by
      rw [checked, hsuccess, if_neg Bool.false_ne_true, if_neg hnot.2.2]
    exact resolveLink_of_checked h ⟨hnot.2.1, hnot.1⟩ hchecked

end

/-- A response is a verdict, or it moves the resolution on. -/
lemma verdict_or_moves (r : RepoName) (format : ArchiveFormat) (limit left : Nat) (u : Url)
    (response : Response) :
    (∃ x, Verdict r format limit left u response x) ∨ ∃ reference v, 0 < left ∧
      response.status = 301 ∧ response.visible? "location" = some reference ∧
      u.join reference = .ok v := by
  by_cases hstatus : response.status = 302 ∨ (response.status = 301 ∧ 0 < left)
  · cases hreference : response.visible? "location" with
    | none => exact .inl ⟨_, .nowhere hstatus hreference⟩
    | some reference =>
      cases hjoin : u.join reference with
      | error fault => exact .inl ⟨_, .astray hstatus hreference hjoin⟩
      | ok v =>
        obtain hfound | ⟨hmoved, hleft⟩ := hstatus
        · exact .inl ⟨_, .found hfound hreference hjoin⟩
        · exact .inr ⟨reference, v, hleft, hmoved, rfl, hjoin⟩
  · obtain ⟨hfound, hmoved⟩ := not_or.mp hstatus
    refine .inl ?_
    by_cases hexhausted : response.status = 301
    · exact ⟨_, .exhausted hexhausted (by simpa [hexhausted] using hmoved)⟩
    · by_cases hmissing : response.status = 404
      · exact ⟨_, .missing hmissing⟩
      · cases hsuccess : response.status.isSuccess with
        | true => exact ⟨_, .settled hsuccess⟩
        | false => exact ⟨_, .refused (by simp [hfound, hexhausted, hmissing]) hsuccess⟩

/-! ### The loop -/

/-- Moves bring a resolution from one URL to another, and each takes one of those that are left. -/
theorem resolveLink_of_moves {v : Url} {asked : List Url} {moves rest : List Response}
    (r : RepoName) (format : ArchiveFormat) (limit left : Nat)
    (h : c.Moved w.reaches u asked moves v) (hw : w.responses = moves ++ rest) :
    ∃ w', w.Carries (asked.map c.resolving) moves w' ∧
      (c.resolveLink r format limit (moves.length + left) u).run w =
        (c.resolveLink r format limit left v).run w' := by
  generalize hreaches : w.reaches = reaches at h
  induction h generalizing w with
  | here u => exact ⟨w, .refl w, by rw [List.length_nil, Nat.zero_add]⟩
  | @step u v last asked response moves reference hsend hmoved hreference hjoin _ ih =>
    subst hreaches
    obtain ⟨w₁, hcarries, hask⟩ :=
      ask_answered (w := w.report (resolvingEvent r format u)) hsend hw
    have hlocation : location response u = .ok v := by
      rw [location_of_visible hreference, hjoin]
      rfl
    have hrest : w₁.responses = moves ++ rest :=
      (List.cons.inj (hcarries.responses.symm.trans hw)).2
    obtain ⟨w₂, hcarries₂, hrun⟩ := ih hrest hcarries.reaches
    refine ⟨w₂, (Wire.Carries.report _ w).trans (hcarries.trans hcarries₂), ?_⟩
    rw [← hrun, List.length_cons, Nat.add_right_comm]
    exact resolveLink_of_moved hask hmoved hlocation

/-- Where a resolution ends, its run ends. -/
theorem resolveLink_of_endsAt {asked : List Url} {unused : List Response}
    {x : Except RemoteError Url}
    (h : c.EndsAt w.reaches r format limit left u w.responses asked unused x) :
    ∃ used w', w.Carries (asked.map c.resolving) used w' ∧ w'.responses = unused ∧
      (c.resolveLink r format limit left u).run w = (x, w') := by
  let event := resolvingEvent r format u
  generalize hw : w.responses = script at h
  cases h with
  | unsent hfault =>
    have hask := ask_unsent (w := w.report event) hfault
    exact ⟨[], _, .report event w, hw, resolveLink_of_error hask⟩
  | unanswered hsend =>
    obtain ⟨w', hcarries, hask⟩ := ask_unanswered (w := w.report event) hsend hw
    refine ⟨[], w', (Wire.Carries.report event w).trans hcarries, ?_, resolveLink_of_error hask⟩
    exact hcarries.responses.symm.trans hw
  | @answered response later x hsend hverdict =>
    obtain ⟨w', hcarries, hask⟩ := ask_answered (w := w.report event) hsend hw
    refine ⟨[response], w', (Wire.Carries.report event w).trans hcarries, ?_,
      resolveLink_of_verdict hask hverdict⟩
    exact (List.cons.inj (hcarries.responses.symm.trans hw)).2

/-- Whatever the responses are, moves bring a resolution to a URL at which it ends. -/
theorem exists_endsAt (c : Client) (reaches : Url → Bool) (r : RepoName) (format : ArchiveFormat)
    (limit left : Nat) (u : Url) (script : List Response) :
    ∃ asked moves v unmoved rest last unused x, c.Moved reaches u asked moves v ∧
      moves.length + unmoved = left ∧ script = moves ++ rest ∧
      c.EndsAt reaches r format limit unmoved v rest last unused x := by
  induction script generalizing left u with
  | nil =>
    cases hsend : c.hindrance? reaches u with
    | some fault => exact ⟨[], [], u, left, [], _, _, _, .here u, by simp, rfl, .unsent hsend⟩
    | none => exact ⟨[], [], u, left, [], _, _, _, .here u, by simp, rfl, .unanswered hsend⟩
  | cons response script ih =>
    cases hsend : c.hindrance? reaches u with
    | some fault =>
      exact ⟨[], [], u, left, _, _, _, _, .here u, by simp, rfl, .unsent hsend⟩
    | none =>
      obtain ⟨x, hx⟩ | ⟨reference, v, hleft, hmoved, hreference, hjoin⟩ :=
        verdict_or_moves r format limit left u response
      · exact ⟨[], [], u, left, _, _, _, x, .here u, by simp, rfl, .answered hsend hx⟩
      · obtain ⟨left, rfl⟩ := Nat.exists_eq_add_one_of_ne_zero hleft.ne'
        obtain ⟨asked, moves, v', unmoved, rest, last, unused, x, hmoves, hlength, rfl, hend⟩ :=
          ih left v
        exact ⟨u :: asked, response :: moves, v', unmoved, rest, last, unused, x,
          .step hsend hmoved hreference hjoin hmoves, by rw [List.length_cons]; omega, rfl, hend⟩

lemma Moved.length_eq {v : Url} {asked : List Url} {moves : List Response}
    (h : c.Moved reaches u asked moves v) : asked.length = moves.length := by
  induction h with
  | here => rfl
  | step _ _ _ _ _ ih => rw [List.length_cons, List.length_cons, ih]

lemma EndsAt.length_le {script unused : List Response} {asked : List Url}
    {x : Except RemoteError Url}
    (h : c.EndsAt reaches r format limit left u script asked unused x) : asked.length ≤ 1 := by
  cases h <;> simp

/-- Moves and an end make up a run. -/
theorem resolveLink_resolves {v : Url} {asked last : List Url} {moves rest unused : List Response}
    {x : Except RemoteError Url} (hmoves : c.Moved w.reaches u asked moves v)
    (hw : w.responses = moves ++ rest)
    (hend : c.EndsAt w.reaches r format limit left v rest last unused x) :
    let out := (c.resolveLink r format limit (moves.length + left) u).run w
    out.1 = x ∧ out.2.responses = unused ∧
      out.2.sent = w.sent ++ (asked ++ last).map fun u => (c.resolving u).onWire := by
  intro out
  obtain ⟨w₁, hcarries, hrun⟩ := resolveLink_of_moves r format limit left hmoves hw
  have hrest : w₁.responses = rest :=
    (List.append_cancel_left (hw.symm.trans hcarries.responses)).symm
  rw [← hcarries.reaches, ← hrest] at hend
  obtain ⟨used, w₂, hcarries₂, hunused, hrun₂⟩ := resolveLink_of_endsAt hend
  have hout : out = (x, w₂) := hrun.trans hrun₂
  rw [hout]
  refine ⟨rfl, hunused, ?_⟩
  rw [(hcarries.trans hcarries₂).sent, ← List.map_append, List.map_map]
  rfl

/-- Whatever responses come back, the resolution of a link asks URLs of which each is joined from
the one before it and the location that a response of a moved repository gave there. Wherever the
moves have brought it, the moves taken and those left make up the limit; there it ends as the next
response says, or goes on if that moves it once more. -/
theorem archiveLink_resolves {s : Settings} (hc : build s = .ok c) (r : RepoName)
    (format : ArchiveFormat) (reference : String) (limit : Nat) (w : Wire) :
    let out := (c.archiveLink r format reference limit).run w
    ∃ start, c.endpoint ["repos", r.owner, r.repo, format.name, reference] = .ok start ∧
      (∀ asked moves v left rest, c.Moved w.reaches start asked moves v →
        moves.length + left = limit → w.responses = moves ++ rest →
          (∃ w', w.Carries (asked.map c.resolving) moves w' ∧
            out = (c.resolveLink r format limit left v).run w') ∧
          ∀ last unused x, c.EndsAt w.reaches r format limit left v rest last unused x →
            out.1 = x ∧ out.2.responses = unused ∧
              out.2.sent = w.sent ++ (asked ++ last).map fun u => (c.resolving u).onWire) ∧
      ∃ asked moves v left rest last, c.Moved w.reaches start asked moves v ∧
        moves.length + left = limit ∧ w.responses = moves ++ rest ∧
        c.EndsAt w.reaches r format limit left v rest last out.2.responses out.1 ∧
        out.2.sent.length ≤ w.sent.length + (limit + 1) := by
  intro out
  obtain ⟨start, hstart⟩ :=
    exists_endpoint hc ["repos", r.owner, r.repo, format.name, reference]
  have hout : out = (c.resolveLink r format limit limit start).run w := by
    change (Exchange.of _ >>= _ : Exchange Url).run w = _
    rw [run_bind, hstart]
    rfl
  refine ⟨start, hstart, fun asked moves v left rest hmoves hlength hw => ?_, ?_⟩
  · have hrun := resolveLink_of_moves r format limit left hmoves hw
    rw [hlength, ← hout] at hrun
    refine ⟨hrun, fun last unused x hend => ?_⟩
    have hends := resolveLink_resolves hmoves hw hend
    rwa [hlength, ← hout] at hends
  · obtain ⟨asked, moves, v, left, rest, last, unused, x, hmoves, hlength, hw, hend⟩ :=
      exists_endsAt c w.reaches r format limit limit start w.responses
    have hends := resolveLink_resolves hmoves hw hend
    rw [hlength, ← hout] at hends
    obtain ⟨hx, hunused, hsent⟩ := hends
    refine ⟨asked, moves, v, left, rest, last, hmoves, hlength, hw, ?_, ?_⟩
    · rw [hx, hunused]
      exact hend
    · have hasked := hmoves.length_eq
      have hlast := hend.length_le
      rw [hsent, List.length_append, List.length_map, List.length_append]
      omega

section

/-- A URL on the host of the keyed client. -/
def keyedUrl (parts : List String) : Url :=
  ⟨"http", some { host := .domain "api.test" }, .segments parts, none, none⟩

/-- Two moves, the second of them relative to the first, and a link that is relative to both. -/
theorem archiveLink_resolves_relative :
    let w := Wire.scripted "http" [movedTo 301 "/a/b", movedTo 301 "c", movedTo 302 "d"]
    let start := keyedUrl ["repos", "o", "r", "tarball", "main"]
    let out := (keyed.archiveLink ⟨"o", "r"⟩ .tarball "main" 2).run w
    build ⟨some "http://api.test", some "secret", some "agent"⟩ = .ok keyed ∧
      keyed.Moved w.reaches start [start, keyedUrl ["a", "b"]]
        [movedTo 301 "/a/b", movedTo 301 "c"] (keyedUrl ["a", "c"]) ∧
      keyed.EndsAt w.reaches ⟨"o", "r"⟩ .tarball 2 0 (keyedUrl ["a", "c"]) [movedTo 302 "d"]
        [keyedUrl ["a", "c"]] [] (.ok (keyedUrl ["a", "d"])) ∧
      out.1 = .ok (keyedUrl ["a", "d"]) ∧
      out.2.sent.map (·.url) = [start, keyedUrl ["a", "b"], keyedUrl ["a", "c"]] := by
  intro w start out
  have hbuild : build ⟨some "http://api.test", some "secret", some "agent"⟩ = .ok keyed := by
    decide +kernel
  have hfirst : (movedTo 301 "/a/b").visible? "location" = some "/a/b" := by decide +kernel
  have hsecond : (movedTo 301 "c").visible? "location" = some "c" := by decide +kernel
  have hthird : (movedTo 302 "d").visible? "location" = some "d" := by decide +kernel
  have hmoves : keyed.Moved w.reaches start [start, keyedUrl ["a", "b"]]
      [movedTo 301 "/a/b", movedTo 301 "c"] (keyedUrl ["a", "c"]) :=
    .step (by decide +kernel) rfl hfirst (by decide +kernel)
      (.step (by decide +kernel) rfl hsecond (by decide +kernel) (.here _))
  have hend : keyed.EndsAt w.reaches ⟨"o", "r"⟩ .tarball 2 0 (keyedUrl ["a", "c"])
      [movedTo 302 "d"] [keyedUrl ["a", "c"]] [] (.ok (keyedUrl ["a", "d"])) :=
    .answered (by decide +kernel) (.found rfl hthird (by decide +kernel))
  obtain ⟨start', hstart, hruns, -⟩ :=
    archiveLink_resolves hbuild ⟨"o", "r"⟩ .tarball "main" 2 w
  obtain rfl : start = start' := by
    have hendpoint : keyed.endpoint ["repos", "o", "r", "tarball", "main"] = .ok start := by
      decide +kernel
    exact Except.ok.inj (hendpoint.symm.trans hstart)
  obtain ⟨hx, -, hsent⟩ := (hruns _ _ _ 0 _ hmoves rfl rfl).2 _ _ _ hend
  refine ⟨hbuild, hmoves, hend, hx, ?_⟩
  rw [hsent]
  rfl

end

end
end Client
end HostedRepo
