import HostedRepo.Proofs.FileDeletions
import HostedRepo.Proofs.FormCoding
import HostedRepo.Proofs.TokenConfinement

/-!
# References in queries

The calls that look at a file name a reference in the query of their first request. The server finds
it there as it was given, behind the pairs that the root of the API has, and an empty reference
leaves the query of the root alone.
-/

namespace HostedRepo

open Http

/-- The reference at which the first request of a call looks at a file. A deletion without an object
id looks its file up on its branch. -/
def Call.reference? : Call → Option String
  | .getContents _ _ reference | .downloadContents _ _ reference => some reference
  | .deleteFile _ _ ⟨_, none, branch⟩ => some (branch.getD "")
  | _ => none

/-- A query that has the pairs of another one, and a reference behind them unless it is empty. -/
structure Url.NamesReference (base query : Option String) (reference : String) : Prop where
  pairs : Query.pairs query =
    Query.pairs base ++ if reference = "" then [] else [("ref", reference)]
  unchanged : reference = "" → query = base

namespace Client

/-- Why a client cannot send a request to its API. -/
inductive Barred (c : Client) (reaches : Url → Bool) : Prop
  | noHost : c.apiBase.host? = none → Barred c reaches
  | token (t : Token) : c.token = some t → isHeaderValue t.headerValue = false → Barred c reaches
  | scheme : Agent.isWeb c.apiBase = false → Barred c reaches
  | unreached (u : Url) : u.origin = c.apiBase.origin → reaches u = false → Barred c reaches

variable {c : Client} {w : Wire}

/-! ### URLs -/

lemma namesReference_refQuery (u : Url) (reference : String) :
    Url.NamesReference u.query ((refQuery reference).foldl
      (fun u (name, value) => u.withPair name value) u).query reference := by
  by_cases h : reference = ""
  · subst h
    exact ⟨(List.append_nil _).symm, fun _ => rfl⟩
  · have hquery : refQuery reference = [("ref", reference)] :=
      if_neg (by simpa [String.isEmpty_iff] using h)
    rw [hquery]
    refine ⟨?_, fun hempty => absurd hempty h⟩
    rw [if_neg h]
    exact Url.Query.pairs_append u.query "ref" reference

/-! ### The first request -/

lemma headers_valid {accept : String} (hagent : isHeaderValue c.userAgent = true)
    (haccept : isHeaderValue accept = true)
    (htoken : ∀ t, c.token = some t → isHeaderValue t.headerValue = true) :
    (c.headers accept).all (isHeaderValue ·.2) = true := by
  have hversion : isHeaderValue apiVersion = true := by decide
  unfold headers
  cases ht : c.token with
  | none => simp [hagent, haccept, hversion]
  | some t => simp [hagent, haccept, hversion, htoken t ht]

/-- What holds up a request of a client that was built bars the client from its API. -/
lemma HeldUp.barred {s : Settings} (hc : build s = .ok c) {o : Opening} {u : Url}
    (hu : c.endpoint o.segments = .ok u) (haccept : isHeaderValue o.accept = true)
    {reaches : Url → Bool} (h : c.HeldUp o u reaches) : c.Barred reaches := by
  obtain ⟨path, rfl⟩ := exists_path_of_endpoint hu
  cases h with
  | noHost hhost => exact .noHost hhost
  | header hheaders =>
    by_contra hbarred
    have htoken : ∀ t, c.token = some t → isHeaderValue t.headerValue = true := by
      intro t ht
      by_contra hinvalid
      exact hbarred (.token t ht (by simpa using hinvalid))
    cases hheaders.symm.trans (headers_valid (build_eq_ok hc).2.2 haccept htoken)
  | scheme hscheme =>
    obtain ⟨q, hq⟩ := Url.exists_withPairs o.query
      (Url.withoutUserinfo { c.apiBase with path := path })
    rw [Opening.target, hq] at hscheme
    exact .scheme hscheme
  | unreached hreach =>
    have horigin : (o.target { c.apiBase with path := path }).origin = c.apiBase.origin := by
      rw [Opening.target, Url.origin_withPairs, Url.origin_withoutUserinfo]
      rfl
    exact .unreached _ horigin hreach

/-- What comes of a call that looks at a file at a reference first: the request for it is the first
one that goes out, or something bars it and nothing goes out. -/
def Asks {α : Type} (c : Client) (reference : String) (w : Wire)
    (out : Except RemoteError α × Wire) : Prop :=
  (c.Barred w.reaches ∧ out.2.sent = w.sent ∧ ∃ f, out.1 = .error (.transport f)) ∨
    ∃ q later, out.2.sent = w.sent ++ q :: later ∧ q.method = .get ∧
      Url.NamesReference c.apiBase.query q.url.query reference

lemma asks_of_continued {α : Type} {s : Settings} (hc : build s = .ok c) {segments : List String}
    {u : Url} (hu : c.endpoint segments = .ok u) {accept reference : String}
    (haccept : isHeaderValue accept = true) {out : Except RemoteError α × Wire} (e : Log.Event)
    (hcontinued : (((c.send .get u accept (refQuery reference) none).run (w.report e)).2.Passes
      fun _ => True) out.2)
    (hfailed : ∀ f, (c.send .get u accept (refQuery reference) none).run (w.report e) =
      (.error f, w.report e) → out = (.error f, w.report e)) :
    c.Asks reference w out := by
  let o : Opening :=
    { segments := segments, method := .get, accept := accept, query := refQuery reference }
  have hu' : c.endpoint o.segments = .ok u := hu
  obtain ⟨t, w', hsend, ht⟩ := send_conducts hu' (w.report e)
  rw [hsend] at hcontinued
  obtain ⟨qs, used, hrest, -⟩ := hcontinued
  obtain ⟨hheld, -, rfl, f, hf⟩ | ⟨q, later, hrequests, hmethod, hurl, -⟩ := ht.first
  · left
    rw [hf] at hsend
    rw [hfailed _ hsend]
    exact ⟨hheld.barred hc hu' haccept, rfl, f, rfl⟩
  · right
    have hbase : u.withoutUserinfo.query = c.apiBase.query := by
      obtain ⟨path, hpath⟩ := exists_path_of_endpoint hu
      rw [hpath]
      rfl
    have hnames := namesReference_refQuery u.withoutUserinfo reference
    have htarget : q.url = (refQuery reference).foldl
      (fun u (name, value) => u.withPair name value) u.withoutUserinfo := hurl
    rw [← htarget, hbase] at hnames
    have hsent := (ht.carries.trans hrest).sent
    rw [hrequests] at hsent
    exact ⟨q.onWire, _, hsent, hmethod, hnames⟩

lemma Concludes.asks {α : Type} {s : Settings} (hc : build s = .ok c) {segments : List String}
    {accept reference resource : String} (haccept : isHeaderValue accept = true)
    {read : Response → Except RemoteError α} {x : Exchange α}
    (hx : c.Concludes { segments := segments, method := .get, accept := accept,
                        query := refQuery reference } resource read x) (w : Wire) :
    c.Asks reference w (x.run w) := by
  obtain ⟨u, hu⟩ := exists_endpoint hc segments
  obtain ⟨e, hrun⟩ := hx u w hu
  rw [hrun]
  refine asks_of_continued hc hu haccept e (.refl _) fun f hsent => ?_
  rw [hsent]
  rfl

lemma deleteFile_asks {s : Settings} (hc : build s = .ok c) (r : RepoName) (path message : String)
    (branch : Option String) (w : Wire) :
    c.Asks (branch.getD "") w ((c.deleteFile r path ⟨message, none, branch⟩).run w) := by
  obtain ⟨u, hu⟩ := exists_endpoint hc ["repos", r.owner, r.repo, "contents", path]
  obtain ⟨e, hrun⟩ := getContents_concludes c r path (branch.getD "") u w hu
  rcases hlookup : (c.getContents r path (branch.getD "")).run w with ⟨found, w₁⟩
  rw [hlookup] at hrun
  obtain ⟨hfound, rfl⟩ := Prod.mk.inj hrun
  have haccept : isHeaderValue acceptJson = true := by decide
  have hsends : ∀ (m : Method) (u : Url) query body, Sends (fun _ => True) (fun _ => True)
      (c.send m u acceptJson query body) fun _ => True :=
    fun _ _ _ _ => sends_transmit (fun _ _ _ _ _ _ _ => trivial) trivial
  cases found with
  | error f =>
    have hout : (c.deleteFile r path ⟨message, none, branch⟩).run w = (.error f, _) :=
      deleteFile_run_error rfl hlookup
    rw [hout]
    refine asks_of_continued hc hu haccept e (.refl _) fun f' hsent => ?_
    rw [hsent] at hfound ⊢
    rw [Except.error.inj hfound]
  | ok info =>
    have hout : (c.deleteFile r path ⟨message, none, branch⟩).run w =
        (c.deleteFile r path ⟨message, some info.sha, branch⟩).run _ := deleteFile_run rfl hlookup
    rw [hout]
    refine asks_of_continued hc hu haccept e ?_ fun f' hsent => ?_
    · exact (deleteFile_sends (fun u _ => hsends .get u _ none)
        (fun u body _ => hsends .delete u [] (some body)) _ fun _ _ => trivial).1
    · rw [hsent] at hfound
      cases hfound

/-- The first request of a call that looks at a file at a reference has all pairs of the query of
the root, and behind them the reference as it was given. With an empty reference its query is that
of the root. -/
theorem reference_reaches {s : Settings} (hc : build s = .ok c) {x : Call} {reference : String}
    (hx : x.reference? = some reference) (w : Wire) :
    c.Asks reference w ((c.answer x).run w) := by
  cases x with
  | getContents r path reference =>
    cases hx
    exact (getContents_concludes c r path _).asks hc (by decide) w
  | downloadContents r path reference =>
    cases hx
    exact (downloadContents_concludes c r path _).asks hc (by decide) w
  | deleteFile r path d =>
    obtain ⟨message, sha, branch⟩ := d
    cases sha with
    | some sha => cases hx
    | none =>
      cases hx
      exact deleteFile_asks hc r path message branch w
  | _ => cases hx

/-- A reference of separators, blanks and a sign of two bytes, behind a query of the root. -/
theorem reference_reaches_marks :
    let c : Client := { keyed with apiBase := { keyed.apiBase with query := some "k=v+w" } }
    let reference := "a&b=c+d%26#\t\n é"
    let w := Wire.scripted "http" []
    let x : Call := .downloadContents ⟨"o", "r"⟩ "f" reference
    let out := (c.answer x).run w
    build ⟨some "http://api.test?k=v+w", some "secret", some "agent"⟩ = .ok c ∧
      x.reference? = some reference ∧ c.Asks reference w out ∧
      out.2.sent.map (·.url.query) =
        [some "k=v+w&ref=a%26b%3Dc%2Bd%2526%23%09%0A+%C3%A9"] ∧
      out.2.sent.map (Url.Query.pairs ·.url.query) = [[("k", "v w"), ("ref", reference)]] := by
  intro c reference w x out
  have hbuild : build ⟨some "http://api.test?k=v+w", some "secret", some "agent"⟩ = .ok c := by
    decide +kernel
  exact ⟨hbuild, rfl, reference_reaches hbuild rfl w, by decide +kernel, by decide +kernel⟩

end Client
end HostedRepo
