import HostedRepo.Proofs.TokenConfinement

/-!
# The token on the way to an archive

The resolution of an archive link asks again, token included, wherever a moved repository is said
to be. Its token stays at the root of the client exactly as long as no such move names another
host or port.
-/

namespace HostedRepo

open Http

/-! ### Moves -/

lemma Url.origin_join_slash {u v : Url} {reference : String} {s : List Char}
    (hs : cleaned reference.toList = '/' :: s) (hne : s.head? ≠ some '/' ∧ s.head? ≠ some '\\')
    (h : u.join reference = .ok v) : v.origin = u.origin := by
  have hscheme : readScheme ('/' :: s) = none := rfl
  have hslashes : ¬2 ≤ (('/' :: s).takeWhile fun c => c == '/' || c == '\\').length := by
    cases s with
    | nil => decide
    | cons c s =>
      have hc : c ≠ '/' ∧ c ≠ '\\' := by simpa using hne
      simp [hc.1, hc.2]
  have hrelative : readRelative u ('/' :: s) =
      .ok (withPath u.scheme u.authority [] s) := by
    unfold readRelative
    dsimp only
    split
    · next heq => cases heq
    · next heq => simp at heq
    · next c rest _ heq =>
      obtain ⟨rfl, rfl⟩ := List.cons.inj heq
      rw [if_pos (by simp [isSlash]), if_neg hslashes]
      rfl
  unfold join parseWith at h
  rw [hs] at h
  simp only [hscheme, hrelative] at h
  split at h
  · next heq => simp at heq
  · split at h
    · cases h
    · cases h
      rfl

/-- A response that does not move what is at a host and port to another one. -/
def Http.Response.Stays (o : Option String × Option Nat) (response : Response) : Prop :=
  response.status = 301 → ∀ u v, u.origin = o → Client.location response u = .ok v → v.origin = o

lemma Http.Response.stays_of_slash {response : Response} {reference : String} {s : List Char}
    (hlocation : response.visible? "location" = some reference)
    (hs : Url.cleaned reference.toList = '/' :: s) (hne : s.head? ≠ some '/' ∧ s.head? ≠ some '\\')
    (o : Option String × Option Nat) : response.Stays o := by
  intro _ u v hu h
  unfold Client.location at h
  rw [hlocation] at h
  have hjoin : Url.join u reference = .ok v := mapError_eq_ok h
  exact (Url.origin_join_slash hs hne hjoin).trans hu

/-! ### Resolutions -/

namespace Client

variable {c : Client} {t : Token}

/-- The request that a resolution sends to a URL. -/
def resolving (c : Client) (u : Url) : Request :=
  let r := Agent.prepared .get u [] (c.headers acceptJson) none
  { r with headers := c.stayingAgent.withDefaults r.headers }

lemma staying_sends {R : Response → Prop} {P : Request → Prop} {u : Url}
    (h : P (c.resolving u)) :
    Sends R P (transmit c.stayingAgent (Agent.prepare .get u [] (c.headers acceptJson) none)) R :=
  sends_transmit (fun hfollows => by cases hfollows) h

/-- What each request of a resolution is like follows from where it goes. -/
theorem resolveLink_sends {R : Response → Prop} {P : Request → Prop} {U : Url → Prop}
    (hP : ∀ u, U u → P (c.resolving u))
    (hU : ∀ u v response, U u → R response → response.status = 301 →
      location response u = .ok v → U v)
    (r : RepoName) (format : ArchiveFormat) (limit hops : Nat) {u : Url} (hu : U u) :
    Sends R P (c.resolveLink r format limit hops u) fun _ => True := by
  induction hops using Nat.strongRecOn generalizing u with
  | _ hops ih =>
    rw [resolveLink.eq_def]
    refine (sends_report _ _ _).bind fun _ _ => (staying_sends (hP u hu)).bind fun response hR => ?_
    split
    · exact (sends_of _).imp fun _ _ => trivial
    · split
      · next hmoved =>
        cases hops with
        | zero => exact (sends_of (.error _)).imp fun _ _ => trivial
        | succ hops =>
          exact (sends_of _).bind fun v hv => ih hops (by omega) (hU u v response hu hR hmoved hv)
      · exact (sends_of _).bind fun _ _ => (sends_of (.error _)).imp fun _ _ => trivial

lemma archiveLink_sends {R : Response → Prop} {P : Request → Prop} {U : Url → Prop}
    (hP : ∀ u, U u → P (c.resolving u))
    (hU : ∀ u v response, U u → R response → response.status = 301 →
      location response u = .ok v → U v)
    (hroot : ∀ u, u.origin = c.apiBase.origin → U u)
    (r : RepoName) (format : ArchiveFormat) (reference : String) (redirects : Nat) :
    Sends R P (c.archiveLink r format reference redirects) fun _ => True :=
  (sends_of _).bind fun u hu =>
    resolveLink_sends hP hU r format redirects redirects (hroot u (endpoint_origin hu))

/-- Every request of a resolution carries the token, wherever it goes. -/
theorem archiveLink_bears (ht : c.token = some t) (r : RepoName) (format : ArchiveFormat)
    (reference : String) (redirects : Nat) :
    Sends (fun _ => True) (·.Bears t) (c.archiveLink r format reference redirects)
      fun _ => True := by
  refine archiveLink_sends (U := fun _ => True) (fun u _ => ?_) (fun _ _ _ _ _ _ _ => trivial)
    (fun _ _ => trivial) r format reference redirects
  simp [resolving, Request.Bears, Agent.prepared, Agent.withDefaults, headers, ht]

theorem archiveLink_confined (r : RepoName) (format : ArchiveFormat) (reference : String)
    (redirects : Nat) :
    Sends (·.Stays c.apiBase.origin) (·.Confined t c.apiBase.origin)
      (c.archiveLink r format reference redirects) fun _ => True := by
  refine archiveLink_sends (U := (·.origin = c.apiBase.origin)) (fun u hu _ => ?_)
    (fun u v response hu hR hmoved hv => hR hmoved u v hu hv) (fun _ hu => hu)
    r format reference redirects
  exact (Agent.prepared_origin .get u [] (c.headers acceptJson) none).trans hu

end Client

/-! ### Links and archives -/

/-- As long as no move names another host or port, a request with a token goes to the host and
port of the root of its client, be it for a link or for a whole archive. -/
theorem archive_confined (c : Client) (t : Token) (w : Wire)
    (hw : ∀ response ∈ w.responses, response.Stays c.apiBase.origin) :
    (∀ r format reference redirects,
      ∃ reqs, ((c.archiveLink r format reference redirects).run w).2.sent = w.sent ++ reqs ∧
        ∀ q ∈ reqs, q.Bears t → q.url.origin = c.apiBase.origin) ∧
    ∀ (a : Agent) r reference,
      ∃ reqs, (((Repository.getArchive r reference).run.runOn c a).run w).2.sent = w.sent ++ reqs ∧
        ∀ q ∈ reqs, q.Bears t → q.url.origin = c.apiBase.origin := by
  have hsent : ∀ q : Request, q.Confined t c.apiBase.origin →
      q.onWire.Bears t → q.onWire.url.origin = c.apiBase.origin :=
    fun q hq hb => (Url.origin_target q.url).trans (hq hb)
  have hlink r format reference redirects :=
    (Client.archiveLink_confined (t := t) r format reference redirects w hw).1
  refine ⟨fun r format reference redirects => (hlink ..).sent hsent, fun a r reference => ?_⟩
  have hdownload := (getArchive_tokenless t c a r reference w).imp
    (S := (·.Confined t c.apiBase.origin)) fun q hq hb => absurd (hq _ hb) (by decide)
  exact ((hlink r .tarball reference Repository.archiveRedirects).trans hdownload).sent hsent

/-- A renamed repository on the same host. -/
theorem archive_confined_renamed :
    let w := Wire.scripted "http" [movedTo 301 "/repos/o/renamed/tarball/main",
      movedTo 302 "http://files.test/archive"]
    (∀ response ∈ w.responses, response.Stays keyed.apiBase.origin) ∧
      ∃ reqs, ((keyed.archiveLink ⟨"o", "r"⟩ .tarball "main" 3).run w).2.sent = w.sent ++ reqs ∧
        ∀ q ∈ reqs, q.Bears ⟨"secret"⟩ → q.url.origin = keyed.apiBase.origin := by
  intro w
  have hw : ∀ response ∈ w.responses, response.Stays keyed.apiBase.origin := by
    intro response hmem
    obtain rfl | rfl : response = movedTo 301 "/repos/o/renamed/tarball/main" ∨
        response = movedTo 302 "http://files.test/archive" := by
      simpa [w, Wire.scripted] using hmem
    · have hlocation : (movedTo 301 "/repos/o/renamed/tarball/main").visible? "location" =
          some "/repos/o/renamed/tarball/main" := by decide +kernel
      have hclean : Url.cleaned "/repos/o/renamed/tarball/main".toList =
          '/' :: "repos/o/renamed/tarball/main".toList := by decide +kernel
      exact Response.stays_of_slash hlocation hclean (by decide +kernel) _
    · intro hmoved
      cases hmoved
  exact ⟨hw, (archive_confined keyed ⟨"secret"⟩ w hw).1 _ _ _ _⟩

/-- A move to another host takes the token there. -/
theorem archiveLink_leaves :
    let w := Wire.scripted "http" [movedTo 301 "http://other.test/x"]
    ∃ q ∈ ((keyed.archiveLink ⟨"o", "r"⟩ .tarball "main" 3).run w).2.sent,
      q.Bears ⟨"secret"⟩ ∧ q.url.origin ≠ keyed.apiBase.origin := by
  decide +kernel

end HostedRepo
