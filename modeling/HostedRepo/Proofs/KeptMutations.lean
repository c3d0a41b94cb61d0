import HostedRepo.Proofs.TokenConfinement

/-!
# Changes that were asked for

A call that makes a change ends well when the last of its requests is answered by a success. That
request is the one for the change exactly as long as no redirect before it has made a plain read of
it.
-/

namespace HostedRepo

open Http

namespace Http.Agent

/-- A redirect after which a request of a method is a plain read. -/
def Rewrites (status : Status) (m : Method) : Prop :=
  status = 303 ∨ ((status = 301 ∨ status = 302) ∧ m = .post)

variable {a : Agent} {r q : Request} {earlier : List Request} {before : List Response}

lemma redirected_of_rewrites {status : Status} (u : Url) (h : Rewrites status r.method)
    (hm : r.method ≠ .get) :
    (redirected r status u).method = .get ∧ (redirected r status u).body = none := by
  have hmethod : redirectedMethod status r.method = .get := if_pos h
  exact ⟨hmethod, by simp [redirected, hmethod, hm.symm]⟩

lemma redirected_of_not_rewrites {status : Status} (u : Url) (h : ¬Rewrites status r.method) :
    (redirected r status u).method = r.method ∧ (redirected r status u).body = r.body := by
  have hmethod : redirectedMethod status r.method = r.method := if_neg h
  exact ⟨hmethod, by simp [redirected, hmethod]⟩

lemma trail_read (h : Trail a.Redirects r earlier before q)
    (hr : r.method = .get ∧ r.body = none) : q.method = .get ∧ q.body = none := by
  have hnext : ∀ p response p', p.Asks .get none → True → a.Redirects p response p' →
      p'.Asks .get none := by
    rintro p response _ hp - ⟨-, u, -, rfl⟩
    exact redirected_asks p response.status u hp
  have hread := h.kept hnext (.inl hr) (by simp) q (by simp)
  exact (or_self_iff).mp hread

/-- Along a trail a request stays what it was, or becomes a plain read on the way. -/
lemma trail_cases {m : Method} {body : Option Json.Value} (hm : m ≠ .get)
    (h : Trail a.Redirects r earlier before q) (hr : r.method = m ∧ r.body = body) :
    (q.method = m ∧ q.body = body ∧ ∀ moved ∈ before, ¬Rewrites moved.status m) ∨
      (q.method = .get ∧ q.body = none ∧ ∃ moved ∈ before, Rewrites moved.status m) := by
  induction h with
  | here => exact .inl ⟨hr.1, hr.2, by simp⟩
  | @step r r' q response earlier before hnext htrail ih =>
    obtain ⟨-, u, -, rfl⟩ := hnext
    obtain ⟨rfl, rfl⟩ := hr
    by_cases hrewrites : Rewrites response.status r.method
    · obtain ⟨hget, hnone⟩ := trail_read htrail (redirected_of_rewrites u hrewrites hm)
      exact .inr ⟨hget, hnone, response, List.mem_cons_self, hrewrites⟩
    · obtain ⟨hmethod, hbody, hkept⟩ | ⟨hget, hnone, moved, hmem, hmoved⟩ :=
        ih (redirected_of_not_rewrites u hrewrites)
      · exact .inl ⟨hmethod, hbody, List.forall_mem_cons.mpr ⟨hrewrites, hkept⟩⟩
      · exact .inr ⟨hget, hnone, moved, List.mem_cons_of_mem response hmem, hmoved⟩

end Http.Agent

/-- A success was the answer to the last of some requests, and that one asks for a change with a
method and a body as long as no redirect before has rewritten it. -/
def Http.Wire.Settles (m : Method) (body : Json.Value) (w w' : Wire) : Prop :=
  ∃ earlier q before response, w.Carries (earlier ++ [q]) (before ++ [response]) w' ∧
    earlier.length = before.length ∧ response.status.isSuccess = true ∧
    (q.method = m ∧ q.body = some body ↔ ∀ moved ∈ before, ¬Agent.Rewrites moved.status m)

lemma Http.Wire.Settles.of_report {m : Method} {body : Json.Value} {w w' : Wire}
    {e : Log.Event} (h : (w.report e).Settles m body w') : w.Settles m body w' := by
  obtain ⟨earlier, q, before, response, hcarries, h⟩ := h
  exact ⟨earlier, q, before, response, (Wire.Carries.report e w).trans hcarries, h⟩

/-- The method of a call that makes a change, and the body. A deletion that does not know the object
id of its file puts the one that it found there. -/
def Call.change? : Call → Option (Method × (String → Json.Value))
  | .updateRef _ _ sha force => some (.patch, fun _ => moveValue sha force)
  | .createTree _ base entries => some (.post, fun _ => newTreeValue base entries)
  | .createCommit _ commit => some (.post, fun _ => commit.toValue)
  | .deleteFile _ _ d =>
    some (.delete, fun found => { d with sha := some (d.sha.getD found) }.toValue)
  | _ => none

namespace Client

variable {c : Client} {w w' : Wire}

lemma send_settles {m : Method} {u : Url} {accept : String} {query : List (String × String)}
    {body : Json.Value} {response : Response} (hm : m ≠ .get)
    (h : (c.send m u accept query (some body)).run w = (.ok response, w'))
    (hs : response.status.isSuccess = true) : w.Settles m body w' := by
  obtain ⟨e, he⟩ | ⟨x, w₁, hx, earlier, before, q, last, htrail, hcarries, hlast⟩ :=
    transmit_follows c.agent m u query (c.headers accept) (some body) w
  · cases he.symm.trans h
  · rw [send, hx] at h
    cases x with
    | error f => cases h
    | ok answer =>
      cases h
      rw [hlast response rfl] at hcarries
      refine ⟨earlier, q, before, response, hcarries, htrail.length_eq, hs, ?_⟩
      obtain ⟨hmethod, hbody, hkept⟩ | ⟨hget, -, moved, hmem, hmoved⟩ :=
        Agent.trail_cases hm htrail ⟨rfl, rfl⟩
      · exact ⟨fun _ => hkept, fun _ => ⟨hmethod, hbody⟩⟩
      · exact ⟨fun hq => absurd (hq.1.symm.trans hget) hm,
          fun hkept => absurd hmoved (hkept moved hmem)⟩

lemma gitCall_settles {α : Type} {u : Except RemoteError Url} {message : String}
    {fields : List (String × String)} {m : Method} {body : Json.Value} {resource : String}
    {s : Json.Shape} {ofVal : s.Val → α} {a : α} (hm : m ≠ .get)
    (h : (c.gitCall u message fields m [] (some body) resource s ofVal).run w = (.ok a, w')) :
    w.Settles m body w' := by
  obtain ⟨v, response, val, hsend, hs, -⟩ := gitCall_run_eq_ok h
  exact (send_settles hm hsend hs).of_report

lemma deletionSha_run_eq_ok {r : RepoName} {path : String} {d : Deletion} {sha : String}
    (h : (c.deletionSha r path d).run w = (.ok sha, w')) :
    sha = d.sha.getD sha ∧ w.Passes (·.Asks .get none) w' := by
  unfold deletionSha at h
  cases hd : d.sha with
  | some given =>
    rw [hd] at h
    cases h
    exact ⟨rfl, .refl w⟩
  | none =>
    rw [hd] at h
    obtain ⟨info, w₁, hinfo, hrest⟩ := run_bind_eq_ok h
    cases hrest
    have hreads : Sends (fun _ => True) (·.Asks .get none)
        (c.getContents r path (d.branch.getD "")) fun _ => True :=
      getContents_sends fun u _ => sends_transmit_asks c.agent .get u _ _ none
    have hpasses := (hreads w fun _ _ => trivial).1
    rw [hinfo] at hpasses
    exact ⟨rfl, hpasses⟩

lemma deleteFile_settles {r : RepoName} {path : String} {d : Deletion}
    (h : (c.deleteFile r path d).run w = (.ok (), w')) :
    ∃ found w₁, w.Passes (·.Asks .get none) w₁ ∧
      w₁.Settles .delete ({ d with sha := some (d.sha.getD found) } : Deletion).toValue w' := by
  unfold deleteFile at h
  obtain ⟨sha, w₁, hsha, h₁⟩ := run_bind_eq_ok h
  obtain ⟨u, w₂, hu, h₂⟩ := run_bind_eq_ok h₁
  obtain ⟨_, w₃, hreport, h₃⟩ := run_bind_eq_ok h₂
  obtain ⟨answer, w₄, hsend, h₄⟩ := run_bind_eq_ok h₃
  obtain ⟨response, w₅, hcheck, h₅⟩ := run_bind_eq_ok h₄
  obtain ⟨-, rfl⟩ := of_run_eq hu
  cases hreport
  obtain ⟨hchecked, rfl⟩ := of_run_eq hcheck
  obtain ⟨rfl, hs⟩ := checked_eq_ok hchecked
  cases h₅
  obtain ⟨hgiven, hpasses⟩ := deletionSha_run_eq_ok hsha
  rw [hgiven] at hsend
  exact ⟨sha, _, hpasses, (send_settles (by decide) hsend hs).of_report⟩

/-- Whatever comes back, a call that makes a change and ends well was answered by a success, after
plain reads that may find out an object id. The request that the success answers is the one for
the change exactly if no redirect on the way to it has rewritten that. -/
theorem change_settled (c : Client) {x : Call} {m : Method} {body : String → Json.Value}
    (hx : x.change? = some (m, body)) {w w' : Wire} {reply : x.Reply}
    (h : (c.answer x).run w = (.ok reply, w')) :
    ∃ found w₁ earlier q before response, w.Passes (·.Asks .get none) w₁ ∧
      w₁.Carries (earlier ++ [q]) (before ++ [response]) w' ∧ earlier.length = before.length ∧
      response.status.isSuccess = true ∧
      (q.method = m ∧ q.body = some (body found) ↔
        ∀ moved ∈ before, ¬Agent.Rewrites moved.status m) := by
  suffices hsettles : ∃ found w₁, w.Passes (·.Asks .get none) w₁ ∧
      w₁.Settles m (body found) w' by
    obtain ⟨found, w₁, hpasses, earlier, q, before, response, hrest⟩ := hsettles
    exact ⟨found, w₁, earlier, q, before, response, hpasses, hrest⟩
  cases x with
  | updateRef r reference sha force =>
    cases hx
    exact ⟨"", w, .refl w, gitCall_settles (by decide) h⟩
  | createTree r base entries =>
    cases hx
    exact ⟨"", w, .refl w, gitCall_settles (by decide) h⟩
  | createCommit r commit =>
    cases hx
    exact ⟨"", w, .refl w, gitCall_settles (by decide) h⟩
  | deleteFile r path d =>
    cases hx
    exact deleteFile_settles h
  | _ => cases hx

section

/-- A deletion that knows the object id of its file. -/
def knownDeletion : Call := .deleteFile ⟨"o", "r"⟩ "a" ⟨"m", some "b1", none⟩

theorem change_settled_kept :
    let w := Wire.scripted "http" [movedTo 307 "/x", { status := 200 }]
    let body (found : String) : Json.Value :=
      ({ message := "m", sha := some (Option.getD (some "b1") found), branch := none } :
        Deletion).toValue
    ((keyed.answer knownDeletion).run w).1.isOk = true ∧
      knownDeletion.change? = some (.delete, body) ∧
      ∃ found w₁ earlier q before response, w.Passes (·.Asks .get none) w₁ ∧
        w₁.Carries (earlier ++ [q]) (before ++ [response])
          ((keyed.answer knownDeletion).run w).2 ∧ earlier.length = before.length ∧
        response.status.isSuccess = true ∧
        (q.method = .delete ∧ q.body = some (body found) ↔
          ∀ moved ∈ before, ¬Agent.Rewrites moved.status .delete) := by
  intro w body
  have hrun : ((keyed.deleteFile ⟨"o", "r"⟩ "a" ⟨"m", some "b1", none⟩).run w).1 = .ok () := by
    decide +kernel
  have hanswer : (keyed.answer knownDeletion).run w =
      (.ok (), ((keyed.answer knownDeletion).run w).2) := Prod.ext hrun rfl
  have hchange : knownDeletion.change? = some (.delete, body) := rfl
  exact ⟨congrArg Except.isOk hrun, hchange, change_settled keyed hchange hanswer⟩

/-- A deletion ends well although the only request that a success answers reads another page. -/
theorem deleteFile_unsettled :
    let w := Wire.scripted "http" [movedTo 303 "/x", { status := 200 }]
    ((keyed.deleteFile ⟨"o", "r"⟩ "a" ⟨"m", some "b1", none⟩).run w).1 = .ok () ∧
      ((keyed.deleteFile ⟨"o", "r"⟩ "a" ⟨"m", some "b1", none⟩).run w).2.sent.map
          (fun q => (q.method, q.url.text, q.body.isSome)) =
        [(.delete, "http://api.test/repos/o/r/contents/a", true),
          (.get, "http://api.test/x", false)] := by
  decide +kernel

end

end Client

end HostedRepo
