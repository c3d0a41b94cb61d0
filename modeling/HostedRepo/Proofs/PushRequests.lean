import HostedRepo.Proofs.GitExchanges
import HostedRepo.Proofs.PushPipeline

/-!
# The requests of a push

What a push sends when a client answers its calls. References are moved by PATCH requests, and
nothing turns another request into one; so a push sends them only after its first four calls, each
of which has read what the next one needs out of a success.
-/

namespace HostedRepo

open Http Client

/-- The calls of a push up to the commit, each of which reads its result out of a success. -/
def Client.Prepares (c : Client) (j : PushJob) (v : PushReplies) (w w' : Wire) : Prop :=
  ∃ w₁ w₂ w₃,
    Decodes (c.getRef j.target ("refs/heads/" ++ j.branch)) Reference.shape Reference.ofVal
      w v.found w₁ ∧
    Decodes (c.getTree j.target v.tip false) Tree.shape Tree.ofVal w₁ v.base w₂ ∧
    Decodes (c.createTree j.target v.tip (Repository.treeEntries j.files v.base.entries))
      Tree.shape Tree.ofVal w₂ v.tree w₃ ∧
    Decodes (c.createCommit j.target ⟨j.message, v.tree.sha, [v.tip]⟩) Commit.shape Commit.ofVal
      w₃ v.commit w'

section

variable {c : Client} {a : Agent} {w w' : Wire}

/-- All requests along a history come from its calls, or read archives. -/
theorem through_sends {h : History} (ht : Through (c.Takes a) w h w')
    (hh : ∀ x ∈ h.answers, x.call.asks?.isSome = true) :
    ∃ qs used, w.Carries qs used w' ∧ ∀ q ∈ qs, q.Asks .get none ∨
      ∃ x ∈ h.answers, ∃ m body, x.call.asks? = some (m, body) ∧ q.Asks m body := by
  induction ht with
  | nil w => exact ⟨[], [], .refl w, by simp⟩
  | @cons w w₁ w' act h hs _ ih =>
    cases act with
    | reported e =>
      obtain ⟨qs, used, hc, hq⟩ := ih hh
      cases hs
      exact ⟨qs, used, (Wire.Carries.report e w).trans hc, hq⟩
    | downloaded link reply =>
      obtain ⟨qs, used, hc, hq⟩ := ih hh
      obtain ⟨qs₁, used₁, hc₁, hq₁⟩ := downloadArchive_sendsOnly a link w
      rw [show (downloadArchive a link).run w = (reply, w₁) from hs] at hc₁
      refine ⟨qs₁ ++ qs, used₁ ++ used, hc₁.trans hc, fun q hmem => ?_⟩
      rcases List.mem_append.mp hmem with hmem | hmem
      · exact .inl (hq₁ q hmem)
      · exact hq q hmem
    | answered x =>
      rw [History.answers_answered] at hh
      obtain ⟨qs, used, hc, hq⟩ := ih fun y hy => hh y (List.mem_cons_of_mem x hy)
      obtain ⟨⟨m, body⟩, hm⟩ := Option.isSome_iff_exists.mp (hh x List.mem_cons_self)
      obtain ⟨qs₁, used₁, hc₁, hq₁⟩ := c.answer_sendsOnly hm w
      rw [show (c.answer x.call).run w = (x.reply, w₁) from hs] at hc₁
      refine ⟨qs₁ ++ qs, used₁ ++ used, hc₁.trans hc, fun q hmem => ?_⟩
      rcases List.mem_append.mp hmem with hmem | hmem
      · exact .inr ⟨x, List.mem_cons_self, m, body, hm, hq₁ q hmem⟩
      · refine (hq q hmem).imp id ?_
        rintro ⟨y, hy, hasks⟩
        exact ⟨y, List.mem_cons_of_mem x hy, hasks⟩

lemma asks_patch {x : Call} {m : Method} {body : Option Json.Value} {q : Request}
    (hx : x.asks? = some (m, body)) (hq : q.Asks m body) (hp : q.method = .patch) :
    ∃ r reference sha force, x = .updateRef r reference sha force ∧
      q.body = some (moveValue sha force) := by
  obtain ⟨rfl, hb⟩ := hq.patch hp
  cases x with
  | updateRef r reference sha force =>
    cases hx
    exact ⟨r, reference, sha, force, rfl, hb⟩
  | _ => cases hx

lemma through_sends_no_patch {h : History} (ht : Through (c.Takes a) w h w')
    (hh : ∀ x ∈ h.answers, x.call.asks?.isSome = true)
    (hm : ∀ x ∈ h.answers, x.call.movesRef = false) :
    ∃ qs used, w.Carries qs used w' ∧ ∀ q ∈ qs, q.method ≠ .patch := by
  obtain ⟨qs, used, hc, hq⟩ := through_sends ht hh
  refine ⟨qs, used, hc, fun q hmem hp => ?_⟩
  obtain hget | ⟨x, hx, m, body, hasks, hqx⟩ := hq q hmem
  · cases (hget.patch hp).1
  · obtain ⟨r, reference, sha, force, hcall, -⟩ := asks_patch hasks hqx hp
    have hmoves := hm x hx
    rw [hcall] at hmoves
    cases hmoves

end

lemma Answered.failed_inj {x y : Answered} {d e : RemoteError} (h : x.failed d = y.failed e) :
    e = d := by
  obtain ⟨call, reply⟩ := x
  obtain ⟨call', reply'⟩ := y
  unfold failed at h
  cases h
  rfl

namespace PushJob

variable {j : PushJob} {v : PushReplies} {h : History} {x : Except RemoteError Unit}

def update (j : PushJob) (v : PushReplies) : Call :=
  .updateRef j.target ("refs/heads/" ++ j.branch) v.commit.sha true

lemma yields_cases (hy : j.plan.Yields h x) :
    ∃ v : PushReplies,
      (∃ last, h = ((j.pipeline v).take 4).map .answered ++ last ∧
        ((x = .ok () ∧ ∃ event, last = [.answered ⟨j.update v, .ok v.moved⟩, .reported event]) ∨
          ∃ e, x = .error e ∧ last = [.answered ⟨j.update v, .error e⟩])) ∨
      ∃ (k : Nat) (y : Answered) (e : RemoteError), k < 4 ∧ (j.pipeline v)[k]? = some y ∧
        x = .error e ∧ h = ((j.pipeline v).take k ++ [y.failed e]).map .answered := by
  obtain ⟨v, ⟨rfl, hx⟩ | ⟨k, y, e, hk, rfl, hx⟩⟩ := Repository.push_yields hy
  · exact ⟨v, .inl ⟨_, rfl, .inl ⟨hx, _, rfl⟩⟩⟩
  · by_cases hlt : k < 4
    · exact ⟨v, .inr ⟨k, y, e, hlt, hk, hx, rfl⟩⟩
    · have hlen : k < 5 := (List.getElem?_eq_some_iff.mp hk).1
      obtain rfl : k = 4 := by omega
      cases hk
      exact ⟨v, .inl ⟨_, rfl, .inr ⟨e, hx, rfl⟩⟩⟩

lemma pipeline_asks {y : Answered} (hy : y ∈ j.pipeline v) : y.call.asks?.isSome = true := by
  simp only [pipeline, Repository.pipeline, List.mem_cons, List.not_mem_nil, or_false] at hy
  rcases hy with rfl | rfl | rfl | rfl | rfl <;> rfl

section

variable {c : Client} {a : Agent} {w w' : Wire}

lemma through_prepares (ht : Through (c.Takes a) w (((j.pipeline v).take 4).map .answered) w') :
    c.Prepares j v w w' := by
  obtain ⟨w₁, h₁, ht⟩ := through_cons_iff.mp ht
  obtain ⟨w₂, h₂, ht⟩ := through_cons_iff.mp ht
  obtain ⟨w₃, h₃, ht⟩ := through_cons_iff.mp ht
  obtain ⟨w₄, h₄, ht⟩ := through_cons_iff.mp ht
  obtain rfl := through_nil_iff.mp ht
  refine ⟨w₁, w₂, w₃, ?_, ?_, ?_, ?_⟩
  · rw [getRef_eq]
    exact gitCall_decodes h₁
  · rw [getTree_eq]
    exact gitCall_decodes h₂
  · rw [createTree_eq]
    exact gitCall_decodes h₃
  · rw [createCommit_eq]
    exact gitCall_decodes h₄

lemma prepared_sends (ht : Through (c.Takes a) w (((j.pipeline v).take 4).map .answered) w') :
    ∃ qs used, w.Carries qs used w' ∧ ∀ q ∈ qs, q.method ≠ .patch := by
  apply through_sends_no_patch ht
  · intro x hx
    rw [History.answers_map] at hx
    exact pipeline_asks (List.mem_of_mem_take hx)
  · intro x hx
    rw [History.answers_map] at hx
    rw [← Bool.not_eq_true]
    intro hm
    have := (Repository.mem_take_pipeline_movesRef hx hm).1
    omega

/-- A push that breaks off before its last call has sent no PATCH request. -/
lemma broken_sends {k : Nat} {y : Answered} {e : RemoteError} (hk : k < 4)
    (hy : (j.pipeline v)[k]? = some y)
    (ht : Through (c.Takes a) w (((j.pipeline v).take k ++ [y.failed e]).map .answered) w') :
    ∃ qs used, w.Carries qs used w' ∧ ∀ q ∈ qs, q.method ≠ .patch := by
  apply through_sends_no_patch ht
  · intro x hx
    rw [History.answers_map] at hx
    rcases List.mem_append.mp hx with hx | hx
    · exact pipeline_asks (List.mem_of_mem_take hx)
    · rw [List.mem_singleton.mp hx]
      exact pipeline_asks (y := y) (List.mem_of_getElem? hy)
  · intro x hx
    rw [History.answers_map] at hx
    rw [← Bool.not_eq_true]
    intro hm
    obtain rfl := Repository.mem_broken_movesRef hy hx hm
    have := (Repository.pipeline_movesRef hy hm).1
    omega

lemma last_sends {last : History} (ht : Through (c.Takes a) w last w')
    (hl : ∀ x ∈ last.answers, x.call = j.update v) :
    ∃ qs used, w.Carries qs used w' ∧
      ∀ q ∈ qs, q.method = .patch → q.body = some (moveValue v.commit.sha true) := by
  obtain ⟨qs, used, hc, hq⟩ := through_sends ht fun x hx => by rw [hl x hx]; rfl
  refine ⟨qs, used, hc, fun q hmem hp => ?_⟩
  obtain hget | ⟨x, hx, m, body, hasks, hqx⟩ := hq q hmem
  · cases (hget.patch hp).1
  · obtain ⟨r, reference, sha, force, hcall, hbody⟩ := asks_patch hasks hqx hp
    cases (hl x hx).symm.trans hcall
    exact hbody

lemma update_sends_patch {event : Log.Event} {qs : List Request} {used : List Response}
    (ht : Through (c.Takes a) w [.answered ⟨j.update v, .ok v.moved⟩, .reported event] w')
    (hc : w.Carries qs used w') : ∃ q ∈ qs.map Request.onWire, q.method = .patch := by
  obtain ⟨w₁, h₁, ht⟩ := through_cons_iff.mp ht
  obtain ⟨w₂, h₂, ht⟩ := through_cons_iff.mp ht
  obtain rfl := through_nil_iff.mp ht
  have hrun : (c.updateRef j.target ("refs/heads/" ++ j.branch) v.commit.sha true).run w =
      (.ok v.moved, w₁) := h₁
  rw [updateRef_eq] at hrun
  obtain ⟨qs₁, _, _, _, hc₁, -, -, -, -, q, hq, hm, -⟩ := gitCall_eq_ok hrun
  have hsent : w.sent ++ qs.map Request.onWire = w.sent ++ qs₁.map Request.onWire := by
    rw [← hc.sent, ← hc₁.sent, show w' = w₁.report event from h₂]
    rfl
  rw [List.append_cancel_left hsent]
  exact ⟨q.onWire, List.mem_map_of_mem hq, hm⟩

end

lemma failed_notMem_take {k : Nat} {y : Answered} {e : RemoteError} :
    y.failed e ∉ (j.pipeline v).take k := by
  intro hmem
  have hs := Repository.pipeline_succeeded (List.mem_of_mem_take hmem)
  cases hs

/-- What a push that is run on a client sends and ends with, for every wire. A PATCH request is
sent only after four calls that each ended in a success that was decoded, and it carries the id of
the commit; when one of these calls fails, its error is the result and no PATCH request is sent. -/
theorem push_patches_decoded_commit (c : Client) (a : Agent) (j : PushJob) (w : Wire) :
    let out := (j.plan.runOn c a).run w
    ∃ (h : History) (reqs : List Request),
      j.plan.Yields h out.1 ∧ Through (c.Takes a) w h out.2 ∧ out.2.sent = w.sent ++ reqs ∧
      (∀ q ∈ reqs, q.method = .patch → ∃ (v : PushReplies) (prepared : Wire)
        (before after : List Request), c.Prepares j v w prepared ∧
          reqs = before ++ after ∧ prepared.sent = w.sent ++ before ∧
          (∀ p ∈ before, p.method ≠ .patch) ∧
          q.body = some (.object [("sha", .text v.commit.sha), ("force", .flag true)])) ∧
      (∀ (x : Answered) (e : RemoteError), x.call.movesRef = false → x.failed e ∈ h.answers →
        out.1 = .error e ∧ ∀ q ∈ reqs, q.method ≠ .patch) ∧
      (out.1 = .ok () → ∃ q ∈ reqs, q.method = .patch) := by
  intro out
  obtain ⟨h, hy, ht⟩ := runOn_history c a j.plan w
  obtain ⟨v, ⟨last, rfl, hlast⟩ | ⟨k, y, e, hk, hy', hx, rfl⟩⟩ := yields_cases hy
  · obtain ⟨prepared, ht₁, ht₂⟩ := through_append_iff.mp ht
    have hcall : ∀ x ∈ History.answers last, x.call = j.update v := by
      obtain ⟨-, event, rfl⟩ | ⟨e, -, rfl⟩ := hlast <;> simp
    obtain ⟨qs₁, used₁, hc₁, hq₁⟩ := prepared_sends ht₁
    obtain ⟨qs₂, used₂, hc₂, hq₂⟩ := last_sends ht₂ hcall
    refine ⟨_, _, hy, ht, (hc₁.trans hc₂).sent, ?_, ?_, ?_⟩
    · intro q hmem hp
      refine ⟨v, prepared, _, _, through_prepares ht₁, List.map_append, hc₁.sent, ?_, ?_⟩
      · exact List.forall_mem_map.mpr hq₁
      · obtain ⟨q, hmem', rfl⟩ := List.mem_map.mp hmem
        rcases List.mem_append.mp hmem' with hfirst | hlast
        · exact absurd hp (hq₁ q hfirst)
        · exact hq₂ q hlast hp
    · intro x e hm hmem
      rw [History.answers_append, History.answers_map] at hmem
      rcases List.mem_append.mp hmem with hmem | hmem
      · exact absurd hmem failed_notMem_take
      · rw [show x.call = j.update v from hcall (x.failed e) hmem] at hm
        cases hm
    · intro hok
      obtain ⟨-, event, rfl⟩ | ⟨e, hx, -⟩ := hlast
      · obtain ⟨q, hq, hm⟩ := update_sends_patch ht₂ hc₂
        rw [List.map_append]
        exact ⟨q, List.mem_append_right _ hq, hm⟩
      · cases hx.symm.trans hok
  · obtain ⟨qs, used, hc, hq⟩ := broken_sends hk hy' ht
    have hno : ∀ q ∈ qs.map Request.onWire, q.method ≠ .patch := List.forall_mem_map.mpr hq
    refine ⟨_, _, hy, ht, hc.sent, ?_, ?_, ?_⟩
    · intro q hmem hp
      exact absurd hp (hno q hmem)
    · intro x e' _ hmem
      rw [History.answers_map] at hmem
      rcases List.mem_append.mp hmem with hmem | hmem
      · exact absurd hmem failed_notMem_take
      · rw [← Answered.failed_inj (List.mem_singleton.mp hmem)]
        exact ⟨hx, hno⟩
    · intro hok
      cases hx.symm.trans hok

end PushJob

end HostedRepo
