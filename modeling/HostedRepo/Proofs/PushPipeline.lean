import HostedRepo.Proofs.History
import HostedRepo.Remote.Repository

/-!
# The pipeline of a push

A push makes five calls, each from what the calls before it were answered with. Whatever the
replies are, the calls that are made are a beginning of this pipeline that ends at the first error.
-/

namespace HostedRepo

deriving instance Inhabited for GitObject, Reference, Tree, Commit

/-- The replies of a push whose calls all succeed. -/
structure PushReplies where
  found : Reference
  base : Tree
  tree : Tree
  commit : Commit
  moved : Reference
  deriving Inhabited

namespace PushReplies

/-- The commit that the branch points at when the push starts. -/
def tip (v : PushReplies) : String := v.found.object.sha

end PushReplies

namespace Call

def movesRef : Call → Bool
  | .updateRef .. => true
  | _ => false

end Call

namespace Repository

open Operation

/-- The calls of a push that goes through, with their replies. -/
def pipeline (r : RepoName) (files : FileMap) (branch message : String) (v : PushReplies) :
    List Answered :=
  [⟨.getRef r ("refs/heads/" ++ branch), .ok v.found⟩,
    ⟨.getTree r v.tip false, .ok v.base⟩,
    ⟨.createTree r v.tip (treeEntries files v.base.entries), .ok v.tree⟩,
    ⟨.createCommit r ⟨message, v.tree.sha, [v.tip]⟩, .ok v.commit⟩,
    ⟨.updateRef r ("refs/heads/" ++ branch) v.commit.sha true, .ok v.moved⟩]

def pushedEvent (r : RepoName) (files : FileMap) (branch : String) (v : PushReplies) : Log.Event :=
  ⟨.info, .operations, "pushed files", repoFields r ++ [("branch", branch), ("parent", v.tip),
    ("commit", v.commit.sha), ("files", toString files.size)]⟩

/-- The history of a push that goes through. -/
def pushHistory (r : RepoName) (files : FileMap) (branch message : String) (v : PushReplies) :
    History :=
  (pipeline r files branch message v).map .answered ++ [.reported (pushedEvent r files branch v)]

section Histories

variable {r : RepoName} {files : FileMap} {branch message : String}

lemma pipeline_movesRef {v : PushReplies} {i : Nat} {x : Answered}
    (hx : (pipeline r files branch message v)[i]? = some x) (hm : x.call.movesRef = true) :
    i = 4 ∧ x = ⟨.updateRef r ("refs/heads/" ++ branch) v.commit.sha true, .ok v.moved⟩ := by
  match i, hx with
  | 0, hx | 1, hx | 2, hx | 3, hx =>
    cases hx
    cases hm
  | 4, hx => exact ⟨rfl, (Option.some.inj hx).symm⟩
  | i + 5, hx => simp [pipeline] at hx

lemma mem_take_pipeline_movesRef {v : PushReplies} {k : Nat} {x : Answered}
    (hx : x ∈ (pipeline r files branch message v).take k) (hm : x.call.movesRef = true) :
    4 < k ∧ x = ⟨.updateRef r ("refs/heads/" ++ branch) v.commit.sha true, .ok v.moved⟩ := by
  obtain ⟨i, hi⟩ := List.mem_iff_getElem?.mp hx
  by_cases hik : i < k
  · rw [List.getElem?_take_of_lt hik] at hi
    obtain ⟨rfl, hx⟩ := pipeline_movesRef hi hm
    exact ⟨hik, hx⟩
  · rw [List.getElem?_take_eq_none (by omega)] at hi
    cases hi

lemma mem_broken_movesRef {v : PushReplies} {k : Nat} {x y : Answered} {e : RemoteError}
    (hk : (pipeline r files branch message v)[k]? = some y)
    (hx : x ∈ (pipeline r files branch message v).take k ++ [y.failed e])
    (hm : x.call.movesRef = true) : x = y.failed e := by
  rcases List.mem_append.mp hx with hx | hx
  · have hlt : k < 5 := (List.getElem?_eq_some_iff.mp hk).1
    have := (mem_take_pipeline_movesRef hx hm).1
    omega
  · exact List.mem_singleton.mp hx

lemma pipeline_succeeded {v : PushReplies} {x : Answered}
    (hx : x ∈ pipeline r files branch message v) : x.succeeded = true := by
  simp only [pipeline, List.mem_cons, List.not_mem_nil, or_false] at hx
  rcases hx with rfl | rfl | rfl | rfl | rfl <;> rfl

lemma answers_pushHistory (v : PushReplies) :
    (pushHistory r files branch message v).answers = pipeline r files branch message v := by
  simp [pushHistory]

lemma push_yields_pushHistory (v : PushReplies) :
    (push r files branch message).run.Yields (pushHistory r files branch message v) (.ok ()) := by
  unfold push
  refine leaves_call_bind_iff.mpr (.inr (.inr ⟨v.found, _, rfl, ?_⟩))
  refine leaves_call_bind_iff.mpr (.inr (.inr ⟨v.base, _, rfl, ?_⟩))
  refine leaves_call_bind_iff.mpr (.inr (.inr ⟨v.tree, _, rfl, ?_⟩))
  refine leaves_call_bind_iff.mpr (.inr (.inr ⟨v.commit, _, rfl, ?_⟩))
  refine leaves_call_bind_iff.mpr (.inr (.inr ⟨v.moved, _, rfl, ?_⟩))
  exact .report (.stay _)

/-- Whatever a push has done so far is a beginning of a whole history, or it has ended at the
first error. -/
theorem push_leaves {h : History} {p : Plan (Except RemoteError Unit)}
    (hl : (push r files branch message).run.Leaves h p) :
    ∃ v : PushReplies,
      (∃ k, h = (pushHistory r files branch message v).take k ∧
        ((k < 6 ∧ ∀ a, p ≠ .done a) ∨ (k = 6 ∧ p = .done (.ok ())))) ∨
      ∃ (k : Nat) (x : Answered) (e : RemoteError),
        (pipeline r files branch message v)[k]? = some x ∧
        h = ((pipeline r files branch message v).take k ++ [x.failed e]).map .answered ∧
        p = .done (.error e) := by
  unfold push at hl
  obtain ⟨rfl, rfl⟩ | ⟨e, rfl, rfl⟩ | ⟨found, h₁, rfl, hl₁⟩ := leaves_call_bind_iff.mp hl
  · exact ⟨default, .inl ⟨0, rfl, .inl ⟨by omega, run_call_bind_ne_done⟩⟩⟩
  · exact ⟨default, .inr ⟨0, _, e, rfl, rfl, rfl⟩⟩
  obtain ⟨rfl, rfl⟩ | ⟨e, rfl, rfl⟩ | ⟨base, h₂, rfl, hl₂⟩ := leaves_call_bind_iff.mp hl₁
  · exact ⟨{ (default : PushReplies) with found },
      .inl ⟨1, rfl, .inl ⟨by omega, run_call_bind_ne_done⟩⟩⟩
  · exact ⟨{ (default : PushReplies) with found }, .inr ⟨1, _, e, rfl, rfl, rfl⟩⟩
  obtain ⟨rfl, rfl⟩ | ⟨e, rfl, rfl⟩ | ⟨tree, h₃, rfl, hl₃⟩ := leaves_call_bind_iff.mp hl₂
  · exact ⟨{ (default : PushReplies) with found, base },
      .inl ⟨2, rfl, .inl ⟨by omega, run_call_bind_ne_done⟩⟩⟩
  · exact ⟨{ (default : PushReplies) with found, base }, .inr ⟨2, _, e, rfl, rfl, rfl⟩⟩
  obtain ⟨rfl, rfl⟩ | ⟨e, rfl, rfl⟩ | ⟨commit, h₄, rfl, hl₄⟩ := leaves_call_bind_iff.mp hl₃
  · exact ⟨{ (default : PushReplies) with found, base, tree },
      .inl ⟨3, rfl, .inl ⟨by omega, run_call_bind_ne_done⟩⟩⟩
  · exact ⟨{ (default : PushReplies) with found, base, tree }, .inr ⟨3, _, e, rfl, rfl, rfl⟩⟩
  obtain ⟨rfl, rfl⟩ | ⟨e, rfl, rfl⟩ | ⟨moved, h₅, rfl, hl₅⟩ := leaves_call_bind_iff.mp hl₄
  · exact ⟨{ (default : PushReplies) with found, base, tree, commit },
      .inl ⟨4, rfl, .inl ⟨by omega, run_call_bind_ne_done⟩⟩⟩
  · exact ⟨{ (default : PushReplies) with found, base, tree, commit },
      .inr ⟨4, _, e, rfl, rfl, rfl⟩⟩
  rw [run_report, Plan.leaves_log_iff] at hl₅
  obtain ⟨rfl, rfl⟩ | ⟨h₆, rfl, hl₆⟩ := hl₅
  · exact ⟨⟨found, base, tree, commit, moved⟩,
      .inl ⟨5, rfl, .inl ⟨by omega, fun a => by intro h; cases h⟩⟩⟩
  · obtain ⟨rfl, rfl⟩ := Plan.leaves_done_iff.mp hl₆
    exact ⟨⟨found, base, tree, commit, moved⟩, .inl ⟨6, rfl, .inr ⟨rfl, rfl⟩⟩⟩

lemma answers_take_pushHistory (v : PushReplies) (k : Nat) :
    History.answers ((pushHistory r files branch message v).take k) =
      (pipeline r files branch message v).take k := by
  have hlast : ∀ n, History.answers ([.reported (pushedEvent r files branch v)].take n) = [] := by
    intro n
    cases n <;> simp
  rw [pushHistory, List.take_append, History.answers_append, hlast, ← List.map_take,
    History.answers_map, List.append_nil]

/-- The calls of a push so far are a beginning of its pipeline, or it has ended at the first
error. -/
theorem push_answers {h : History} {p : Plan (Except RemoteError Unit)}
    (hl : (push r files branch message).run.Leaves h p) :
    ∃ v : PushReplies,
      (∃ k, h.answers = (pipeline r files branch message v).take k ∧
        ∀ e, p ≠ .done (.error e)) ∨
      ∃ (k : Nat) (x : Answered) (e : RemoteError),
        (pipeline r files branch message v)[k]? = some x ∧
        h.answers = (pipeline r files branch message v).take k ++ [x.failed e] := by
  obtain ⟨v, ⟨k, rfl, hp⟩ | ⟨k, x, e, hk, rfl, -⟩⟩ := push_leaves hl
  · refine ⟨v, .inl ⟨k, answers_take_pushHistory v k, fun e he => ?_⟩⟩
    obtain ⟨_, hp⟩ | ⟨_, rfl⟩ := hp
    · exact hp _ he
    · cases he
  · exact ⟨v, .inr ⟨k, x, e, hk, History.answers_map _⟩⟩

lemma push_movesRef_le_one {h : History} {p : Plan (Except RemoteError Unit)}
    (hl : (push r files branch message).run.Leaves h p) :
    h.answers.countP (·.call.movesRef) ≤ 1 := by
  obtain ⟨v, ⟨k, hk, -⟩ | ⟨k, x, e, hk, ha⟩⟩ := push_answers hl
  · rw [hk]
    exact (List.take_sublist k _).countP_le
  · have hlast : [x.failed e].countP (·.call.movesRef) = [x].countP (·.call.movesRef) := rfl
    have htake := List.take_add_one (l := pipeline r files branch message v) (i := k)
    rw [hk, Option.toList_some] at htake
    rw [ha, List.countP_append, hlast, ← List.countP_append, ← htake]
    exact (List.take_sublist (k + 1) _).countP_le

/-- A push that has ended made all five calls, or ended with the error of the last one. -/
theorem push_yields {h : History} {x : Except RemoteError Unit}
    (hy : (push r files branch message).run.Yields h x) :
    ∃ v : PushReplies,
      (h = pushHistory r files branch message v ∧ x = .ok ()) ∨
      ∃ (k : Nat) (y : Answered) (e : RemoteError),
        (pipeline r files branch message v)[k]? = some y ∧
        h = ((pipeline r files branch message v).take k ++ [y.failed e]).map .answered ∧
        x = .error e := by
  obtain ⟨v, ⟨k, hk, ⟨_, hp⟩ | ⟨rfl, hp⟩⟩ | ⟨k, y, e, hk, hh, hp⟩⟩ := push_leaves hy
  · exact absurd rfl (hp x)
  · cases hp
    exact ⟨v, .inl ⟨hk, rfl⟩⟩
  · cases hp
    exact ⟨v, .inr ⟨k, y, e, hk, hh, rfl⟩⟩

end Histories

end Repository

structure PushJob where
  target : RepoName
  files : FileMap
  branch : String
  message : String

namespace PushJob

def plan (j : PushJob) : Plan (Except RemoteError Unit) :=
  (Repository.push j.target j.files j.branch j.message).run

def pipeline (j : PushJob) (v : PushReplies) : List Answered :=
  Repository.pipeline j.target j.files j.branch j.message v

/-- The reference that the push is to move. -/
def own (j : PushJob) : RepoName × String := (j.target, "refs/heads/" ++ j.branch)

end PushJob

/-! ### Pushes on scripts -/

namespace Script

/-- The reply that a script has for its `i`th call from now on. -/
def reply (s : Script) (i : Nat) (c : Call) : Except RemoteError c.Reply :=
  match s.replies[i]? with
  | some x => x.answer c
  | none => .error (.unexpected "no reply scripted")

lemma answer_fst (s : Script) (c : Call) : (s.answer c).1 = s.reply 0 c := by
  unfold answer reply
  cases hs : s.replies <;> simp

lemma reply_answer_snd (s : Script) (c d : Call) (i : Nat) :
    (s.answer c).2.reply i d = s.reply (i + 1) d := by
  unfold answer reply
  cases hs : s.replies <;> simp

lemma calls_answer_snd (s : Script) (c : Call) : (s.answer c).2.calls = s.calls ++ [c] := by
  unfold answer
  cases hs : s.replies <;> rfl

/-- Along a history a script keeps the calls and answers them with its replies in order. -/
theorem through_takes {σ : Type} {fetch : Url → σ → Except RemoteError Bytes × σ}
    {s t : Script × σ} {h : History} (ht : Through (Takes fetch) s h t) :
    t.1.calls = s.1.calls ++ h.answers.map (·.call) ∧
      ∀ i x, h.answers[i]? = some x → x.reply = s.1.reply i x.call := by
  induction ht with
  | nil s => simp
  | @cons s t u a h hs _ ih =>
    obtain ⟨s, w⟩ := s
    cases a with
    | reported e =>
      cases hs
      exact ih
    | downloaded link reply =>
      obtain ⟨-, rfl⟩ := hs
      exact ih
    | answered y =>
      obtain ⟨hy, rfl⟩ := hs
      obtain ⟨hc, hr⟩ := ih
      constructor
      · rw [hc, calls_answer_snd]
        simp
      · intro i x hx
        cases i with
        | zero =>
          obtain rfl : y = x := by simpa using hx
          rw [← hy, answer_fst]
        | succ i => rw [hr i x (by simpa using hx), reply_answer_snd]

end Script

namespace Repository

lemma broken_getElem? {r : RepoName} {files : FileMap} {branch message : String}
    {v : PushReplies} {k i : Nat} {x y : Answered} {e : RemoteError}
    (hk : (pipeline r files branch message v)[k]? = some y)
    (hi : ((pipeline r files branch message v).take k ++ [y.failed e])[i]? = some x) :
    (i < k ∧ (pipeline r files branch message v)[i]? = some x) ∨ (i = k ∧ x = y.failed e) := by
  have hlen : ((pipeline r files branch message v).take k).length = k := by
    rw [List.length_take, Nat.min_eq_left (Nat.le_of_lt (List.getElem?_eq_some_iff.mp hk).1)]
  by_cases hik : i < k
  · rw [List.getElem?_append_left (by rwa [hlen]), List.getElem?_take_of_lt hik] at hi
    exact .inl ⟨hik, hi⟩
  · rw [List.getElem?_append_right (by rw [hlen]; omega), hlen, List.getElem?_singleton] at hi
    split at hi
    · cases hi
      exact .inr ⟨by omega, rfl⟩
    · cases hi

/-- For all replies of the remote side, the calls of a push are the pipeline up to the first error.
This error is the result, and without one the push succeeds. A reference is moved at most once, in
the last call and after four successes. -/
theorem push_calls_pipeline_prefix {σ : Type} (fetch : Url → σ → Except RemoteError Bytes × σ)
    (r : RepoName) (files : FileMap) (branch message : String) (s : Script) (w : σ) :
    let out := (push r files branch message).run.runScript fetch s w
    ∃ (v : PushReplies) (made : List Answered),
      out.2.1.calls = s.calls ++ made.map (·.call) ∧
      (∀ i x, made[i]? = some x → x.reply = s.reply i x.call) ∧
      ((made = pipeline r files branch message v ∧ out.1 = .ok ()) ∨
        ∃ (k : Nat) (x : Answered) (e : RemoteError),
          (pipeline r files branch message v)[k]? = some x ∧
          made = (pipeline r files branch message v).take k ++ [x.failed e] ∧
          out.1 = .error e) ∧
      (out.1 = .ok () ↔ made.length = 5 ∧ ∀ x ∈ made, x.succeeded = true) ∧
      ∀ i x, made[i]? = some x → x.call.movesRef = true →
        i = 4 ∧ made.length = 5 ∧ ∀ y ∈ made.take 4, y.succeeded = true := by
  intro out
  obtain ⟨h, hy, ht⟩ := runScript_history fetch (push r files branch message).run s w
  obtain ⟨hc, hr⟩ := Script.through_takes ht
  obtain ⟨v, ⟨rfl, hx⟩ | ⟨k, y, e, hk, rfl, hx⟩⟩ := push_yields hy
  · rw [answers_pushHistory] at hc hr
    refine ⟨v, _, hc, hr, .inl ⟨rfl, hx⟩, ?_, ?_⟩
    · exact iff_of_true hx ⟨rfl, fun x hx => pipeline_succeeded hx⟩
    · intro i x hi hm
      exact ⟨(pipeline_movesRef hi hm).1, rfl, fun y hy => pipeline_succeeded (List.mem_of_mem_take hy)⟩
  · rw [History.answers_map] at hc hr
    have hlen : k < 5 := (List.getElem?_eq_some_iff.mp hk).1
    refine ⟨v, _, hc, hr, .inr ⟨k, y, e, hk, rfl, hx⟩, ?_, ?_⟩
    · apply iff_of_false
      · intro h
        cases hx.symm.trans h
      · rintro ⟨-, hs⟩
        cases hs (y.failed e) (by simp)
    · intro i x hi hm
      have hki : i = 4 ∧ k = 4 := by
        obtain ⟨hik, hi⟩ | ⟨rfl, rfl⟩ := broken_getElem? hk hi
        · have := (pipeline_movesRef hi hm).1
          omega
        · have := (pipeline_movesRef hk hm).1
          omega
      obtain ⟨rfl, rfl⟩ := hki
      refine ⟨rfl, rfl, fun z hz => ?_⟩
      rw [List.take_append_of_le_length (by simp [pipeline]), List.take_take] at hz
      exact pipeline_succeeded (List.mem_of_mem_take hz)

end Repository
end HostedRepo
