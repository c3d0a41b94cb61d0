import HostedRepo.Proofs.PushPipeline
import HostedRepo.Proofs.SharedStore

/-!
# Interleaved pushes

Any number of pushes run over one store and take turns in any order, one call at a time. A push
may hold on to a tip that others have moved past, and its last call is forced; still a branch only
ever gets commits that were made for it, and each of them lies on its own history.
-/

namespace HostedRepo

/-- A call that has reached the store, and the store around it. -/
structure StoreEvent (ι : Type) where
  run : ι
  answered : Answered
  before : Store
  after : Store

def StoreEvent.Moves {ι : Type} (e : StoreEvent ι) : Prop := e.after.refs ≠ e.before.refs

instance {ι : Type} (e : StoreEvent ι) : Decidable e.Moves :=
  inferInstanceAs (Decidable (e.after.refs ≠ e.before.refs))

/-- A store, and what is left of each run over it. -/
structure Pushes (ι : Type) where
  store : Store
  left : ι → Plan (Except RemoteError Unit)

section

variable {ι : Type} [DecidableEq ι]

/-- The state in which one run has something else left, over another store. -/
def Pushes.goOn (s : Pushes ι) (i : ι) (p : Plan (Except RemoteError Unit)) (t : Store) :
    Pushes ι := ⟨t, Function.update s.left i p⟩

lemma Pushes.goOn_left_self (s : Pushes ι) (i : ι) (p : Plan (Except RemoteError Unit))
    (t : Store) : (s.goOn i p t).left i = p := by
  simp [Pushes.goOn]

lemma Pushes.goOn_left_of_ne (s : Pushes ι) {i j : ι} (h : i ≠ j)
    (p : Plan (Except RemoteError Unit)) (t : Store) : (s.goOn j p t).left i = s.left i := by
  simp [Pushes.goOn, h]

/-- The states that pushes reach from a store, with the calls on the way. In each step one run
goes on by one act. -/
inductive Reaches (jobs : ι → PushJob) (start : Store) :
    List (StoreEvent ι) → Pushes ι → Prop
  | start : Reaches jobs start [] ⟨start, fun i => (jobs i).plan⟩
  | call {tr : List (StoreEvent ι)} {s : Pushes ι} {i : ι} {c : Call}
    {next : Except RemoteError c.Reply → Plan (Except RemoteError Unit)}
    {reply : Except RemoteError c.Reply} {t : Store} :
    Reaches jobs start tr s → s.left i = .call c next → s.store.Answers ⟨c, reply⟩ t →
      Reaches jobs start (tr ++ [⟨i, ⟨c, reply⟩, s.store, t⟩]) (s.goOn i (next reply) t)
  | report {tr : List (StoreEvent ι)} {s : Pushes ι} {i : ι} {e : Log.Event}
    {next : Plan (Except RemoteError Unit)} :
    Reaches jobs start tr s → s.left i = .log e next →
      Reaches jobs start tr (s.goOn i next s.store)

/-- A commit that a run made for a branch, upon a commit that the branch pointed at before. -/
def MadeFor (jobs : ι → PushJob) (tr : List (StoreEvent ι)) (s : Store)
    (branch : RepoName × String) (sha : String) : Prop :=
  ∃ (earlier later : List (StoreEvent ι)) (e d : StoreEvent ι) (message tree parent : String)
    (made : Commit),
    tr = earlier ++ e :: later ∧ (jobs e.run).own = branch ∧
    e.answered = ⟨.createCommit branch.1 ⟨message, tree, [parent]⟩, .ok made⟩ ∧
    made.sha = sha ∧ s.commits.lookup sha = some ⟨tree, [parent]⟩ ∧
    d ∈ earlier ∧ d.before.refs.lookup branch = some parent

/-- What pushes leave intact of the branches in a store. -/
structure BranchesIntact (jobs : ι → PushJob) (start : Store) (tr : List (StoreEvent ι))
    (s : Pushes ι) : Prop where
  /-- A branch is where it was, or at a commit made for it upon an earlier tip. -/
  head : ∀ branch, s.store.refs.lookup branch = start.refs.lookup branch ∨
    ∃ sha, s.store.refs.lookup branch = some sha ∧ MadeFor jobs tr s.store branch sha
  /-- Parents lead from the tip of a branch to its first commit. -/
  line : ∀ branch sha, s.store.refs.lookup branch = some sha →
    ∃ base, start.refs.lookup branch = some base ∧ s.store.Line sha base
  /-- A run leaves all branches but its own alone. -/
  own : ∀ e ∈ tr, ∀ branch, branch ≠ (jobs e.run).own →
    e.after.refs.lookup branch = e.before.refs.lookup branch
  /-- A run moves at most once. -/
  once : ∀ i, (tr.filter fun e => e.run = i ∧ e.Moves).length ≤ 1
  /-- A run that has failed has moved nothing. -/
  failed : ∀ i e, s.left i = .done (.error e) → ∀ x ∈ tr, x.run = i → ¬x.Moves

def answersOf (tr : List (StoreEvent ι)) (i : ι) : List Answered :=
  (tr.filter (·.run = i)).map (·.answered)

lemma mem_answersOf {tr : List (StoreEvent ι)} {e : StoreEvent ι} (he : e ∈ tr) :
    e.answered ∈ answersOf tr e.run :=
  List.mem_map_of_mem (List.mem_filter.mpr ⟨he, by simp⟩)

lemma answersOf_split {tr : List (StoreEvent ι)} {i : ι} (xs : List Answered) (y : Answered)
    {zs : List Answered} (h : answersOf tr i = xs ++ y :: zs) :
    ∃ earlier e later, tr = earlier ++ e :: later ∧ e.run = i ∧ e.answered = y ∧
      answersOf earlier i = xs := by
  unfold answersOf at h ⊢
  obtain ⟨l₁, l₂, hl, rfl, h₂⟩ := List.map_eq_append_iff.mp h
  obtain ⟨e, l₃, rfl, rfl, -⟩ := List.map_eq_cons_iff.mp h₂
  obtain ⟨t₁, t₂, rfl, rfl, ht⟩ := List.filter_eq_append_iff.mp hl
  obtain ⟨t₃, t₄, rfl, hn, he, -⟩ := List.filter_eq_cons_iff.mp ht
  refine ⟨t₁ ++ t₃, e, t₄, by simp, by simpa using he, rfl, ?_⟩
  have hnil : t₃.filter (·.run = i) = [] := List.filter_eq_nil_iff.mpr hn
  rw [List.filter_append, hnil, List.append_nil]

variable {jobs : ι → PushJob} {start : Store} {tr : List (StoreEvent ι)} {s : Pushes ι}

lemma Reaches.leaves (hr : Reaches jobs start tr s) (i : ι) :
    ∃ h, (jobs i).plan.Leaves h (s.left i) ∧ h.answers = answersOf tr i := by
  induction hr with
  | start => exact ⟨[], .stay _, rfl⟩
  | @call tr s j c next reply t _ hl _ ih =>
    obtain ⟨h, hp, ha⟩ := ih
    by_cases hij : i = j
    · subst hij
      rw [hl] at hp
      refine ⟨h ++ [.answered ⟨c, reply⟩], ?_, by simp [ha, answersOf]⟩
      rw [Pushes.goOn_left_self]
      exact hp.trans (.call reply (.stay _))
    · refine ⟨h, ?_, by simp [ha, answersOf, Ne.symm hij]⟩
      rwa [Pushes.goOn_left_of_ne _ hij]
  | @report tr s j e next _ hl ih =>
    obtain ⟨h, hp, ha⟩ := ih
    by_cases hij : i = j
    · subst hij
      rw [hl] at hp
      refine ⟨h ++ [.reported e], ?_, by simp [ha]⟩
      rw [Pushes.goOn_left_self]
      exact hp.trans (.report (.stay _))
    · refine ⟨h, ?_, ha⟩
      rwa [Pushes.goOn_left_of_ne _ hij]

/-- Every event was answered in a state reached before, and later stores keep its commits. -/
lemma Reaches.at_event (hr : Reaches jobs start tr s) {earlier later : List (StoreEvent ι)}
    {e : StoreEvent ι} (ht : tr = earlier ++ e :: later) :
    (∃ t, Reaches jobs start earlier t ∧ t.store = e.before) ∧
      e.before.Answers e.answered e.after ∧ s.store.Extends e.after := by
  induction hr generalizing later with
  | start => simp at ht
  | @call tr s i c next reply t hr hl hs ih =>
    rcases List.eq_nil_or_concat later with rfl | ⟨later, x, rfl⟩
    · obtain ⟨rfl, h⟩ := List.append_inj' ht rfl
      cases h
      exact ⟨⟨s, hr, rfl⟩, hs, .refl _⟩
    · rw [List.concat_eq_append, ← List.cons_append, ← List.append_assoc] at ht
      obtain ⟨ht, -⟩ := List.append_inj' ht rfl
      obtain ⟨hb, ha, hx⟩ := ih ht
      exact ⟨hb, ha, hs.extends.trans hx⟩
  | report _ _ ih => exact ih ht

lemma Reaches.event_answers (hr : Reaches jobs start tr s) {e : StoreEvent ι} (he : e ∈ tr) :
    e.before.Answers e.answered e.after := by
  obtain ⟨earlier, later, ht⟩ := List.append_of_mem he
  exact (hr.at_event ht).2.1

lemma Reaches.moved_pipeline (hr : Reaches jobs start tr s) {e : StoreEvent ι} (he : e ∈ tr)
    {r : RepoName} {reference sha : String} {force : Bool} {moved : Reference}
    (hx : e.answered = ⟨.updateRef r reference sha force, .ok moved⟩) :
    ∃ v, answersOf tr e.run = (jobs e.run).pipeline v ∧
      e.answered = ⟨.updateRef (jobs e.run).own.1 (jobs e.run).own.2 v.commit.sha true,
        .ok v.moved⟩ ∧ ∀ x, s.left e.run ≠ .done (.error x) := by
  have hmem := mem_answersOf he
  have hmoves : e.answered.call.movesRef = true := by rw [hx]; rfl
  obtain ⟨h, hl, ha⟩ := hr.leaves e.run
  obtain ⟨v, ⟨k, hk, hp⟩ | ⟨k, y, err, hk, hf⟩⟩ := Repository.push_answers hl
  · rw [← ha, hk] at hmem
    obtain ⟨hlt, he⟩ := Repository.mem_take_pipeline_movesRef hmem hmoves
    refine ⟨v, ?_, he, hp⟩
    rw [← ha, hk]
    exact List.take_of_length_le hlt
  · rw [← ha, hf] at hmem
    have hxy := hx.symm.trans (Repository.mem_broken_movesRef hk hmem hmoves)
    have hok : true = false := congrArg Answered.succeeded hxy
    cases hok

/-- An event that moves a reference is the last call of its run, which has not failed. -/
lemma Reaches.moves_pipeline (hr : Reaches jobs start tr s) {e : StoreEvent ι} (he : e ∈ tr)
    (hm : e.Moves) :
    ∃ v, answersOf tr e.run = (jobs e.run).pipeline v ∧
      e.answered = ⟨.updateRef (jobs e.run).own.1 (jobs e.run).own.2 v.commit.sha true,
        .ok v.moved⟩ ∧ e.after.refs = e.before.refs.insert (jobs e.run).own v.commit.sha ∧
      ∀ x, s.left e.run ≠ .done (.error x) := by
  obtain hk | ⟨r, reference, sha, force, moved, hx, hrefs⟩ := (hr.event_answers he).refs_eq_or
  · exact absurd hk hm
  · obtain ⟨v, hv, hx', hleft⟩ := hr.moved_pipeline he hx
    refine ⟨v, hv, hx', ?_, hleft⟩
    rw [hx] at hx'
    cases hx'
    exact hrefs

lemma Reaches.head_eq_or (hr : Reaches jobs start tr s) (branch : RepoName × String) :
    s.store.refs.lookup branch = start.refs.lookup branch ∨
      ∃ e ∈ tr, ∃ sha force moved,
        e.answered = ⟨.updateRef branch.1 branch.2 sha force, .ok moved⟩ ∧
        s.store.refs.lookup branch = some sha := by
  induction hr with
  | start => exact .inl rfl
  | report _ _ ih => exact ih
  | @call tr s i c next reply t hr hl hs ih =>
    have hkept : t.refs.lookup branch = s.store.refs.lookup branch →
        t.refs.lookup branch = start.refs.lookup branch ∨
          ∃ e ∈ tr ++ [⟨i, ⟨c, reply⟩, s.store, t⟩], ∃ sha force moved,
            e.answered = ⟨.updateRef branch.1 branch.2 sha force, .ok moved⟩ ∧
            t.refs.lookup branch = some sha := by
      intro h
      rw [h]
      obtain ih | ⟨e, he, hx⟩ := ih
      · exact .inl ih
      · exact .inr ⟨e, List.mem_append_left _ he, hx⟩
    obtain hk | ⟨r, reference, sha, force, moved, hx, hrefs⟩ := hs.refs_eq_or
    · exact hkept (by rw [hk])
    · by_cases hb : branch = (r, reference)
      · subst hb
        refine .inr ⟨_, List.mem_append_right _ (List.mem_singleton_self _), sha, force, moved,
          hx, ?_⟩
        change t.refs.lookup (r, reference) = some sha
        rw [hrefs]
        exact Finmap.lookup_insert _
      · apply hkept
        rw [hrefs]
        exact Finmap.lookup_insert_of_ne _ hb

lemma Reaches.madeFor (hr : Reaches jobs start tr s) {i : ι} {v : PushReplies}
    (hv : answersOf tr i = (jobs i).pipeline v) :
    MadeFor jobs tr s.store (jobs i).own v.commit.sha := by
  obtain ⟨earlier, e, later, ht, hi, he, hbefore⟩ := answersOf_split
    (((jobs i).pipeline v).take 3) ⟨.createCommit (jobs i).target
      ⟨(jobs i).message, v.tree.sha, [v.tip]⟩, .ok v.commit⟩ hv
  obtain ⟨before, d, between, hd, -, hda, -⟩ := answersOf_split []
    ⟨.getRef (jobs i).target (jobs i).own.2, .ok v.found⟩ hbefore
  obtain ⟨-, hanswer, hextends⟩ := hr.at_event ht
  rw [he] at hanswer
  have hcommit : e.after.commits.lookup v.commit.sha = some ⟨v.tree.sha, [v.tip]⟩ := by
    rw [hanswer.committed_eq]
    exact Finmap.lookup_insert _
  have hfound := hr.event_answers (e := d) (by simp [ht, hd])
  rw [hda] at hfound
  exact ⟨earlier, later, e, d, (jobs i).message, v.tree.sha, v.tip, v.commit, ht, by rw [hi], he,
    rfl, hextends _ _ hcommit, by simp [hd], hfound.found_eq.1⟩

lemma Reaches.head_madeFor (hr : Reaches jobs start tr s) (branch : RepoName × String) :
    s.store.refs.lookup branch = start.refs.lookup branch ∨
      ∃ sha, s.store.refs.lookup branch = some sha ∧ MadeFor jobs tr s.store branch sha := by
  obtain hk | ⟨e, he, sha, force, moved, hx, hs⟩ := hr.head_eq_or branch
  · exact .inl hk
  · obtain ⟨v, hv, hx', -⟩ := hr.moved_pipeline he hx
    obtain ⟨r, reference⟩ := branch
    rw [hx] at hx'
    cases hx'
    exact .inr ⟨_, hs, hr.madeFor hv⟩

/-- What parents lead to from the tip of a branch was its tip at the start. -/
theorem Reaches.line (hr : Reaches jobs start tr s) (branch : RepoName × String) (sha : String)
    (hs : s.store.refs.lookup branch = some sha) :
    ∃ base, start.refs.lookup branch = some base ∧ s.store.Line sha base := by
  -- The parent was the tip of the branch in a state reached by fewer calls.
  induction hn : tr.length using Nat.strong_induction_on generalizing tr s sha with
  | _ n ih =>
    obtain hk | ⟨sha', hs', hmade⟩ := hr.head_madeFor branch
    · exact ⟨sha, hk.symm.trans hs, .refl sha⟩
    · obtain rfl : sha = sha' := Option.some.inj (hs.symm.trans hs')
      obtain ⟨earlier, later, e, d, _, tree, parent, _, ht, -, -, -, hc, hd, hp⟩ := hmade
      obtain ⟨before, between, rfl⟩ := List.append_of_mem hd
      rw [List.append_assoc, List.cons_append] at ht
      obtain ⟨⟨t, hreach, hstore⟩, hanswer, hextends⟩ := hr.at_event ht
      rw [← hstore] at hp hanswer
      obtain ⟨base, hbase, hline⟩ := ih before.length (by simp [← hn, ht]) hreach parent hp rfl
      exact ⟨base, hbase, .parent hc (hline.mono (hextends.trans hanswer.extends))⟩

lemma Reaches.once (hr : Reaches jobs start tr s) (i : ι) :
    (tr.filter fun e => e.run = i ∧ e.Moves).length ≤ 1 := by
  obtain ⟨h, hl, ha⟩ := hr.leaves i
  have hle := Repository.push_movesRef_le_one hl
  rw [ha, answersOf, List.countP_map, List.countP_filter] at hle
  rw [← List.countP_eq_length_filter]
  apply le_trans (List.countP_mono_left fun e he hm => ?_) hle
  obtain ⟨hi, hm⟩ := of_decide_eq_true hm
  obtain ⟨v, -, hx, -⟩ := hr.moves_pipeline he hm
  simp [hx, hi, Call.movesRef]

/-- Whatever runs do to a store, and in whatever order, they leave its branches intact. -/
theorem reaches_branchesIntact (jobs : ι → PushJob) (start : Store) (tr : List (StoreEvent ι))
    (s : Pushes ι) (hr : Reaches jobs start tr s) : BranchesIntact jobs start tr s where
  head := hr.head_madeFor
  line := hr.line
  own := by
    intro e he branch hb
    by_cases hm : e.Moves
    · obtain ⟨v, -, -, hrefs, -⟩ := hr.moves_pipeline he hm
      rw [hrefs]
      exact Finmap.lookup_insert_of_ne _ hb
    · rw [not_not.mp hm]
  once := hr.once
  failed := by
    intro i err hleft e he hi hm
    subst hi
    obtain ⟨_, -, -, -, hne⟩ := hr.moves_pipeline he hm
    exact hne err hleft

end

def rivalPush : PushJob := ⟨⟨"owner", "repo"⟩, .empty, "main", "message"⟩

def rivalStore : Store := ⟨.singleton rivalPush.own "c0", .singleton "c0" ⟨"t0", []⟩⟩

/-- Both pushes start from one tip, and the second to end takes the branch from the first. -/
theorem rival_branchesIntact :
    ∃ (tr : List (StoreEvent Bool)) (s : Pushes Bool),
      Reaches (fun _ => rivalPush) rivalStore tr s ∧
      s.store.refs.lookup rivalPush.own = some "c2" ∧
      s.store.commits.lookup "c2" = some ⟨"t2", ["c0"]⟩ ∧
      BranchesIntact (fun _ => rivalPush) rivalStore tr s := by
  have h := @Reaches.start Bool _ (fun _ => rivalPush) rivalStore
  have h := h.call (i := false) rfl (.found (⟨"refs/heads/main", "c0", "commit"⟩ : Reference) rfl)
  have h := h.call (i := true) rfl (.found (⟨"refs/heads/main", "c0", "commit"⟩ : Reference) rfl)
  have h := h.call (i := false) rfl
    (.kept _ ⟨.getTree rivalPush.target "c0" false, .ok (⟨"t0", [], false⟩ : Tree)⟩ rfl)
  have h := h.call (i := false) rfl
    (.kept _ ⟨.createTree rivalPush.target "c0" [], .ok (⟨"t1", [], false⟩ : Tree)⟩ rfl)
  have h := h.call (i := false) rfl
    (.committed (⟨"c1", "t1", none, ["c0"]⟩ : Commit) (by decide))
  have h := h.call (i := false) rfl (.moved (⟨"refs/heads/main", "c1", "commit"⟩ : Reference))
  have h := h.call (i := true) rfl
    (.kept _ ⟨.getTree rivalPush.target "c0" false, .ok (⟨"t0", [], false⟩ : Tree)⟩ rfl)
  have h := h.call (i := true) rfl
    (.kept _ ⟨.createTree rivalPush.target "c0" [], .ok (⟨"t2", [], false⟩ : Tree)⟩ rfl)
  have h := h.call (i := true) rfl
    (.committed (⟨"c2", "t2", none, ["c0"]⟩ : Commit) (by decide))
  have h := h.call (i := true) rfl (.moved (⟨"refs/heads/main", "c2", "commit"⟩ : Reference))
  exact ⟨_, _, h, Finmap.lookup_insert _, Finmap.lookup_insert _,
    reaches_branchesIntact _ _ _ _ h⟩

end HostedRepo
