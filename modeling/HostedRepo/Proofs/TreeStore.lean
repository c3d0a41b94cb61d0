import HostedRepo.Proofs.PushPipeline
import HostedRepo.Proofs.TreeItems
import Mathlib.Data.Fintype.EquivFin

/-!
# A store with trees

A store that keeps for each tree what it has at its paths. A new tree is the tree of a commit with
entries put in, in any order that the store likes. A push overrides the tree of its branch by its
files, so that pushes one after the other compose like the file maps.
-/

namespace HostedRepo

/-- A store that also keeps the trees by id. -/
structure TreeStore extends Store where
  trees : Table String TreeItems

namespace TreeStore

/-- The items of a tree; the id of a commit stands for the tree of the commit. -/
def items? (s : TreeStore) (sha : String) : Option TreeItems :=
  match s.commits.lookup sha with
  | some c => s.trees.lookup c.tree
  | none => s.trees.lookup sha

def branchItems? (s : TreeStore) (branch : RepoName × String) : Option TreeItems :=
  (s.refs.lookup branch).bind s.items?

/-- What calls do to trees: a tree is described as it is, and a new one is made from a base by
entries in some order. -/
def AnswersTrees (hash : String → String) (s : TreeStore) :
    Answered → Table String TreeItems → Prop
  | ⟨.getTree _ sha _, .ok (tree : Tree)⟩, ts =>
    ts = s.trees ∧ ∃ m, s.items? sha = some m ∧ TreeItems.Lists m tree.entries
  | ⟨.createTree _ base entries, .ok (tree : Tree)⟩, ts =>
    ∃ m order, s.items? base = some m ∧ order.Perm entries ∧
      ts = s.trees.insert tree.sha (TreeItems.layer hash m order)
  | _, ts => ts = s.trees

/-- One act of a plan on a store with trees; calls do not fail. -/
def Takes (hash : String → String) (s : TreeStore) : Act → TreeStore → Prop
  | .answered x, t =>
    x.succeeded = true ∧ s.toStore.Answers x t.toStore ∧ s.AnswersTrees hash x t.trees
  | _, t => t = s

/-- A push that goes through without a failing call and ends with a result. -/
def Pushed (hash : String → String) (j : PushJob) (s : TreeStore) (x : Except RemoteError Unit)
    (t : TreeStore) : Prop :=
  ∃ h, j.plan.Yields h x ∧ Through (Takes hash) s h t

variable {hash : String → String} {j : PushJob} {s t : TreeStore} {x : Except RemoteError Unit}

lemma eq_of_parts (hstore : t.toStore = s.toStore) (htrees : t.trees = s.trees) : t = s := by
  cases s
  cases t
  cases hstore
  cases htrees
  rfl

lemma succeeded_of_through {h : History} (ht : Through (Takes hash) s h t) :
    ∀ y ∈ h.answers, y.succeeded = true := by
  induction ht with
  | nil s => simp
  | @cons s t u a h hs _ ih =>
    cases a with
    | reported e => exact ih
    | downloaded link reply => exact ih
    | answered y =>
      intro z hz
      rcases List.mem_cons.mp hz with rfl | hz
      · exact hs.1
      · exact ih z hz

lemma Pushed.history (hp : Pushed hash j s x t) :
    x = .ok () ∧ ∃ v, Through (Takes hash) s
      (Repository.pushHistory j.target j.files j.branch j.message v) t := by
  obtain ⟨h, hy, ht⟩ := hp
  obtain ⟨v, ⟨rfl, rfl⟩ | ⟨k, y, e, -, rfl, -⟩⟩ := Repository.push_yields hy
  · exact ⟨rfl, v, ht⟩
  · have hfail := succeeded_of_through ht (y.failed e) (by simp)
    cases hfail

/-- A push puts its files over the tree of its branch. -/
theorem Pushed.overrides (hp : Pushed hash j s x t) {m : TreeItems}
    (hs : s.branchItems? j.own = some m) :
    x = .ok () ∧ ∃ n, t.branchItems? j.own = some n ∧ TreeItems.Overrides hash j.files m n := by
  obtain ⟨rfl, v, ht⟩ := hp.history
  refine ⟨rfl, ?_⟩
  obtain ⟨s₁, ⟨-, h₁, ht₁⟩, ht⟩ := through_cons_iff.mp ht
  obtain ⟨s₂, ⟨-, h₂, ht₂⟩, ht⟩ := through_cons_iff.mp ht
  obtain ⟨s₃, ⟨-, h₃, ht₃⟩, ht⟩ := through_cons_iff.mp ht
  obtain ⟨s₄, ⟨-, h₄, ht₄⟩, ht⟩ := through_cons_iff.mp ht
  obtain ⟨s₅, ⟨-, h₅, ht₅⟩, ht⟩ := through_cons_iff.mp ht
  obtain ⟨s₆, h₆, ht⟩ := through_cons_iff.mp ht
  obtain rfl : t = s₅ := (through_nil_iff.mp ht).trans h₆
  obtain ⟨href, hs₁⟩ := h₁.found_eq
  obtain rfl : s₁ = s := eq_of_parts hs₁ ht₁
  have htip : s₁.items? v.tip = some m := by
    rw [← hs, branchItems?, PushJob.own, href]
    rfl
  obtain ⟨ht₂, m₂, hm₂, hlists⟩ := ht₂
  obtain rfl : s₂ = s₁ := eq_of_parts (h₂.kept_eq rfl) ht₂
  obtain rfl : m = m₂ := Option.some.inj (htip.symm.trans hm₂)
  obtain ⟨m₃, order, hm₃, horder, ht₃⟩ := ht₃
  obtain rfl : m = m₃ := Option.some.inj (htip.symm.trans hm₃)
  have hcommits : t.commits.lookup v.commit.sha = some ⟨v.tree.sha, [v.tip]⟩ := by
    rw [h₅.moved_eq, h₄.committed_eq]
    exact Finmap.lookup_insert _
  have hrefs : t.refs.lookup j.own = some v.commit.sha := by
    rw [h₅.moved_eq]
    exact Finmap.lookup_insert _
  have htrees : t.trees.lookup v.tree.sha = some (TreeItems.layer hash m order) := by
    rw [ht₅, ht₄, ht₃]
    exact Finmap.lookup_insert _
  refine ⟨TreeItems.layer hash m order, ?_, TreeItems.overrides_layer hlists horder⟩
  rw [branchItems?, hrefs, Option.bind_some, items?, hcommits]
  exact htrees

lemma exists_pushed (j : PushJob) {m : TreeItems} (hs : s.branchItems? j.own = some m) :
    ∃ t, Pushed hash j s (.ok ()) t := by
  obtain ⟨tip, htip, hm⟩ := Option.bind_eq_some_iff.mp hs
  obtain ⟨base, hbase⟩ := m.exists_lists
  obtain ⟨sha, hsha⟩ := Infinite.exists_notMem_finset s.commits.keys
  rw [Finmap.mem_keys] at hsha
  let v : PushReplies := ⟨⟨j.own.2, tip, "commit"⟩, ⟨"", base, false⟩, ⟨"", [], false⟩,
    ⟨sha, "", none, [tip]⟩, ⟨j.own.2, sha, "commit"⟩⟩
  let made : TreeStore := { s with
    trees := s.trees.insert "" (.layer hash m (Repository.treeEntries j.files base)) }
  let kept : TreeStore := { made with commits := s.commits.insert sha ⟨"", [tip]⟩ }
  let moved : TreeStore := { kept with refs := s.refs.insert j.own sha }
  have hread : Takes hash s (.answered ⟨.getRef j.target j.own.2, .ok v.found⟩) s :=
    ⟨rfl, .found _ htip, rfl⟩
  have hdescribed : Takes hash s (.answered ⟨.getTree j.target tip false, .ok v.base⟩) s :=
    ⟨rfl, .kept _ _ rfl, rfl, m, hm, hbase⟩
  have hmade : Takes hash s (.answered ⟨.createTree j.target tip _, .ok v.tree⟩) made :=
    ⟨rfl, .kept _ _ rfl, m, _, hm, .refl _, rfl⟩
  have hkept : Takes hash made
      (.answered ⟨.createCommit j.target ⟨j.message, "", [tip]⟩, .ok v.commit⟩) kept :=
    ⟨rfl, .committed _ hsha, rfl⟩
  have hmoved : Takes hash kept
      (.answered ⟨.updateRef j.target j.own.2 sha true, .ok v.moved⟩) moved :=
    ⟨rfl, .moved _, rfl⟩
  refine ⟨moved, _, Repository.push_yields_pushHistory v, ?_⟩
  exact .cons hread (.cons hdescribed (.cons hmade (.cons hkept (.cons hmoved
    (.cons rfl (.nil _))))))

/-- The tree of a branch after pushes is its tree before, overridden by the files. -/
structure PushesOverride (hash : String → String) (r : RepoName) (branch : String)
    (s : TreeStore) (m : TreeItems) : Prop where
  runs : ∀ files message, ∃ t, Pushed hash ⟨r, files, branch, message⟩ s (.ok ()) t
  overrides : ∀ files message x t, Pushed hash ⟨r, files, branch, message⟩ s x t →
    x = .ok () ∧ ∃ n, t.branchItems? (r, "refs/heads/" ++ branch) = some n ∧
      TreeItems.Overrides hash files m n
  composes : ∀ f g m₁ m₂ m₃ x₁ x₂ x₃ t u v, Pushed hash ⟨r, f, branch, m₁⟩ s x₁ t →
    Pushed hash ⟨r, g, branch, m₂⟩ t x₂ u → Pushed hash ⟨r, f.override g, branch, m₃⟩ s x₃ v →
      u.branchItems? (r, "refs/heads/" ++ branch) = v.branchItems? (r, "refs/heads/" ++ branch)
  twice : ∀ f m₁ m₂ x₁ x₂ t u, Pushed hash ⟨r, f, branch, m₁⟩ s x₁ t →
    Pushed hash ⟨r, f, branch, m₂⟩ t x₂ u →
      u.branchItems? (r, "refs/heads/" ++ branch) = t.branchItems? (r, "refs/heads/" ++ branch)
  /-- The order in which the submitted entries are put in makes no difference. -/
  unordered : ∀ files base es fs, TreeItems.Lists m base →
    es.Perm (Repository.treeEntries files base) → fs.Perm (Repository.treeEntries files base) →
      TreeItems.layer hash m es = TreeItems.layer hash m fs

/-- For every branch that is at a tree, pushes to it override this tree. -/
theorem pushes_override (hash : String → String) (r : RepoName) (branch : String) (s : TreeStore)
    (m : TreeItems) (hs : s.branchItems? (r, "refs/heads/" ++ branch) = some m) :
    PushesOverride hash r branch s m where
  runs files message := exists_pushed ⟨r, files, branch, message⟩ hs
  overrides files message x t ht := ht.overrides hs
  composes := by
    intro f g _ _ _ _ _ _ t u v ht hu hv
    obtain ⟨-, n, hn, hmn⟩ := ht.overrides hs
    obtain ⟨-, k, hk, hnk⟩ := hu.overrides hn
    obtain ⟨-, l, hl, hml⟩ := hv.overrides hs
    obtain rfl : k = l := (hmn.trans hnk).unique hml
    exact hk.trans hl.symm
  twice := by
    intro f _ _ _ _ t u ht hu
    obtain ⟨-, n, hn, hmn⟩ := ht.overrides hs
    obtain ⟨-, k, hk, hnk⟩ := hu.overrides hn
    obtain rfl : k = n := (hmn.twice hnk).unique hmn
    exact hk.trans hn.symm
  unordered := by
    intro files base es fs hb hes hfs
    have hn := Repository.nodup_treeEntries files hb.once
    rw [TreeItems.layer_perm m hn hes, TreeItems.layer_perm m hn hfs]

def seedStore : TreeStore where
  refs := .singleton (⟨"owner", "repo"⟩, "refs/heads/main") "c0"
  commits := .singleton "c0" ⟨"t0", []⟩
  trees := .singleton "t0" ((Finmap.singleton "run.sh" ⟨"100755", "blob", "b0"⟩).insert "note"
    ⟨"100644", "blob", "e69de29bb2d1d6434b8b29ae775ad8c2e48c5391"⟩)

/-- The file that is there is overridden, and the program stays. -/
theorem seedStore_pushed :
    ∃ m t n, seedStore.branchItems? (⟨"owner", "repo"⟩, "refs/heads/main") = some m ∧
      Pushed (fun content => if content = "hello\n" then "ce013625030ba8dba906f756967f9e9ca394464a"
          else "e69de29bb2d1d6434b8b29ae775ad8c2e48c5391")
        ⟨⟨"owner", "repo"⟩, FileMap.empty.insert "note" (Text.Utf8.encode "hello\n"), "main", "m"⟩
        seedStore (.ok ()) t ∧
      t.branchItems? (⟨"owner", "repo"⟩, "refs/heads/main") = some n ∧
      n.lookup "note" = some ⟨"100644", "blob", "ce013625030ba8dba906f756967f9e9ca394464a"⟩ ∧
      n.lookup "run.sh" = some ⟨"100755", "blob", "b0"⟩ := by
  have h := pushes_override (fun content => if content = "hello\n" then
    "ce013625030ba8dba906f756967f9e9ca394464a" else "e69de29bb2d1d6434b8b29ae775ad8c2e48c5391")
    ⟨"owner", "repo"⟩ "main" seedStore _ rfl
  obtain ⟨t, ht⟩ := h.runs (FileMap.empty.insert "note" (Text.Utf8.encode "hello\n")) "m"
  obtain ⟨-, n, hn, hover⟩ := h.overrides _ _ _ _ ht
  refine ⟨_, t, n, rfl, ht, hn, ?_, ?_⟩
  · rw [hover]
    decide +kernel
  · rw [hover]
    decide +kernel

end TreeStore
end HostedRepo
