import HostedRepo.Proofs.Downloads
import HostedRepo.Proofs.PushedContent
import HostedRepo.Proofs.RecordFields

/-!
# The entries that a push submits

A push reads the tree of its branch and asks for a new one, made from its files and the entries that
they do not replace. The entry of a file has a content. An entry of the old tree has an object id
only if the answer that it was read out of gives one, and without it the new entry has neither.
-/

namespace HostedRepo

open Http Json

namespace NewEntry

/-- The entry has an object id or a content, and not both. -/
def Single (e : NewEntry) : Prop := e.sha.isSome ≠ e.content.isSome

instance : DecidablePred Single := fun _ => inferInstanceAs (Decidable (_ ≠ _))

end NewEntry

namespace Repository

variable {files : FileMap} {base : List TreeEntry}

lemma sha_or_content_none : ∀ e ∈ treeEntries files base, e.sha = none ∨ e.content = none := by
  rw [forall_treeEntries_iff]
  exact ⟨fun _ _ _ => .inl rfl, fun _ _ _ => .inr rfl⟩

lemma single_treeEntries_iff : (∀ e ∈ treeEntries files base, e.Single) ↔
    ∀ b ∈ base, files.get? b.path = none → b.sha.isSome = true := by
  have hblob (path content : String) : (NewEntry.blob path content).Single := Bool.false_ne_true
  have hexisting (b : TreeEntry) : (NewEntry.existing b).Single ↔ b.sha.isSome = true :=
    Bool.ne_false_iff
  simp only [forall_treeEntries_iff, hblob, hexisting, implies_true, true_and]

end Repository

/-! ### The tree that was read -/

namespace TreeEntry

/-- An entry as it is read out of a tree of a JSON text. -/
def ReadFrom (n : Node) (e : TreeEntry) : Prop :=
  ∃ row, shape.decode n = .ok row ∧ ofVal row = e

def shaPlace : Fields.Place "sha" (.option .text) false shape.fields :=
  .after (by decide) (.after (by decide) (.after (by decide) (.first _)))

lemma ReadFrom.sha_isSome_iff {n : Node} {e : TreeEntry} (h : ReadFrom n e) :
    e.sha.isSome = true ↔ ∃ x ∈ n.given "sha" 3, x ≠ .null := by
  obtain ⟨row, hrow, rfl⟩ := h
  have hsha : (∃ x, n.given "sha" 3 = [x] ∧ Shape.text.option.decode x = .ok (ofVal row).sha) ∨
      (n.given "sha" 3 = [] ∧ Shape.text.option.absent? false = some (ofVal row).sha) :=
    shaPlace.decode_given hrow
  obtain ⟨x, hgiven, hx⟩ | ⟨hgiven, hnone⟩ := hsha
  · have hsome : (ofVal row).sha.isSome = true ↔ x ≠ .null := Shape.isSome_of_option hx
    rw [hsome, hgiven]
    simp
  · have hnone : none = (ofVal row).sha := Option.some.inj hnone
    rw [← hnone, hgiven]
    simp

lemma ReadFrom.unique {n : Node} {e f : TreeEntry} (he : ReadFrom n e) (hf : ReadFrom n f) :
    e = f := by
  obtain ⟨row, hrow, rfl⟩ := he
  obtain ⟨row', hrow', rfl⟩ := hf
  rw [Except.ok.inj (hrow.symm.trans hrow')]

lemma forall_readFrom_iff {items : List Node} {entries : List TreeEntry} {P : TreeEntry → Prop}
    (h : List.Forall₂ ReadFrom items entries) :
    (∀ e ∈ entries, P e) ↔ ∀ n ∈ items, ∀ e, ReadFrom n e → P e := by
  induction h with
  | nil => simp
  | @cons n e items entries hread _ ih =>
    rw [List.forall_mem_cons, List.forall_mem_cons, ih]
    apply and_congr _ Iff.rfl
    constructor
    · intro hp f hf
      rwa [← hread.unique hf]
    · intro hp
      exact hp e hread

lemma forall₂_readFrom {items : List Node} {rows : List shape.Val}
    (h : List.Forall₂ (fun n row => shape.decode n = .ok row) items rows) :
    List.Forall₂ ReadFrom items (rows.map ofVal) := by
  rw [List.forall₂_map_right_iff]
  exact h.imp fun n row hrow => ⟨row, hrow, rfl⟩

end TreeEntry

namespace Tree

/-- A tree as it is read out of the body of a response, its entries out of the trees `items`. -/
def ReadFrom (r : Response) (items : List Node) (t : Tree) : Prop :=
  ∃ bs, r.content? = some bs ∧ (Node.ofBytes bs).1.given "tree" 1 = [.array items none] ∧
    List.Forall₂ TreeEntry.ReadFrom items t.entries

def entriesPlace : Fields.Place "tree" (.list TreeEntry.shape) false shape.fields :=
  .after (by decide) (.first _)

lemma readFrom_of_decoded {r : Response} {val : shape.Val}
    (h : Client.decoded shape r = .ok val) : ∃ items, ReadFrom r items (ofVal val) := by
  obtain ⟨bs, hbs, h⟩ := bind_eq_ok h
  obtain ⟨row, hrow, h⟩ := bind_eq_ok (mapError_eq_ok h)
  obtain ⟨_, -, h⟩ := bind_eq_ok h
  cases h
  obtain ⟨x, hgiven, hx⟩ | ⟨-, hnone⟩ := entriesPlace.decode_given hrow
  · obtain ⟨items, rfl, hitems⟩ := Shape.forall₂_of_list hx
    exact ⟨items, bs, Client.content_eq_ok hbs, hgiven, TreeEntry.forall₂_readFrom hitems⟩
  · cases hnone

end Tree

/-! ### The calls around a new tree -/

namespace PushJob

variable {j : PushJob} {h : History} {x : Except RemoteError Unit} {y : Answered}

lemma pipeline_createTree {v : PushReplies} {i : Nat} {r : RepoName} {tip : String}
    {entries : List NewEntry} (hi : (j.pipeline v)[i]? = some y)
    (hcall : y.call = .createTree r tip entries) :
    i = 2 ∧ tip = v.tip ∧ entries = Repository.treeEntries j.files v.base.entries := by
  match i, hi with
  | 0, hi | 1, hi | 3, hi | 4, hi =>
    cases hi
    cases hcall
  | 2, hi =>
    cases hi
    cases hcall
    exact ⟨rfl, rfl, rfl⟩
  | i + 5, hi => cases hi

lemma pipeline_getTree {v : PushReplies} {i : Nat} {r : RepoName} {tip : String} {recursive : Bool}
    {base : Tree} (hi : (j.pipeline v)[i]? = some ⟨.getTree r tip recursive, .ok base⟩) :
    i = 1 ∧ tip = v.tip ∧ base = v.base := by
  match i, hi with
  | 0, hi | 2, hi | 3, hi | 4, hi => cases hi
  | 1, hi =>
    cases hi
    exact ⟨rfl, rfl, rfl⟩
  | i + 5, hi => cases hi

lemma createTree_read (hy : j.plan.Yields h x) (hmem : y ∈ h.answers) {r : RepoName} {tip : String}
    {entries : List NewEntry} (hcall : y.call = .createTree r tip entries) :
    ∃ v rest, h = ((j.pipeline v).take 2).map .answered ++ rest ∧ tip = v.tip ∧
      entries = Repository.treeEntries j.files v.base.entries := by
  obtain ⟨i, hi⟩ := List.mem_iff_getElem?.mp hmem
  obtain ⟨v, ⟨rfl, -⟩ | ⟨k, z, e, hk, rfl, -⟩⟩ := Repository.push_yields hy
  · rw [Repository.answers_pushHistory] at hi
    obtain ⟨-, htip, hentries⟩ := pipeline_createTree hi hcall
    exact ⟨v, _, Repository.pushHistory_split .., htip, hentries⟩
  · rw [History.answers_map] at hi
    have hat : 2 ≤ k ∧ tip = v.tip ∧
        entries = Repository.treeEntries j.files v.base.entries := by
      obtain ⟨hik, hi⟩ | ⟨rfl, rfl⟩ := Repository.broken_getElem? hk hi
      · obtain ⟨rfl, hcreated⟩ := pipeline_createTree hi hcall
        exact ⟨Nat.le_of_lt hik, hcreated⟩
      · obtain ⟨rfl, hcreated⟩ := pipeline_createTree hk hcall
        exact ⟨Nat.le_refl 2, hcreated⟩
    obtain ⟨h2, hcreated⟩ := hat
    have htake : (j.pipeline v).take k = (j.pipeline v).take 2 ++ ((j.pipeline v).take k).drop 2 := by
      rw [← Nat.min_eq_left h2, ← List.take_take, Nat.min_eq_left h2, List.take_append_drop]
    refine ⟨v, (((j.pipeline v).take k).drop 2 ++ [z.failed e]).map .answered, ?_, hcreated⟩
    rw [← List.map_append, ← List.append_assoc, ← htake]
    rfl

lemma getTree_createTree (hy : j.plan.Yields h x) {r : RepoName} {tip : String} {recursive : Bool}
    {base : Tree} (hmem : ⟨.getTree r tip recursive, .ok base⟩ ∈ h.answers) :
    ∃ y ∈ h.answers, y.call =
      .createTree j.target tip (Repository.treeEntries j.files base.entries) := by
  obtain ⟨i, hi⟩ := List.mem_iff_getElem?.mp hmem
  obtain ⟨v, ⟨rfl, -⟩ | ⟨k, z, e, hk, rfl, -⟩⟩ := Repository.push_yields hy
  · rw [Repository.answers_pushHistory] at hi ⊢
    obtain ⟨-, rfl, rfl⟩ := pipeline_getTree hi
    exact ⟨_, .tail _ (.tail _ (.head _)), rfl⟩
  · rw [History.answers_map] at hi ⊢
    obtain ⟨hik, hi⟩ | ⟨-, hlast⟩ := Repository.broken_getElem? hk hi
    · obtain ⟨rfl, rfl, rfl⟩ := pipeline_getTree hi
      match k, hk with
      | 2, hk =>
        cases hk
        exact ⟨_, .tail _ (.tail _ (.head _)), rfl⟩
      | k + 3, _ => exact ⟨_, .tail _ (.tail _ (.head _)), rfl⟩
    · have hok : true = false := congrArg Answered.succeeded hlast
      cases hok

lemma through_reads {c : Client} {a : Agent} {v : PushReplies} {rest : History} {w w' : Wire}
    (ht : Through (c.Takes a) w (((j.pipeline v).take 2).map .answered ++ rest) w') :
    ∃ response items, response ∈ w.responses ∧ response.status.isSuccess = true ∧
      v.base.ReadFrom response items := by
  obtain ⟨w₁, hfound, ht⟩ := through_cons_iff.mp ht
  obtain ⟨w₂, hread, -⟩ := through_cons_iff.mp ht
  have hfound : (c.getRef j.target ("refs/heads/" ++ j.branch)).run w = (.ok v.found, w₁) := hfound
  have hread : (c.getTree j.target v.tip false).run w₁ = (.ok v.base, w₂) := hread
  rw [Client.getRef_eq] at hfound
  rw [Client.getTree_eq] at hread
  obtain ⟨_, used, _, _, hcarries, -⟩ := Client.gitCall_eq_ok hfound
  obtain ⟨_, before, response, val, hcarries', -, hsuccess, hdecoded, hbase, -⟩ :=
    Client.gitCall_eq_ok hread
  obtain ⟨items, hitems⟩ := Tree.readFrom_of_decoded hdecoded
  refine ⟨response, items, ?_, hsuccess, by rwa [hbase]⟩
  rw [hcarries.responses, hcarries'.responses]
  simp

/-- What a push that is run on a client submits, for every wire. It asks for a new tree from each
old one that it has read, and for no other; of the entries none has both an object id and a content,
and each has one of them exactly when the answer gives an object id for all entries that stay. -/
theorem push_submits (c : Client) (a : Agent) (j : PushJob) (w : Wire) :
    let out := (j.plan.runOn c a).run w
    ∃ h : History, j.plan.Yields h out.1 ∧ Through (c.Takes a) w h out.2 ∧
      (∀ r tip recursive base, ⟨.getTree r tip recursive, .ok base⟩ ∈ h.answers →
        ∃ y ∈ h.answers, y.call =
          .createTree j.target tip (Repository.treeEntries j.files base.entries)) ∧
      ∀ y ∈ h.answers, ∀ r tip entries, y.call = .createTree r tip entries →
        ∃ base response items, ⟨.getTree j.target tip false, .ok base⟩ ∈ h.answers ∧
          response ∈ w.responses ∧ response.status.isSuccess = true ∧
          Tree.ReadFrom response items base ∧
          entries = Repository.treeEntries j.files base.entries ∧
          (∀ e ∈ entries, e.sha = none ∨ e.content = none) ∧
          ((∀ e ∈ entries, e.Single) ↔ ∀ n ∈ items, ∀ b, TreeEntry.ReadFrom n b →
            j.files.get? b.path = none → ∃ x ∈ n.given "sha" 3, x ≠ .null) := by
  intro out
  obtain ⟨h, hy, ht⟩ := runOn_history c a j.plan w
  refine ⟨h, hy, ht, fun r tip recursive base hmem => getTree_createTree hy hmem, ?_⟩
  intro y hmem r tip entries hcall
  obtain ⟨v, rest, rfl, rfl, rfl⟩ := createTree_read hy hmem hcall
  obtain ⟨response, items, hresponse, hsuccess, hread⟩ := through_reads ht
  refine ⟨v.base, response, items, .tail _ (.head _), hresponse, hsuccess, hread, rfl,
    Repository.sha_or_content_none, ?_⟩
  obtain ⟨-, -, -, hentries⟩ := hread
  rw [Repository.single_treeEntries_iff, TreeEntry.forall_readFrom_iff hentries]
  refine forall₄_congr fun n _ b hb => imp_congr_right fun _ => ?_
  exact hb.sha_isSome_iff

/-- An old tree with a submodule whose object id the answer leaves out. The push ends well, and the
entry of the submodule has neither an object id nor a content. -/
theorem push_submits_bare :
    let j : PushJob := ⟨⟨"o", "r"⟩, FileMap.empty.insert "f" [0x78], "main", "m"⟩
    let listing := Command.jsonAnswer ("\x7b\"sha\":\"t0\",\"tree\":[\x7b\"path\":\"a\"," ++
      "\"mode\":\"160000\",\"type\":\"commit\"\x7d]\x7d")
    let w := Wire.scripted "http"
      [Command.branchAnswer "c0", listing, Command.treeAnswer "t1",
        Command.commitAnswer "c1" "t1", Command.branchAnswer "c1"]
    let out := (j.plan.runOn keyed keyed.agent).run w
    let entries := Repository.treeEntries j.files [⟨"a", "160000", "commit", none, none⟩]
    out.1 = .ok () ∧ (∃ e ∈ entries, ¬e.Single) ∧
      (out.2.sent[2]?.map fun q => (q.method.name, q.url.text, q.body.map Json.Value.render)) =
        some ("POST", "http://api.test/repos/o/r/git/trees",
          some (newTreeValue "c0" entries).render) := by
  decide +kernel

end PushJob

end HostedRepo
