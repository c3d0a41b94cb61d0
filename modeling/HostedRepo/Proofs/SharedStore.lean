import HostedRepo.Proofs.History
import Mathlib.Data.Finmap

/-!
# A store of references and commits

What the remote side keeps of a repository, as far as pushes are concerned: where references
point, and commits with their trees and parents. `Store.Answers` is all that is assumed of the
answers to calls. A commit is recorded under an id that is not taken, so the store only grows.
-/

namespace HostedRepo

abbrev Table (α β : Type) := Finmap fun _ : α => β

structure StoredCommit where
  tree : String
  parents : List String
  deriving DecidableEq

/-- References by repository and full name, and commits by id. -/
structure Store where
  refs : Table (RepoName × String) String
  commits : Table String StoredCommit

/-- Whether a call neither reads nor changes references and commits. -/
def Call.keepsHistory : Call → Bool
  | .getRef .. | .updateRef .. | .createCommit .. => false
  | _ => true

namespace Store

/-- How a store may answer a call, and the store after it. -/
inductive Answers : Store → Answered → Store → Prop
  | refused (s : Store) (c : Call) (e : RemoteError) : Answers s ⟨c, .error e⟩ s
  | kept (s : Store) (x : Answered) : x.call.keepsHistory = true → Answers s x s
  | found {s : Store} {r : RepoName} {reference : String} (found : Reference) :
    s.refs.lookup (r, reference) = some found.object.sha →
      Answers s ⟨.getRef r reference, .ok found⟩ s
  | committed {s : Store} {r : RepoName} {commit : NewCommit} (made : Commit) :
    made.sha ∉ s.commits → Answers s ⟨.createCommit r commit, .ok made⟩
      { s with commits := s.commits.insert made.sha ⟨commit.tree, commit.parents⟩ }
  | moved {s : Store} {r : RepoName} {reference sha : String} {force : Bool} (moved : Reference) :
    Answers s ⟨.updateRef r reference sha force, .ok moved⟩
      { s with refs := s.refs.insert (r, reference) sha }

def Extends (t s : Store) : Prop :=
  ∀ sha c, s.commits.lookup sha = some c → t.commits.lookup sha = some c

lemma Extends.refl (s : Store) : s.Extends s := fun _ _ h => h

lemma Extends.trans {s t u : Store} (hu : u.Extends t) (ht : t.Extends s) : u.Extends s :=
  fun sha c h => hu sha c (ht sha c h)

lemma Answers.extends {s t : Store} {x : Answered} (h : s.Answers x t) : t.Extends s := by
  cases h with
  | refused | kept | found | moved => exact fun _ _ h => h
  | committed made hnew =>
    intro sha c hc
    have hne : sha ≠ made.sha := by
      rintro rfl
      exact hnew (Finmap.mem_of_lookup_eq_some hc)
    rw [← hc]
    exact Finmap.lookup_insert_of_ne _ hne

/-- References change only by a call that moves one, and only this one changes. -/
lemma Answers.refs_eq_or {s t : Store} {x : Answered} (h : s.Answers x t) :
    t.refs = s.refs ∨ ∃ r reference sha force moved,
      x = ⟨.updateRef r reference sha force, .ok moved⟩ ∧
      t.refs = s.refs.insert (r, reference) sha := by
  cases h with
  | refused | kept | found | committed => exact .inl rfl
  | moved moved => exact .inr ⟨_, _, _, _, moved, rfl, rfl⟩

lemma Answers.kept_eq {s t : Store} {x : Answered} (h : s.Answers x t)
    (hk : x.call.keepsHistory = true) : t = s := by
  cases h with
  | refused | kept => rfl
  | found | committed | moved => cases hk

lemma Answers.found_eq {s t : Store} {r : RepoName} {reference : String} {found : Reference}
    (h : s.Answers ⟨.getRef r reference, .ok found⟩ t) :
    s.refs.lookup (r, reference) = some found.object.sha ∧ t = s := by
  cases h with
  | kept _ hk => cases hk
  | found _ hf => exact ⟨hf, rfl⟩

lemma Answers.committed_eq {s t : Store} {r : RepoName} {commit : NewCommit} {made : Commit}
    (h : s.Answers ⟨.createCommit r commit, .ok made⟩ t) :
    t = { s with commits := s.commits.insert made.sha ⟨commit.tree, commit.parents⟩ } := by
  cases h with
  | kept _ hk => cases hk
  | committed _ _ => rfl

lemma Answers.moved_eq {s t : Store} {r : RepoName} {reference sha : String} {force : Bool}
    {moved : Reference} (h : s.Answers ⟨.updateRef r reference sha force, .ok moved⟩ t) :
    t = { s with refs := s.refs.insert (r, reference) sha } := by
  cases h with
  | kept _ hk => cases hk
  | moved _ => rfl

/-- One commit reaches another through commits with a single parent. -/
inductive Line (s : Store) : String → String → Prop
  | refl (sha : String) : Line s sha sha
  | parent {sha tree parent base : String} :
    s.commits.lookup sha = some ⟨tree, [parent]⟩ → Line s parent base → Line s sha base

lemma Line.mono {s t : Store} {sha base : String} (hs : t.Extends s) (h : s.Line sha base) :
    t.Line sha base := by
  induction h with
  | refl sha => exact .refl sha
  | parent hc _ ih => exact .parent (hs _ _ hc) ih

end Store
end HostedRepo
