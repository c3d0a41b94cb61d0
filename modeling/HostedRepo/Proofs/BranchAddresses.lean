import HostedRepo.Client.GitObjects
import HostedRepo.Proofs.CheckedNames
import HostedRepo.Proofs.EndpointPaths
import HostedRepo.Remote.Repository

/-!
# Addresses of branches

Which branches have one address. The address of a branch tells its owner, its repository and the
parts of its name, but not how many slashes stand between two parts.
-/

namespace HostedRepo

namespace Client

open Repository

lemma shortRef_branchRef (branch : String) : shortRef (branchRef branch) = "heads/" ++ branch := by
  have hstrip : Text.stripStart "refs/".toList (branchRef branch).toList =
      some ("heads/" ++ branch).toList := by
    rw [Text.stripStart_eq_some_iff]
    simp [branchRef]
  rw [shortRef, hstrip]
  exact String.ofList_toList

/-- A repository and a branch that the checks accept, with no tab or line break in their names. No
part of a name is a dot segment. -/
structure Named (r : RepoName) (branch : String) : Prop where
  owner_checked : Check.segment "owner" r.owner = .ok ()
  repo_checked : Check.segment "repo" r.repo = .ok ()
  branch_checked : Check.branch branch = .ok ()
  owner_plain : Url.Unbroken r.owner ∧ r.owner ≠ "." ∧ r.owner ≠ ".."
  repo_plain : Url.Unbroken r.repo ∧ r.repo ≠ "." ∧ r.repo ≠ ".."
  branch_plain : Url.Unbroken branch ∧ ['.'] ∉ Text.splitAt '/' branch.toList

/-- The parts of a branch name that are not empty. -/
def nameParts (branch : String) : List (List Char) :=
  (Text.splitAt '/' branch.toList).filter (· ≠ [])

lemma Named.segmentParts_branch {r : RepoName} {branch : String} (h : Named r branch) :
    Url.segmentParts branch = nameParts branch := by
  refine List.filter_congr fun part hpart => ?_
  have hhere : part ≠ ['.'] := fun heq => h.branch_plain.2 (heq ▸ hpart)
  have hup : part ≠ ['.', '.'] := by
    rintro rfl
    have hoccurs := Text.occurs_of_infix (Text.infix_of_mem_splitAt hpart)
    rw [Check.occurs_eq_false_of_branch h.branch_checked] at hoccurs
    cases hoccurs
  simp [hhere, hup]

def addressParts (r : RepoName) (branch : String) : List (List Char) :=
  ["repos".toList, r.owner.toList, r.repo.toList, "git".toList, "refs".toList, "heads".toList] ++
    nameParts branch

lemma addressParts_eq_iff {r₁ r₂ : RepoName} {branch₁ branch₂ : String} :
    addressParts r₁ branch₁ = addressParts r₂ branch₂ ↔
      r₁ = r₂ ∧ nameParts branch₁ = nameParts branch₂ := by
  have hname : r₁ = r₂ ↔ r₁.owner.toList = r₂.owner.toList ∧ r₁.repo.toList = r₂.repo.toList := by
    cases r₁
    cases r₂
    simp [String.toList_inj]
  rw [hname]
  simp [addressParts, and_assoc]

section

variable {r : RepoName} {branch : String}

lemma Named.segmentParts_address (h : Named r branch) :
    (["repos", r.owner, r.repo, "git", "refs", "heads/" ++ branch].flatMap Url.segmentParts) =
      addressParts r branch := by
  have howner : Url.segmentParts r.owner = [r.owner.toList] :=
    Url.segmentParts_name (Check.segment_eq_ok_iff.mp h.owner_checked).2
      (by simp [Check.ne_empty_of_segment h.owner_checked, h.owner_plain.2])
  have hrepo : Url.segmentParts r.repo = [r.repo.toList] :=
    Url.segmentParts_name (Check.segment_eq_ok_iff.mp h.repo_checked).2
      (by simp [Check.ne_empty_of_segment h.repo_checked, h.repo_plain.2])
  have hrepos : Url.segmentParts "repos" = ["repos".toList] := by decide
  have hgit : Url.segmentParts "git" = ["git".toList] := by decide
  have hrefs : Url.segmentParts "refs" = ["refs".toList] := by decide
  have hheads : Url.segmentParts ("heads/" ++ branch) = "heads".toList :: nameParts branch := by
    rw [← h.segmentParts_branch]
    exact Url.segmentParts_append "heads" branch
  simp [List.flatMap_cons, howner, hrepo, hrepos, hgit, hrefs, hheads, addressParts]

lemma Named.unbroken (h : Named r branch) :
    ∀ t ∈ ["repos", r.owner, r.repo, "git", "refs", "heads/" ++ branch], Url.Unbroken t := by
  have hheads : Url.Unbroken ("heads/" ++ branch) := by
    intro ch hch
    rw [String.toList_append] at hch
    rcases List.mem_append.mp hch with hch | hch
    · exact (by decide : Url.Unbroken "heads/") ch hch
    · exact h.branch_plain.1 ch hch
  simp only [List.forall_mem_cons]
  exact ⟨by decide, h.owner_plain.1, h.repo_plain.1, by decide, by decide, hheads, by simp⟩

lemma Named.address (h : Named r branch) {c : Client} {parts : List String}
    (hpath : c.apiBase.path = .segments parts) :
    c.gitEndpoint r ["refs", shortRef (branchRef branch)] =
      .ok { c.apiBase with path := .segments (Url.rootParts parts ++
        (addressParts r branch).map (Url.encoded (Url.isSpecial c.apiBase.scheme))) } := by
  have hparts := h.segmentParts_address
  have hne : addressParts r branch ≠ [] := by simp [addressParts]
  rw [← hparts] at hne ⊢
  rw [shortRef_branchRef]
  exact endpoint_eq_ok hpath h.unbroken hne

end

lemma pathText_address (root : List String) (hasAuthority special : Bool) (r : RepoName)
    (branch : String) :
    (Url.Path.segments (root ++ (addressParts r branch).map (Url.encoded special))).text
        hasAuthority =
      (if !hasAuthority && root.head? == some "" then "/." else "") ++ Url.segmentsText root ++
        Url.segmentsText ((addressParts r branch).map (Url.encoded special)) := by
  have hrepos : Url.encoded special ['r', 'e', 'p', 'o', 's'] ≠ "" :=
    Url.encoded_ne_empty (by simp)
  rw [Url.Path.text, Url.segmentsText_append, String.append_assoc]
  cases root with
  | nil => simp [addressParts, hrepos]
  | cons first root =>
    have hlength : 1 ≤ root.length + ((nameParts branch).length + 1 + 1 + 1 + 1 + 1 + 1) := by omega
    simp [addressParts, hlength]

lemma addressText_eq_iff (special : Bool) {r₁ r₂ : RepoName} {branch₁ branch₂ : String} :
    Url.segmentsText ((addressParts r₁ branch₁).map (Url.encoded special)) =
        Url.segmentsText ((addressParts r₂ branch₂).map (Url.encoded special)) ↔
      addressParts r₁ branch₁ = addressParts r₂ branch₂ := by
  have hslash : ∀ (parts : List (List Char)), ∀ p ∈ parts.map (Url.encoded special),
      '/' ∉ p.toList := by
    intro parts
    refine List.forall_mem_map.mpr fun part _ => Url.notMem_encoded_of_mem ?_ (by decide)
    cases special <;> decide
  rw [Url.segmentsText_inj (hslash _) (hslash _)]
  exact (List.map_injective_iff.mpr (Url.encoded_injective special)).eq_iff

/-- Two branches have one address, as it is written on the wire, exactly when owner, repository and
the parts of the branch name are the same. -/
theorem branch_address_text_eq_iff {s : Settings} {c : Client} (hc : build s = .ok c)
    {r₁ r₂ : RepoName} {branch₁ branch₂ : String} (h₁ : Named r₁ branch₁)
    (h₂ : Named r₂ branch₂) :
    ∃ u₁ u₂, c.gitEndpoint r₁ ["refs", shortRef (branchRef branch₁)] = .ok u₁ ∧
      c.gitEndpoint r₂ ["refs", shortRef (branchRef branch₂)] = .ok u₂ ∧
      (u₁.target.text = u₂.target.text ↔ r₁ = r₂ ∧ nameParts branch₁ = nameParts branch₂) := by
  obtain ⟨-, parts, hpath⟩ := build_apiBase hc
  refine ⟨_, _, h₁.address hpath, h₂.address hpath, ?_⟩
  rw [← addressParts_eq_iff, ← addressText_eq_iff (Url.isSpecial c.apiBase.scheme)]
  simp only [Url.target, Url.withoutUserinfo, Url.text, pathText_address]
  simp only [← String.toList_inj, String.toList_append, List.append_assoc,
    List.append_cancel_left_eq, List.append_cancel_right_eq]

section

/-- A client without a token, on a host of its own. -/
def hub : Client where
  apiBase := ⟨"http", some { host := .domain "api.test" }, .segments [""], none, none⟩
  userAgent := defaultUserAgent

end

end Client
end HostedRepo
