import HostedRepo.Proofs.FolderDeletions
import Mathlib.Order.BooleanAlgebra.Set

/-!
# A store of files

A store that keeps which files are on which branch. A deletion takes the file away, or says that it
is not there; on some files the store refuses deletions with another error. Deletions of folders
take away the placeholders in order up to the first refusal, so that they can be run again after it.
-/

namespace HostedRepo

/-- A file by its place. -/
structure StoredFile where
  target : RepoName
  branch : String
  path : String
  deriving DecidableEq

namespace FileStore

open Repository

/-- How a store answers deletions, and its files after it; `failing` are those that it refuses to
delete. -/
inductive Answers (failing files : Set StoredFile) : Answered → Set StoredFile → Prop
  | deleted {r : RepoName} {path message branch : String} {sha : Option String} :
    ⟨r, branch, path⟩ ∈ files → ⟨r, branch, path⟩ ∉ failing →
      Answers failing files ⟨.deleteFile r path ⟨message, sha, some branch⟩, .ok ()⟩
        (files \ {⟨r, branch, path⟩})
  | absent {r : RepoName} {path message branch : String} {sha : Option String} (what : String) :
    ⟨r, branch, path⟩ ∉ files → ⟨r, branch, path⟩ ∉ failing →
      Answers failing files
        ⟨.deleteFile r path ⟨message, sha, some branch⟩, .error (.notFound what)⟩ files
  | refused {r : RepoName} {path message branch : String} {sha : Option String} {e : RemoteError} :
    ⟨r, branch, path⟩ ∈ failing → (∀ what, e ≠ .notFound what) →
      Answers failing files ⟨.deleteFile r path ⟨message, sha, some branch⟩, .error e⟩ files

/-- One act of a plan on the files of a store. -/
def Takes (failing files : Set StoredFile) : Act → Set StoredFile → Prop
  | .answered x, left => Answers failing files x left
  | _, left => left = files

/-- A deletion of folders that ends with a result and leaves files. -/
def Deleted (failing : Set StoredFile) (r : RepoName) (folders : List String)
    (files : Set StoredFile) (x : Except RemoteError Unit) (left : Set StoredFile) : Prop :=
  ∃ h, (deleteDirs r folders).run.Yields h x ∧ Through (Takes failing) files h left

/-- The placeholder of a folder. -/
def keeper (r : RepoName) (folder : String) : StoredFile := ⟨r, "main", folder ++ "/.gitkeep"⟩

def keepers (r : RepoName) (folders : List String) : Set StoredFile :=
  {file | ∃ folder ∈ folders, file = keeper r folder}

section

variable {failing files left : Set StoredFile} {r : RepoName} {folder : String}
  {folders : List String} {h : History} {x : Except RemoteError Unit}

lemma keepers_cons : keepers r (folder :: folders) = {keeper r folder} ∪ keepers r folders := by
  ext file
  simp [keepers]

lemma keepers_mono {others : List String} (hsub : ∀ f ∈ others, f ∈ folders) :
    keepers r others ⊆ keepers r folders := by
  rintro file ⟨folder, hfolder, rfl⟩
  exact ⟨folder, hsub folder hfolder, rfl⟩

/-! ### One folder -/

lemma not_gone_iff {e : RemoteError} : ¬ Gone (.error e) ↔ ∀ what, e ≠ .notFound what := by
  simp [Gone]

/-- A folder is gone unless its placeholder is refused, and only the placeholder is. -/
lemma answers_removal {reply : Except RemoteError Unit}
    (ha : Answers failing files ⟨removal r folder, reply⟩ left) :
    (keeper r folder ∉ failing ∧ Gone reply ∧ left = files \ {keeper r folder}) ∨
      (keeper r folder ∈ failing ∧ ¬ Gone reply ∧ left = files) := by
  cases ha with
  | deleted _ hok => exact .inl ⟨hok, gone_ok, rfl⟩
  | absent what hnew hok =>
    exact .inl ⟨hok, .inr ⟨what, rfl⟩, (Set.sdiff_singleton_eq_self hnew).symm⟩
  | refused hfail he => exact .inr ⟨hfail, not_gone_iff.mpr he, rfl⟩

lemma exists_answers_removal (failing files : Set StoredFile) (r : RepoName) (folder : String) :
    (∃ reply, Gone reply ∧
      Answers failing files ⟨removal r folder, reply⟩ (files \ {keeper r folder})) ∨
    ∃ e, ¬ Gone (.error e) ∧ Answers failing files ⟨removal r folder, .error e⟩ files := by
  by_cases hfail : keeper r folder ∈ failing
  · have he : ∀ what, RemoteError.unexpected "" ≠ .notFound what := fun _ => nofun
    exact .inr ⟨_, not_gone_iff.mpr he, .refused hfail he⟩
  by_cases hold : keeper r folder ∈ files
  · exact .inl ⟨.ok (), gone_ok, .deleted hold hfail⟩
  · refine .inl ⟨.error (.notFound ""), .inr ⟨"", rfl⟩, ?_⟩
    rw [Set.sdiff_singleton_eq_self hold]
    exact .absent "" hold hfail

/-! ### All folders -/

/-- The placeholders go one after the other, up to the first that is refused. -/
theorem removes_through (hd : Removes r folders h x) (ht : Through (Takes failing) files h left) :
    ((∀ f ∈ folders, keeper r f ∉ failing) ∧ x = .ok () ∧ left = files \ keepers r folders) ∨
      ∃ before folder after e, folders = before ++ folder :: after ∧
        (∀ f ∈ before, keeper r f ∉ failing) ∧ keeper r folder ∈ failing ∧
        x = .error e ∧ ¬ Gone (.error e) ∧ left = files \ keepers r before := by
  induction hd generalizing files with
  | nil =>
    obtain rfl := through_nil_iff.mp ht
    exact .inl ⟨nofun, rfl, by simp [keepers]⟩
  | @stop folder folders e he =>
    obtain ⟨left', hs, ht⟩ := through_cons_iff.mp ht
    obtain rfl := through_nil_iff.mp ht
    obtain ⟨-, hgone, -⟩ | ⟨hfail, -, rfl⟩ := answers_removal hs
    · exact absurd hgone he
    · exact .inr ⟨[], folder, folders, e, rfl, nofun, hfail, rfl, he, by simp [keepers]⟩
  | @pass folder folders reply x h hreply _ ih =>
    obtain ⟨next, hs, hnext⟩ := through_cons_iff.mp ht
    obtain ⟨_, rfl, hrest⟩ := through_cons_iff.mp hnext
    obtain ⟨hok, -, rfl⟩ | ⟨-, hfailed, -⟩ := answers_removal hs
    · have hdiff (l : List String) :
          (files \ {keeper r folder}) \ keepers r l = files \ keepers r (folder :: l) := by
        rw [Set.sdiff_sdiff, keepers_cons]
      obtain ⟨hall, hx, rfl⟩ | ⟨before, f, after, e, rfl, hall, hfail, hx, he, rfl⟩ := ih hrest
      · exact .inl ⟨List.forall_mem_cons.mpr ⟨hok, hall⟩, hx, hdiff _⟩
      · exact .inr ⟨folder :: before, f, after, e, rfl, List.forall_mem_cons.mpr ⟨hok, hall⟩,
          hfail, hx, he, hdiff _⟩
    · exact absurd hreply hfailed

lemma exists_removes (failing files : Set StoredFile) (r : RepoName) (folders : List String) :
    ∃ h x left, Removes r folders h x ∧ Through (Takes failing) files h left := by
  induction folders generalizing files with
  | nil => exact ⟨[], _, files, .nil, .nil _⟩
  | cons folder folders ih =>
    obtain ⟨reply, hreply, ha⟩ | ⟨e, he, ha⟩ := exists_answers_removal failing files r folder
    · obtain ⟨h, x, left, hd, ht⟩ := ih (files \ {keeper r folder})
      exact ⟨_, x, left, .pass hreply hd, .cons ha (.cons rfl ht)⟩
    · exact ⟨_, _, files, .stop he, .cons ha (.nil _)⟩

lemma exists_deleted (failing files : Set StoredFile) (r : RepoName)
    (hnamed : ∀ f ∈ folders, trimmed f ≠ []) :
    ∃ x left, Deleted failing r folders files x left := by
  obtain ⟨h, x, left, hd, ht⟩ := exists_removes failing files r folders
  exact ⟨x, left, h, (deleteDirs_yields_iff hnamed).mpr hd, ht⟩

lemma Deleted.through (hnamed : ∀ f ∈ folders, trimmed f ≠ [])
    (hd : Deleted failing r folders files x left) :
    ((∀ f ∈ folders, keeper r f ∉ failing) ∧ x = .ok () ∧ left = files \ keepers r folders) ∨
      ∃ before folder after e, folders = before ++ folder :: after ∧
        (∀ f ∈ before, keeper r f ∉ failing) ∧ keeper r folder ∈ failing ∧
        x = .error e ∧ ¬ Gone (.error e) ∧ left = files \ keepers r before := by
  obtain ⟨h, hy, ht⟩ := hd
  exact removes_through ((deleteDirs_yields_iff hnamed).mp hy) ht

lemma Deleted.all (hd : Deleted failing r folders files x left)
    (hnamed : ∀ f ∈ folders, trimmed f ≠ []) (hok : ∀ f ∈ folders, keeper r f ∉ failing) :
    x = .ok () ∧ left = files \ keepers r folders := by
  obtain ⟨-, hx, hleft⟩ | ⟨before, folder, after, e, rfl, -, hfail, -⟩ := hd.through hnamed
  · exact ⟨hx, hleft⟩
  · exact absurd hfail (hok folder (by simp))

lemma Deleted.some (hd : Deleted failing r folders files x left)
    (hnamed : ∀ f ∈ folders, trimmed f ≠ []) :
    ∃ before, (∀ f ∈ before, f ∈ folders) ∧ left = files \ keepers r before := by
  obtain ⟨-, -, hleft⟩ | ⟨before, folder, after, e, rfl, -, -, -, -, hleft⟩ := hd.through hnamed
  · exact ⟨folders, fun _ hf => hf, hleft⟩
  · exact ⟨before, fun f hf => List.mem_append_left _ hf, hleft⟩

end

/-- What deletions of folders do to the files of a store. -/
structure DeletionsResume (r : RepoName) (folders : List String)
    (failing files : Set StoredFile) : Prop where
  runs : ∃ x left, Deleted failing r folders files x left
  /-- Without a refusal the placeholders are gone, and no other file is. -/
  deletes : (∀ f ∈ folders, keeper r f ∉ failing) → ∀ x left,
    Deleted failing r folders files x left → x = .ok () ∧ left = files \ keepers r folders
  /-- Neither the order of the folders nor their repetition makes a difference. -/
  unordered : (∀ f ∈ folders, keeper r f ∉ failing) → ∀ others, (∀ f, f ∈ others ↔ f ∈ folders) →
    ∀ x y left right, Deleted failing r folders files x left →
      Deleted failing r others files y right → y = x ∧ right = left
  again : (∀ f ∈ folders, keeper r f ∉ failing) → ∀ x y left right,
    Deleted failing r folders files x left → Deleted failing r folders left y right →
      y = .ok () ∧ right = left
  /-- The placeholders before the first that is refused are gone, and no other file is. -/
  stops : (∃ f ∈ folders, keeper r f ∈ failing) → ∀ x left,
    Deleted failing r folders files x left →
      ∃ before folder after e, folders = before ++ folder :: after ∧
        (∀ f ∈ before, keeper r f ∉ failing) ∧ keeper r folder ∈ failing ∧
        x = .error e ∧ (∀ what, e ≠ .notFound what) ∧ left = files \ keepers r before
  /-- After the refusals have been lifted, the files are those of an undisturbed deletion. -/
  resumes : ∀ lifted, (∀ f ∈ folders, keeper r f ∉ lifted) → ∀ x y z left right undisturbed,
    Deleted failing r folders files x left → Deleted lifted r folders left y right →
      Deleted lifted r folders files z undisturbed → y = .ok () ∧ right = undisturbed

/-- For every list of folders with names, a deletion takes away exactly the placeholders before the
first that is refused, and can be run again. -/
theorem deletions_resume (r : RepoName) (folders : List String)
    (hnamed : ∀ f ∈ folders, trimmed f ≠ []) (failing files : Set StoredFile) :
    DeletionsResume r folders failing files where
  runs := exists_deleted failing files r hnamed
  deletes hok x left hd := hd.all hnamed hok
  unordered := by
    intro hok others hsame x y left right hd hd'
    obtain ⟨rfl, rfl⟩ := hd.all hnamed hok
    obtain ⟨rfl, rfl⟩ := hd'.all (fun f hf => hnamed f ((hsame f).mp hf))
      fun f hf => hok f ((hsame f).mp hf)
    have hsub : keepers r others ⊆ keepers r folders := keepers_mono fun f hf => (hsame f).mp hf
    have hkeepers := hsub.antisymm (keepers_mono fun f hf => (hsame f).mpr hf)
    exact ⟨rfl, by rw [hkeepers]⟩
  again := by
    intro hok x y left right hd hd'
    obtain ⟨-, rfl⟩ := hd.all hnamed hok
    obtain ⟨rfl, rfl⟩ := hd'.all hnamed hok
    exact ⟨rfl, by rw [Set.sdiff_sdiff, Set.union_self]⟩
  stops := by
    rintro ⟨f, hf, hfail⟩ x left hd
    obtain ⟨hok, -⟩ | ⟨before, folder, after, e, hsplit, hbefore, hfolder, hx, he, hleft⟩ :=
      hd.through hnamed
    · exact absurd hfail (hok f hf)
    · exact ⟨before, folder, after, e, hsplit, hbefore, hfolder, hx, not_gone_iff.mp he, hleft⟩
  resumes := by
    intro lifted hok x y z left right undisturbed hd hd' hd''
    obtain ⟨before, hsub, rfl⟩ := hd.some hnamed
    obtain ⟨rfl, rfl⟩ := hd'.all hnamed hok
    obtain ⟨-, rfl⟩ := hd''.all hnamed hok
    exact ⟨rfl, by rw [Set.sdiff_sdiff, Set.union_eq_right.mpr (keepers_mono hsub)]⟩

/-- The second folder is refused at first; then everything but the file beside its placeholder is
deleted. -/
theorem deletions_resume_refused :
    let r : RepoName := ⟨"o", "r"⟩
    let folders := ["a", "b", "a"]
    let files : Set StoredFile := {keeper r "a", keeper r "b", ⟨r, "main", "b/x"⟩}
    (∀ f ∈ folders, trimmed f ≠ []) ∧
    ∃ e left, Deleted {keeper r "b"} r folders files (.error e) left ∧
      left = files \ {keeper r "a"} ∧
      Deleted ∅ r folders left (.ok ()) {⟨r, "main", "b/x"⟩} ∧
      Deleted ∅ r folders files (.ok ()) {⟨r, "main", "b/x"⟩} := by
  intro r folders files
  have hnamed : ∀ f ∈ folders, trimmed f ≠ [] := by decide +kernel
  have hclear : ∀ f ∈ folders, keeper r f ∉ (∅ : Set StoredFile) := fun _ _ => nofun
  have hrest : files \ keepers r folders = {⟨r, "main", "b/x"⟩} := by
    ext file
    simp [files, folders, keepers, keeper]
    grind
  refine ⟨hnamed, ?_⟩
  have hfailing := deletions_resume r folders hnamed {keeper r "b"} files
  obtain ⟨x, left, hd⟩ := hfailing.runs
  obtain ⟨before, folder, after, e, hsplit, hbefore, hfail, rfl, -, hleft⟩ :=
    hfailing.stops ⟨"b", by simp [folders], rfl⟩ x left hd
  have hbefore : before = ["a"] := by
    change ["a", "b", "a"] = before ++ folder :: after at hsplit
    rcases before with _ | ⟨f, _ | ⟨g, before⟩⟩
    · cases hsplit
      exact absurd hfail (by decide +kernel)
    · cases hsplit
      rfl
    · obtain ⟨-, rfl, -⟩ : "a" = f ∧ "b" = g ∧ ["a"] = before ++ folder :: after := by
        simpa using hsplit
      exact absurd rfl (hbefore "b" (by simp))
  have hall := deletions_resume r folders hnamed ∅ files
  obtain ⟨y, right, hr⟩ := (deletions_resume r folders hnamed ∅ left).runs
  obtain ⟨z, undisturbed, hu⟩ := hall.runs
  obtain ⟨rfl, hsame⟩ := hfailing.resumes ∅ hclear _ _ _ _ _ _ hd hr hu
  obtain ⟨rfl, hundisturbed⟩ := hall.deletes hclear _ _ hu
  rw [hrest] at hundisturbed
  refine ⟨e, left, hd, ?_, hundisturbed ▸ hsame ▸ hr, hundisturbed ▸ hu⟩
  rw [hleft, hbefore]
  simp [keepers]

end FileStore
end HostedRepo
