import HostedRepo.Proofs.ByteOrder
import HostedRepo.Proofs.FileMapLookup
import HostedRepo.Remote.Repository
import Mathlib.Data.List.Nodup

/-!
# The entries of a new tree

A new tree is made from one entry for each file, in the order of the paths, and the entries of the
old tree at all other paths. So a path of a file has one entry, and any other path as many as it had.
-/

namespace HostedRepo

open Text

namespace Repository

section

variable (files : FileMap) (base : List TreeEntry)

/-- The entries of files. -/
def freshEntries : List NewEntry :=
  files.entries.map fun e => .blob e.1 (Utf8.decodeLossy e.2)

/-- The entries of an old tree that no file replaces. -/
def carriedEntries : List NewEntry :=
  (base.filter fun b => (files.get? b.path).isNone).map .existing

lemma treeEntries_eq : treeEntries files base = freshEntries files ++ carriedEntries files base := by
  have hkept : (fun b : TreeEntry => !files.contains b.path) =
      fun b => (files.get? b.path).isNone := by
    funext b
    rw [FileMap.contains_eq, Option.not_isSome]
  unfold treeEntries
  rw [hkept]
  rfl

lemma map_path_freshEntries : (freshEntries files).map (·.path) = files.paths := by
  simp [freshEntries, FileMap.paths, NewEntry.blob]

lemma freshEntries_lex : (freshEntries files).Pairwise fun a b =>
    List.Lex (· < ·) (Utf8.encode a.path) (Utf8.encode b.path) :=
  List.pairwise_map.mpr (files.sorted.imp Utf8.encode_lex)

lemma mem_freshEntries_iff {e : NewEntry} : e ∈ freshEntries files ↔
    ∃ content, files.get? e.path = some content ∧
      e = ⟨e.path, "100644", "blob", none, some (Utf8.decodeLossy content)⟩ := by
  unfold freshEntries
  rw [List.mem_map]
  constructor
  · rintro ⟨⟨path, content⟩, hmem, rfl⟩
    exact ⟨content, FileMap.mem_entries_iff.mp hmem, rfl⟩
  · rintro ⟨content, hget, he⟩
    exact ⟨(e.path, content), FileMap.mem_entries_iff.mpr hget, he.symm⟩

lemma map_path_carriedEntries : (carriedEntries files base).map (·.path) =
    (base.map (·.path)).filter fun path => (files.get? path).isNone := by
  rw [carriedEntries, List.map_map, List.filter_map]
  rfl

lemma forall_treeEntries_iff {P : NewEntry → Prop} : (∀ e ∈ treeEntries files base, P e) ↔
    (∀ path content, files.get? path = some content → P (.blob path (Utf8.decodeLossy content))) ∧
      ∀ b ∈ base, files.get? b.path = none → P (.existing b) := by
  rw [treeEntries_eq, List.forall_mem_append, freshEntries, List.forall_mem_map, carriedEntries,
    List.forall_mem_map]
  apply and_congr
  · constructor
    · intro h path content hget
      exact h _ (FileMap.mem_entries_iff.mpr hget)
    · rintro h ⟨path, content⟩ hmem
      exact h path content (FileMap.mem_entries_iff.mp hmem)
  · simp only [List.mem_filter, Option.isNone_iff_eq_none, and_imp]

lemma filter_treeEntries {files : FileMap} {base : List TreeEntry} {path : String}
    {content : Bytes} (h : files.get? path = some content) :
    (treeEntries files base).filter (·.path = path) = [.blob path (Utf8.decodeLossy content)] := by
  have hcarried : (carriedEntries files base).filter (·.path = path) = [] := by
    rw [List.filter_eq_nil_iff]
    intro e he heq
    obtain ⟨b, hb, rfl⟩ := List.mem_map.mp he
    have hpath : b.path = path := of_decide_eq_true heq
    have hnone := (List.mem_filter.mp hb).2
    rw [hpath, h] at hnone
    cases hnone
  rw [treeEntries_eq, List.filter_append, hcarried, List.append_nil, freshEntries, List.filter_map]
  change (files.entries.filter (·.1 = path)).map _ = _
  rw [FileMap.filter_entries h]
  rfl

lemma count_path_treeEntries (path : String) :
    ((treeEntries files base).map (·.path)).count path =
      if (files.get? path).isSome then 1 else (base.map (·.path)).count path := by
  rw [treeEntries_eq, List.map_append, List.count_append, map_path_freshEntries,
    map_path_carriedEntries]
  have hpaths : path ∈ files.paths ↔ (files.get? path).isSome = true := by
    rw [← FileMap.contains_iff, FileMap.contains, List.contains_iff_mem]
  split
  · next h =>
    rw [List.count_eq_one_of_mem files.nodup_paths (hpaths.mpr h), List.count_eq_zero_of_not_mem]
    intro hmem
    rw [List.mem_filter, Option.isNone_iff_eq_none] at hmem
    rw [hmem.2] at h
    cases h
  · next h =>
    rw [List.count_eq_zero_of_not_mem (mt hpaths.mp h), List.count_filter (by simpa using h),
      Nat.zero_add]

lemma nodup_treeEntries {base : List TreeEntry} (h : (base.map (·.path)).Nodup) :
    ((treeEntries files base).map (·.path)).Nodup := by
  rw [List.nodup_iff_count]
  intro path
  rw [count_path_treeEntries]
  split
  · exact Nat.le_refl 1
  · exact List.nodup_iff_count.mp h path

lemma length_treeEntries : (treeEntries files base).length +
    base.countP (fun b => (files.get? b.path).isSome) = files.size + base.length := by
  have hsplit := List.length_eq_countP_add_countP (fun b => (files.get? b.path).isSome) (l := base)
  have hkept : (base.filter fun b => (files.get? b.path).isNone).length =
      base.countP fun b => !(files.get? b.path).isSome := by
    rw [List.countP_eq_length_filter]
    simp
  rw [treeEntries_eq, List.length_append, freshEntries, carriedEntries, List.length_map,
    List.length_map, hkept, FileMap.size]
  simp only [Bool.not_eq_true, Bool.decide_eq_false] at hsplit
  omega

end

/-- The entries of a new tree are those of the files, with one entry for each path in the order of
the bytes, and then those of the old tree at other paths, in their order and unchanged. No entry is
lost and none stands twice. -/
theorem treeEntries_exact (files : FileMap) (base : List TreeEntry) :
    let entries := treeEntries files base
    ∃ fresh carried, entries = fresh ++ carried ∧
      fresh.Pairwise (fun a b => List.Lex (· < ·) (Utf8.encode a.path) (Utf8.encode b.path)) ∧
      (∀ e, e ∈ fresh ↔ ∃ content, files.get? e.path = some content ∧
        e = ⟨e.path, "100644", "blob", none, some (Utf8.decodeLossy content)⟩) ∧
      carried.map (fun e => (e.path, e.mode, e.kind, e.sha, e.content)) =
        (base.filter fun b => (files.get? b.path).isNone).map
          (fun b => (b.path, b.mode, b.kind, b.sha, none)) ∧
      (∀ path, (entries.map (·.path)).count path =
        if (files.get? path).isSome then 1 else (base.map (·.path)).count path) ∧
      ((base.map (·.path)).Nodup → (entries.map (·.path)).Nodup) ∧
      entries.length + base.countP (fun b => (files.get? b.path).isSome) =
        files.size + base.length := by
  refine ⟨freshEntries files, carriedEntries files base, treeEntries_eq files base,
    freshEntries_lex files, fun e => mem_freshEntries_iff files, ?_, count_path_treeEntries files base,
    nodup_treeEntries files, length_treeEntries files base⟩
  rw [carriedEntries, List.map_map]
  rfl

end Repository
end HostedRepo
