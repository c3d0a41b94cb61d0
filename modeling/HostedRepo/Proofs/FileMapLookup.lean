import HostedRepo.Remote.FileMap
import Mathlib.Data.List.Nodup
import Mathlib.Tactic.Common

/-!
# Lookup in file maps

What `FileMap.get?` finds after an insertion, and in a map that overrides another one.
-/

namespace HostedRepo.FileMap

lemma find?_put (path q : String) (content : Bytes) (es : List (String × Bytes)) :
    (put path content es).find? (·.1 = q) =
      if q = path then some (path, content) else es.find? (·.1 = q) := by
  induction es with
  | nil =>
    by_cases hq : q = path
    · simp [put, hq]
    · simp [put, hq, Ne.symm hq]
  | cons e es ih =>
    obtain ⟨p, c⟩ := e
    rw [put]
    split
    · by_cases hq : q = path
      · simp [hq]
      · simp [hq, Ne.symm hq]
    · split
      · next heq =>
        subst heq
        by_cases hq : q = path
        · simp [hq]
        · simp [hq, Ne.symm hq]
      · next hne =>
        rw [List.find?_cons, ih, List.find?_cons]
        by_cases hq : q = path
        · subst hq
          simp [Ne.symm hne]
        · simp [hq]

lemma get?_insert (m : FileMap) (path q : String) (content : Bytes) :
    (m.insert path content).get? q = if q = path then some content else m.get? q := by
  unfold get? insert
  rw [find?_put]
  split <;> rfl

lemma find?_eq_none_of_lt {es : List (String × Bytes)} {path : String}
    (h : ∀ e ∈ es, path < e.1) : es.find? (·.1 = path) = none := by
  rw [List.find?_eq_none]
  intro e he heq
  have hlt := h e he
  rw [of_decide_eq_true heq] at hlt
  exact String.lt_irrefl path hlt

lemma mem_of_get?_eq_some {m : FileMap} {path : String} {content : Bytes}
    (h : m.get? path = some content) : (path, content) ∈ m.entries := by
  obtain ⟨⟨p, c⟩, he, rfl⟩ := Option.map_eq_some_iff.mp h
  obtain rfl : p = path := by simpa using List.find?_some he
  exact List.mem_of_find?_eq_some he

lemma contains_iff {m : FileMap} {path : String} :
    m.contains path = true ↔ (m.get? path).isSome = true := by
  simp [contains, paths, get?]

lemma contains_of_mem {m : FileMap} {e : String × Bytes} (he : e ∈ m.entries) :
    m.contains e.1 = true := by
  simpa [contains, paths] using ⟨e.2, he⟩

lemma nodup_paths (m : FileMap) : m.paths.Nodup := by
  unfold paths
  rw [List.Nodup, List.pairwise_map]
  apply m.sorted.imp
  intro a b hlt heq
  rw [heq] at hlt
  exact String.lt_irrefl _ hlt

lemma contains_eq (m : FileMap) (path : String) : m.contains path = (m.get? path).isSome := by
  rw [Bool.eq_iff_iff, contains_iff]

lemma filter_entries {m : FileMap} {path : String} {content : Bytes}
    (h : m.get? path = some content) :
    m.entries.filter (·.1 = path) = [(path, content)] := by
  obtain ⟨entries, hsorted⟩ := m
  have hmem := mem_of_get?_eq_some h
  clear h
  dsimp only at hmem ⊢
  induction entries with
  | nil => cases hmem
  | cons e rest ih =>
    obtain ⟨hlt, hrest⟩ := List.pairwise_cons.mp hsorted
    rcases List.mem_cons.mp hmem with rfl | hmem
    · have hnone : rest.filter (·.1 = path) = [] := by
        rw [List.filter_eq_nil_iff]
        intro d hd heq
        have hlt' := hlt d hd
        rw [of_decide_eq_true heq] at hlt'
        exact String.lt_irrefl path hlt'
      rw [List.filter_cons, if_pos (by simp), hnone]
    · have hne : e.1 ≠ path := by
        intro heq
        have hlt' := hlt _ hmem
        rw [heq] at hlt'
        exact String.lt_irrefl path hlt'
      rw [List.filter_cons, if_neg (by simpa using hne)]
      exact ih hrest hmem

lemma mem_entries_iff {m : FileMap} {path : String} {content : Bytes} :
    (path, content) ∈ m.entries ↔ m.get? path = some content := by
  refine ⟨fun h => ?_, mem_of_get?_eq_some⟩
  have hsome := contains_of_mem h
  rw [contains_eq, Option.isSome_iff_exists] at hsome
  obtain ⟨found, hfound⟩ := hsome
  have hmem : (path, content) ∈ m.entries.filter (·.1 = path) :=
    List.mem_filter.mpr ⟨h, decide_eq_true rfl⟩
  rw [filter_entries hfound, List.mem_singleton] at hmem
  rw [hfound, (Prod.mk.inj hmem).2]

lemma ext_get? {m n : FileMap} (h : ∀ path, m.get? path = n.get? path) : m = n := by
  have hnodup (m : FileMap) : m.entries.Nodup := List.Nodup.of_map _ m.nodup_paths
  have hperm : m.entries.Perm n.entries := by
    apply (List.perm_ext_iff_of_nodup (hnodup m) (hnodup n)).mpr
    rintro ⟨path, content⟩
    rw [mem_entries_iff, mem_entries_iff, h]
  have hentries : m.entries = n.entries := by
    apply hperm.eq_of_pairwise _ m.sorted n.sorted
    intro a b _ _ hab hba
    exact absurd (String.lt_trans hab hba) (String.lt_irrefl _)
  obtain ⟨entries, _⟩ := m
  obtain ⟨entries', _⟩ := n
  cases hentries
  rfl

/-- The map with the files of another one put in. -/
def override (m n : FileMap) : FileMap :=
  n.entries.foldl (fun m e => m.insert e.1 e.2) m

lemma get?_foldl_insert (m : FileMap) {es : List (String × Bytes)}
    (hs : es.Pairwise fun a b => a.1 < b.1) (path : String) :
    (es.foldl (fun m e => m.insert e.1 e.2) m).get? path =
      ((es.find? (·.1 = path)).map (·.2)).or (m.get? path) := by
  induction es generalizing m with
  | nil => rfl
  | cons e es ih =>
    obtain ⟨p, c⟩ := e
    obtain ⟨hlt, hs⟩ := List.pairwise_cons.mp hs
    rw [List.foldl_cons, ih _ hs, get?_insert, List.find?_cons]
    by_cases hp : path = p
    · subst hp
      rw [find?_eq_none_of_lt hlt]
      simp
    · simp [hp, Ne.symm hp]

lemma get?_override (m n : FileMap) (path : String) :
    (m.override n).get? path = (n.get? path).or (m.get? path) :=
  get?_foldl_insert m n.sorted path

end HostedRepo.FileMap
