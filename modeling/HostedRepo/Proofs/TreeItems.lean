import HostedRepo.Proofs.SharedStore
import HostedRepo.Proofs.TreeEntries

/-!
# The items of a tree

What a tree has at its paths, and how entries that are put in change it. The entries of a push are
at different paths, so their order makes no difference: they override the tree by the files.
-/

namespace HostedRepo

/-- What a tree has at a path. -/
structure TreeItem where
  mode : String
  kind : String
  sha : String
  deriving DecidableEq

abbrev TreeItems := Table String TreeItem

namespace TreeItems

/-- What an entry puts at its path; a content goes by its hash. -/
def itemOf? (hash : String → String) (e : NewEntry) : Option TreeItem :=
  match e.content, e.sha with
  | some content, _ => some ⟨e.mode, e.kind, hash content⟩
  | none, some sha => some ⟨e.mode, e.kind, sha⟩
  | none, none => none

def put (hash : String → String) (m : TreeItems) (e : NewEntry) : TreeItems :=
  match itemOf? hash e with
  | some i => m.insert e.path i
  | none => m

/-- The items after entries in their order. -/
def layer (hash : String → String) (m : TreeItems) (es : List NewEntry) : TreeItems :=
  es.foldl (put hash) m

/-- The entries that a tree is described with: all of its items, each once. -/
structure Lists (m : TreeItems) (es : List TreeEntry) : Prop where
  once : (es.map (·.path)).Nodup
  sound : ∀ e ∈ es, ∃ i, m.lookup e.path = some i ∧ e.mode = i.mode ∧ e.kind = i.kind ∧
    e.sha = some i.sha
  complete : ∀ path ∈ m, ∃ e ∈ es, e.path = path

/-- Items that are those of files where there is one, and elsewhere those of another tree. -/
def Overrides (hash : String → String) (files : FileMap) (m n : TreeItems) : Prop :=
  ∀ path, n.lookup path = match files.get? path with
    | some content =>
      some ⟨NewEntry.regularMode, "blob", hash (Text.Utf8.decodeLossy content)⟩
    | none => m.lookup path

variable {hash : String → String}

lemma lookup_put_self (m : TreeItems) (e : NewEntry) :
    (put hash m e).lookup e.path = (itemOf? hash e).or (m.lookup e.path) := by
  unfold put
  split
  · next i hi =>
    rw [hi]
    exact Finmap.lookup_insert _
  · next hi =>
    rw [hi]
    rfl

lemma lookup_put_of_ne (m : TreeItems) {e : NewEntry} {path : String} (h : path ≠ e.path) :
    (put hash m e).lookup path = m.lookup path := by
  unfold put
  split
  · exact Finmap.lookup_insert_of_ne _ h
  · rfl

lemma lookup_layer_of_notMem (m : TreeItems) {es : List NewEntry} {path : String}
    (h : path ∉ es.map (·.path)) : (layer hash m es).lookup path = m.lookup path := by
  induction es generalizing m with
  | nil => rfl
  | cons e es ih =>
    rw [List.map_cons, List.mem_cons, not_or] at h
    change (layer hash (put hash m e) es).lookup path = _
    rw [ih _ h.2, lookup_put_of_ne m h.1]

lemma lookup_layer_of_mem (m : TreeItems) {es : List NewEntry} {e : NewEntry}
    (hn : (es.map (·.path)).Nodup) (he : e ∈ es) :
    (layer hash m es).lookup e.path = (itemOf? hash e).or (m.lookup e.path) := by
  induction es generalizing m with
  | nil => cases he
  | cons d es ih =>
    rw [List.map_cons, List.nodup_cons] at hn
    change (layer hash (put hash m d) es).lookup e.path = _
    rcases List.mem_cons.mp he with rfl | he
    · rw [lookup_layer_of_notMem _ hn.1, lookup_put_self]
    · have hne : e.path ≠ d.path := by
        intro h
        exact hn.1 (h ▸ List.mem_map_of_mem he)
      rw [ih _ hn.2 he, lookup_put_of_ne m hne]

/-- Entries at different paths give the same items in any order. -/
lemma layer_perm (m : TreeItems) {es fs : List NewEntry} (hn : (es.map (·.path)).Nodup)
    (hp : fs.Perm es) : layer hash m fs = layer hash m es := by
  have hnf : (fs.map (·.path)).Nodup := (hp.map _).nodup_iff.mpr hn
  apply Finmap.ext_lookup
  intro path
  by_cases h : path ∈ es.map (·.path)
  · obtain ⟨e, he, rfl⟩ := List.mem_map.mp h
    rw [lookup_layer_of_mem m hn he, lookup_layer_of_mem m hnf (hp.mem_iff.mpr he)]
  · rw [lookup_layer_of_notMem m h, lookup_layer_of_notMem m (by rwa [(hp.map _).mem_iff])]

/-! ### The entries of a push -/

open Repository

lemma itemOf?_existing {m : TreeItems} {base : List TreeEntry} (hb : Lists m base) {e : TreeEntry}
    (he : e ∈ base) : itemOf? hash (.existing e) = m.lookup e.path := by
  obtain ⟨i, hi, hmode, hkind, hsha⟩ := hb.sound e he
  simp only [itemOf?, NewEntry.existing, hsha, hmode, hkind, hi]

/-- The entries of a push override the tree that they were made from. -/
theorem overrides_layer {files : FileMap} {m : TreeItems} {base : List TreeEntry}
    {order : List NewEntry} (hb : Lists m base) (ho : order.Perm (treeEntries files base)) :
    Overrides hash files m (layer hash m order) := by
  have hn := nodup_treeEntries files hb.once
  intro path
  rw [layer_perm m hn ho]
  cases hf : files.get? path with
  | some content =>
    have he : NewEntry.blob path (Text.Utf8.decodeLossy content) ∈ treeEntries files base :=
      List.mem_append_left _ (List.mem_map.mpr ⟨_, FileMap.mem_of_get?_eq_some hf, rfl⟩)
    exact lookup_layer_of_mem m hn he
  | none =>
    by_cases hp : path ∈ (treeEntries files base).map (·.path)
    · obtain ⟨e, he, rfl⟩ := List.mem_map.mp hp
      rw [lookup_layer_of_mem m hn he]
      rcases List.mem_append.mp he with he | he
      · obtain ⟨d, hd, rfl⟩ := List.mem_map.mp he
        have hsome := FileMap.contains_iff.mp (FileMap.contains_of_mem hd)
        rw [show d.1 = (NewEntry.blob d.1 (Text.Utf8.decodeLossy d.2)).path from rfl, hf] at hsome
        cases hsome
      · obtain ⟨b, hmem, rfl⟩ := List.mem_map.mp he
        rw [itemOf?_existing hb (List.mem_filter.mp hmem).1]
        exact Option.or_self
    · exact lookup_layer_of_notMem m hp

lemma exists_lists (m : TreeItems) : ∃ es, Lists m es := by
  induction m using Finmap.induction_on with
  | H a =>
    refine ⟨a.entries.map fun e => ⟨e.1, e.2.mode, e.2.kind, some e.2.sha, none⟩, ?_, ?_, ?_⟩
    · rw [List.map_map]
      exact a.keys_nodup
    · intro e he
      obtain ⟨d, hd, rfl⟩ := List.mem_map.mp he
      rw [Finmap.lookup_toFinmap]
      exact ⟨d.2, AList.mem_lookup_iff.mpr hd, rfl, rfl, rfl⟩
    · intro path hp
      obtain ⟨d, hd, rfl⟩ := List.mem_map.mp (AList.mem_keys.mp hp)
      exact ⟨_, List.mem_map_of_mem hd, rfl⟩

lemma Overrides.unique {files : FileMap} {m n k : TreeItems} (hn : Overrides hash files m n)
    (hk : Overrides hash files m k) : n = k :=
  Finmap.ext_lookup fun path => (hn path).trans (hk path).symm

lemma Overrides.trans {f g : FileMap} {m n k : TreeItems} (hn : Overrides hash f m n)
    (hk : Overrides hash g n k) : Overrides hash (f.override g) m k := by
  intro path
  rw [hk path, hn path, FileMap.get?_override]
  cases g.get? path <;> rfl

lemma Overrides.twice {f : FileMap} {m n k : TreeItems} (hn : Overrides hash f m n)
    (hk : Overrides hash f n k) : Overrides hash f m k := by
  intro path
  rw [hk path, hn path]
  cases f.get? path <;> rfl

end TreeItems

end HostedRepo
