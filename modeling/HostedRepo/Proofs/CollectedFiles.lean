import HostedRepo.Proofs.CommandTasks
import HostedRepo.Proofs.FileMapLookup
import Mathlib.Data.List.Induction

/-!
# The files of mappings

Files are collected exactly when every local file can be read and no path is given twice, and then
each path has the bytes of its own local file, in whatever order the mappings stand. Otherwise the
first mapping that cannot be taken is to blame.
-/

namespace HostedRepo.Mapping

/-- Every local file can be read, and no path is given twice. -/
structure Collectable (d : Files.Disk) (mappings : List Mapping) : Prop where
  readable : ∀ m ∈ mappings, ∃ content, d.read m.source = .ok content
  distinct : (mappings.map (·.remote)).Nodup

/-- The files bind the paths of mappings, each to the bytes of its local file, and no others. -/
def Binds (d : Files.Disk) (mappings : List Mapping) (files : FileMap) : Prop :=
  ∀ path content, files.get? path = some content ↔
    ∃ m ∈ mappings, m.remote = path ∧ d.read m.source = .ok content

/-- Why a mapping cannot be taken behind others. A file that cannot be read comes before a path that
is there already. -/
inductive Offends (d : Files.Disk) (before : List Mapping) (m : Mapping) : Failure → Prop
  | unreadable {f : Files.Fault} (h : d.read m.source = .error f) :
    Offends d before m (.during (.read m.source) (.file f))
  | repeated {content : Bytes} (hread : d.read m.source = .ok content)
    (h : m.remote ∈ before.map (·.remote)) : Offends d before m (.repeatedPath m.remote)

section

variable {d : Files.Disk} {mappings before after : List Mapping} {files : FileMap} {m : Mapping}
  {f : Failure}

/-! ### One mapping -/

lemma collect_append (d : Files.Disk) (before after : List Mapping) :
    collect d (before ++ after) = collect d before >>= fun files => after.foldlM (add d) files := by
  rw [collect_eq, List.foldlM_append, collect_eq]

lemma collect_concat (hfiles : collect d before = .ok files) (m : Mapping) :
    collect d (before ++ [m]) = add d files m := by
  rw [collect_append, hfiles]
  change [m].foldlM (add d) files = _
  rw [List.foldlM_cons]
  cases add d files m <;> rfl

lemma Binds.contains_iff (h : Binds d before files) (hbefore : Collectable d before)
    {path : String} : files.contains path = true ↔ path ∈ before.map (·.remote) := by
  rw [FileMap.contains_iff, Option.isSome_iff_exists, List.mem_map]
  constructor
  · rintro ⟨content, hget⟩
    obtain ⟨m, hm, hremote, -⟩ := (h path content).mp hget
    exact ⟨m, hm, hremote⟩
  · rintro ⟨m, hm, hremote⟩
    obtain ⟨content, hread⟩ := hbefore.readable m hm
    exact ⟨content, (h path content).mpr ⟨m, hm, hremote, hread⟩⟩

lemma Binds.insert {content : Bytes} (h : Binds d before files)
    (hfresh : m.remote ∉ before.map (·.remote)) (hread : d.read m.source = .ok content) :
    Binds d (before ++ [m]) (files.insert m.remote content) := by
  intro path found
  rw [FileMap.get?_insert]
  by_cases hpath : path = m.remote
  · subst hpath
    rw [if_pos rfl]
    constructor
    · intro hfound
      cases hfound
      exact ⟨m, by simp, rfl, hread⟩
    · rintro ⟨m', hm', hremote, hread'⟩
      obtain hm' | hm' := List.mem_append.mp hm'
      · exact absurd (List.mem_map.mpr ⟨m', hm', hremote⟩) hfresh
      · rw [List.mem_singleton.mp hm'] at hread'
        rw [Except.ok.inj (hread.symm.trans hread')]
  · rw [if_neg hpath, h path found]
    constructor
    · rintro ⟨m', hm', hrest⟩
      exact ⟨m', List.mem_append_left _ hm', hrest⟩
    · rintro ⟨m', hm', hremote, hread'⟩
      obtain hm' | hm' := List.mem_append.mp hm'
      · exact ⟨m', hm', hremote, hread'⟩
      · rw [List.mem_singleton.mp hm'] at hremote
        exact absurd hremote.symm hpath

lemma Collectable.concat {content : Bytes} (h : Collectable d before)
    (hfresh : m.remote ∉ before.map (·.remote)) (hread : d.read m.source = .ok content) :
    Collectable d (before ++ [m]) where
  readable m' hm' := by
    obtain hm' | hm' := List.mem_append.mp hm'
    · exact h.readable m' hm'
    · rw [List.mem_singleton.mp hm']
      exact ⟨content, hread⟩
  distinct := by
    rw [List.map_append, List.map_singleton, List.nodup_append]
    refine ⟨h.distinct, List.nodup_singleton _, ?_⟩
    intro path hpath other hother heq
    rw [List.mem_singleton.mp hother] at heq
    exact hfresh (heq ▸ hpath)

lemma collect_concat_cases (hbefore : Collectable d before) (hfiles : collect d before = .ok files)
    (hbinds : Binds d before files) (m : Mapping) :
    (∃ f, Offends d before m f ∧ collect d (before ++ [m]) = .error f) ∨
      ∃ files', Collectable d (before ++ [m]) ∧ Binds d (before ++ [m]) files' ∧
        collect d (before ++ [m]) = .ok files' := by
  rw [collect_concat hfiles]
  obtain ⟨fault, hread, hadd⟩ | ⟨content, hread, hadd⟩ := add_cases d files m
  · exact .inl ⟨_, .unreadable hread, hadd⟩
  · rw [hadd]
    by_cases hmem : m.remote ∈ before.map (·.remote)
    · refine .inl ⟨_, .repeated hread hmem, ?_⟩
      rw [if_pos ((hbinds.contains_iff hbefore).mpr hmem)]
    · refine .inr ⟨_, hbefore.concat hmem hread, hbinds.insert hmem hread, ?_⟩
      rw [if_neg fun h => hmem ((hbinds.contains_iff hbefore).mp h)]

/-! ### All mappings -/

/-- The files are collected, or one mapping is the first to offend. -/
lemma collect_cases (d : Files.Disk) (mappings : List Mapping) :
    (∃ files, Collectable d mappings ∧ Binds d mappings files ∧ collect d mappings = .ok files) ∨
      ∃ before m after f, mappings = before ++ m :: after ∧ Collectable d before ∧
        Offends d before m f ∧ collect d mappings = .error f := by
  induction mappings using List.reverseRecOn with
  | nil =>
    refine .inl ⟨FileMap.empty, ⟨by simp, List.nodup_nil⟩, ?_, rfl⟩
    intro path content
    simp [FileMap.get?, FileMap.empty]
  | append_singleton before m ih =>
    obtain ⟨files, hbefore, hbinds, hfiles⟩ |
      ⟨start, first, rest, f, rfl, hstart, hfirst, hfail⟩ := ih
    · obtain ⟨f, hoffends, hfail⟩ | ⟨files', hall, hbinds', hfiles'⟩ :=
        collect_concat_cases hbefore hfiles hbinds m
      · exact .inr ⟨before, m, [], f, rfl, hbefore, hoffends, hfail⟩
      · exact .inl ⟨files', hall, hbinds', hfiles'⟩
    · refine .inr ⟨start, first, rest ++ [m], f, by simp, hstart, hfirst, ?_⟩
      rw [collect_append, hfail]
      rfl

lemma Offends.not_collectable (h : Offends d before m f) :
    ¬Collectable d (before ++ m :: after) := by
  intro hall
  cases h with
  | unreadable hread =>
    obtain ⟨content, hcontent⟩ := hall.readable m (by simp)
    cases hread.symm.trans hcontent
  | repeated hread hmem =>
    have hdistinct := hall.distinct
    rw [List.map_append, List.map_cons, List.nodup_append] at hdistinct
    exact hdistinct.2.2 m.remote hmem m.remote List.mem_cons_self rfl

lemma Offends.unique {f' : Failure} (h : Offends d before m f) (h' : Offends d before m f') :
    f = f' := by
  cases h with
  | unreadable hread =>
    cases h' with
    | unreadable hread' => rw [Except.error.inj (hread.symm.trans hread')]
    | repeated hread' _ => cases hread.symm.trans hread'
  | repeated hread _ =>
    cases h' with
    | unreadable hread' => cases hread.symm.trans hread'
    | repeated _ _ => rfl

lemma collect_of_collectable (h : Collectable d mappings) :
    ∃ files, Binds d mappings files ∧ collect d mappings = .ok files := by
  obtain ⟨files, -, hfiles⟩ | ⟨before, m, after, f, rfl, -, hoffends, -⟩ := collect_cases d mappings
  · exact ⟨files, hfiles⟩
  · exact absurd h hoffends.not_collectable

lemma collect_eq_ok (h : collect d mappings = .ok files) :
    Collectable d mappings ∧ Binds d mappings files := by
  obtain ⟨files', hall, hbinds, hfiles⟩ | ⟨before, m, after, f, -, -, -, hfail⟩ :=
    collect_cases d mappings
  · rw [Except.ok.inj (h.symm.trans hfiles)]
    exact ⟨hall, hbinds⟩
  · cases h.symm.trans hfail

lemma collect_of_offends (hbefore : Collectable d before) (h : Offends d before m f) :
    collect d (before ++ m :: after) = .error f := by
  obtain ⟨files, hbinds, hfiles⟩ := collect_of_collectable hbefore
  obtain ⟨f', h', hfail⟩ | ⟨files', hall, -⟩ := collect_concat_cases hbefore hfiles hbinds m
  · rw [List.append_cons, collect_append, hfail, h.unique h']
    rfl
  · exact absurd hall h.not_collectable

lemma Collectable.perm {mappings' : List Mapping} (h : Collectable d mappings)
    (hperm : mappings'.Perm mappings) : Collectable d mappings' where
  readable m hm := h.readable m (hperm.subset hm)
  distinct := (hperm.map _).nodup_iff.mpr h.distinct

lemma Binds.perm {mappings' : List Mapping} (h : Binds d mappings files)
    (hperm : mappings'.Perm mappings) : Binds d mappings' files := by
  intro path content
  rw [h path content]
  exact exists_congr fun m => and_congr_left' hperm.mem_iff.symm

lemma Binds.unique {files' : FileMap} (h : Binds d mappings files) (h' : Binds d mappings files') :
    files = files' := by
  apply FileMap.ext_get?
  intro path
  apply Option.ext
  intro content
  rw [h path content, h' path content]

end

/-- Files are collected exactly if every local file can be read and the paths are all different. The
paths of the map are then those of the mappings, each with the bytes of its own local file, and any
order of the mappings gives the same map. The failure is otherwise that of the first mapping whose
file cannot be read or, if it can, whose path stands before it already. -/
theorem collect_exact (d : Files.Disk) (mappings : List Mapping) :
    ((∃ files, collect d mappings = .ok files) ↔
      (∀ m ∈ mappings, ∃ content, d.read m.source = .ok content) ∧
        (mappings.map (·.remote)).Nodup) ∧
    (∀ files, collect d mappings = .ok files →
      (∀ path, files.contains path = true ↔ path ∈ mappings.map (·.remote)) ∧
      (∀ path content, files.get? path = some content ↔
        ∃ m ∈ mappings, m.remote = path ∧ d.read m.source = .ok content) ∧
      ∀ mappings', mappings'.Perm mappings → collect d mappings' = .ok files) ∧
    ∀ f, collect d mappings = .error f ↔ ∃ before m after, mappings = before ++ m :: after ∧
      Collectable d before ∧ Offends d before m f := by
  refine ⟨⟨?_, ?_⟩, ?_, fun f => ⟨?_, ?_⟩⟩
  · rintro ⟨files, hfiles⟩
    obtain ⟨hall, -⟩ := collect_eq_ok hfiles
    exact ⟨hall.readable, hall.distinct⟩
  · rintro ⟨hreadable, hdistinct⟩
    obtain ⟨files, -, hfiles⟩ := collect_of_collectable ⟨hreadable, hdistinct⟩
    exact ⟨files, hfiles⟩
  · intro files hfiles
    obtain ⟨hall, hbinds⟩ := collect_eq_ok hfiles
    refine ⟨fun path => hbinds.contains_iff hall, hbinds, fun mappings' hperm => ?_⟩
    obtain ⟨files', hbinds', hfiles'⟩ := collect_of_collectable (hall.perm hperm)
    rw [hfiles', hbinds'.unique (hbinds.perm hperm)]
  · intro hfail
    obtain ⟨files, -, -, hfiles⟩ | ⟨before, m, after, f', rfl, hbefore, hoffends, hfail'⟩ :=
      collect_cases d mappings
    · cases hfiles.symm.trans hfail
    · rw [Except.error.inj (hfail.symm.trans hfail')]
      exact ⟨before, m, after, rfl, hbefore, hoffends⟩
  · rintro ⟨before, m, after, rfl, hbefore, hoffends⟩
    exact collect_of_offends hbefore hoffends

end HostedRepo.Mapping
