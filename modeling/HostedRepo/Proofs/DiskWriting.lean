import HostedRepo.Files.Output
import HostedRepo.Proofs.StateTriples
import Mathlib.Data.List.Basic

/-!
# Writing to a disk

What is stored at a path is read back at this path, and storing changes one file at most. Making
folders changes none, so a result that is written either becomes the content of its file or leaves
all files as they were.
-/

namespace HostedRepo.Files

namespace Disk

/-- The content of the file at a location. -/
def file? (d : Disk) (loc : Location) : Option Bytes :=
  match d.get? loc with
  | some (.file content) => some content
  | _ => none

variable {d d' : Disk} {loc target : Location} {e : Entry} {path : String} {content : Bytes}

@[simp] lemma get?_nil (d : Disk) : d.get? [] = some .folder := rfl

lemma get?_set (h : target ≠ []) (loc : Location) :
    (d.set target e).get? loc = if loc = target then some e else d.get? loc := by
  unfold get? set
  by_cases hroot : loc = []
  · subst hroot
    rw [if_pos rfl, if_pos rfl, if_neg (Ne.symm h)]
  · rw [if_neg hroot, if_neg hroot, List.find?_cons]
    by_cases heq : target = loc
    · simp [heq]
    · have hfind : (d.entries.filter (·.1 ≠ target)).find? (·.1 = loc) =
          d.entries.find? (·.1 = loc) := by
        rw [List.find?_filter]
        congr 1
        funext entry
        by_cases hloc : entry.1 = loc
        · simp [hloc, Ne.symm heq]
        · simp [hloc]
      rw [decide_eq_false heq, hfind, if_neg (Ne.symm heq)]

lemma file?_set_of_ne (h : target ≠ []) (hne : loc ≠ target) :
    (d.set target e).file? loc = d.file? loc := by
  rw [file?, get?_set h, if_neg hne, file?]

lemma file?_set_folder (h : target ≠ []) (hnew : d.get? target = none) (loc : Location) :
    (d.set target .folder).file? loc = d.file? loc := by
  by_cases heq : loc = target
  · rw [heq, file?, get?_set h, if_pos rfl, file?, hnew]
  · exact file?_set_of_ne h heq

/-! ### Following paths -/

lemma step_eq_ok_iff {next : Location} {name : String} :
    d.step loc name = .ok next ↔ d.get? loc = some .folder ∧
      ((name = "." ∧ next = loc) ∨ (name = ".." ∧ next = loc.dropLast) ∨
        (name ≠ "." ∧ name ≠ ".." ∧ Route.tooLong name = false ∧
          (d.get? (loc ++ [name])).isSome = true ∧ next = loc ++ [name])) := by
  unfold step
  cases d.get? loc with
  | none => simp
  | some e =>
    cases e with
    | file content => simp
    | folder =>
      have heq (l : Location) : (Except.ok l : Except Fault Location) = .ok next ↔ next = l := by
        rw [Except.ok.injEq, eq_comm]
      by_cases hhere : name = "."
      · simp [hhere, heq]
      · by_cases hup : name = ".."
        · simp [hup, heq]
        · cases hlong : Route.tooLong name with
          | true => simp [hhere, hup]
          | false => cases d.get? (loc ++ [name]) <;> simp [hhere, hup, heq]

lemma walk_cons {names : List String} {start : Location} {name : String} :
    d.walk (name :: names) start = .ok loc ↔
      ∃ next, d.step start name = .ok next ∧ d.walk names next = .ok loc := by
  unfold walk
  rw [List.foldlM_cons]
  cases d.step start name with
  | error f => exact iff_of_false nofun nofun
  | ok next =>
    constructor
    · exact fun hwalk => ⟨next, rfl, hwalk⟩
    · rintro ⟨_, heq, hwalk⟩
      cases heq
      exact hwalk

lemma walk_concat {names : List String} {start : Location} {name : String} :
    d.walk (names ++ [name]) start = .ok loc ↔
      ∃ folder, d.walk names start = .ok folder ∧ d.step folder name = .ok loc := by
  unfold walk
  rw [List.foldlM_append]
  cases List.foldlM d.step start names with
  | error f => exact iff_of_false nofun nofun
  | ok folder =>
    have hlast : List.foldlM d.step folder [name] = d.step folder name := by
      rw [List.foldlM_cons]
      cases d.step folder name <;> rfl
    constructor
    · exact fun hstep => ⟨folder, rfl, hlast.symm.trans hstep⟩
    · rintro ⟨_, heq, hstep⟩
      cases heq
      exact hlast.trans hstep

/-- What a path leads to is where its names end, and a path that asks for a folder leads to one. -/
lemma find_eq_ok_iff : d.find path = .ok (loc, e) ↔ ∃ r, Route.parse path = .ok r ∧
    d.walk r.names (d.startOf r) = .ok loc ∧ d.get? loc = some e ∧
      (r.slashed = true → e = .folder) := by
  constructor
  · intro h
    obtain ⟨r, hparse, h⟩ := bind_eq_ok h
    obtain ⟨found, hwalk, h⟩ := bind_eq_ok h
    refine ⟨r, hparse, ?_⟩
    split at h
    · cases h
    · next content hfile =>
      split at h
      · cases h
      · next hslashed =>
        cases h
        exact ⟨hwalk, hfile, fun hs => absurd hs hslashed⟩
    · next hfolder =>
      cases h
      exact ⟨hwalk, hfolder, fun _ => rfl⟩
  · rintro ⟨r, hparse, hwalk, hentry, hslashed⟩
    unfold find
    simp only [hparse, bind, Except.bind, hwalk, hentry]
    cases e with
    | folder => rfl
    | file content =>
      have hfalse : r.slashed = false := by
        cases hs : r.slashed with
        | false => rfl
        | true => cases hslashed hs
      rw [hfalse]
      rfl

lemma read_of_find (h : d.find path = .ok (loc, .file content)) : d.read path = .ok content := by
  rw [read, h]
  rfl

lemma file?_of_find (h : d.find path = .ok (loc, .file content)) : d.file? loc = some content := by
  obtain ⟨r, -, -, hentry, -⟩ := find_eq_ok_iff.mp h
  rw [file?, hentry]

/-! ### What stays -/

/-- Folders are still folders and files still files, perhaps with another content. -/
structure Grows (d d' : Disk) : Prop where
  here : d'.here = d.here
  folder : ∀ loc, d.get? loc = some .folder → d'.get? loc = some .folder
  file : ∀ loc content, d.get? loc = some (.file content) →
    ∃ content', d'.get? loc = some (.file content')

namespace Grows

lemma refl (d : Disk) : d.Grows d := ⟨rfl, fun _ h => h, fun _ content h => ⟨content, h⟩⟩

lemma trans {d₁ d₂ d₃ : Disk} (h : d₁.Grows d₂) (h' : d₂.Grows d₃) : d₁.Grows d₃ where
  here := h'.here.trans h.here
  folder loc hloc := h'.folder loc (h.folder loc hloc)
  file loc content hloc := by
    obtain ⟨content', hloc'⟩ := h.file loc content hloc
    exact h'.file loc content' hloc'

lemma set (htarget : target ≠ [])
    (h : ∀ old, d.get? target = some old → old ≠ .folder ∧ e ≠ .folder) :
    d.Grows (d.set target e) where
  here := rfl
  folder loc hloc := by
    rw [get?_set htarget]
    by_cases heq : loc = target
    · exact absurd rfl (h .folder (heq ▸ hloc)).1
    · rw [if_neg heq, hloc]
  file loc content hloc := by
    rw [get?_set htarget]
    by_cases heq : loc = target
    · rw [if_pos heq]
      cases e with
      | file content' => exact ⟨content', rfl⟩
      | folder => exact absurd rfl (h (.file content) (heq ▸ hloc)).2
    · rw [if_neg heq]
      exact ⟨content, hloc⟩

lemma isSome (h : d.Grows d') (hloc : (d.get? loc).isSome = true) :
    (d'.get? loc).isSome = true := by
  obtain ⟨e, he⟩ := Option.isSome_iff_exists.mp hloc
  cases e with
  | folder => rw [h.folder loc he, Option.isSome_some]
  | file content =>
    obtain ⟨content', hloc'⟩ := h.file loc content he
    rw [hloc', Option.isSome_some]

lemma step {next : Location} {name : String} (h : d.Grows d') (hstep : d.step loc name = .ok next) :
    d'.step loc name = .ok next := by
  rw [step_eq_ok_iff] at hstep ⊢
  obtain ⟨hfolder, hhere | hup | ⟨hhere, hup, hlong, hentry, hnext⟩⟩ := hstep
  · exact ⟨h.folder loc hfolder, .inl hhere⟩
  · exact ⟨h.folder loc hfolder, .inr (.inl hup)⟩
  · exact ⟨h.folder loc hfolder, .inr (.inr ⟨hhere, hup, hlong, h.isSome hentry, hnext⟩)⟩

lemma walk {names : List String} {start : Location} (h : d.Grows d')
    (hwalk : d.walk names start = .ok loc) : d'.walk names start = .ok loc := by
  induction names generalizing start with
  | nil => exact hwalk
  | cons name names ih =>
    obtain ⟨next, hstep, hrest⟩ := walk_cons.mp hwalk
    exact walk_cons.mpr ⟨next, h.step hstep, ih hrest⟩

lemma startOf (h : d.Grows d') (r : Route) : d'.startOf r = d.startOf r := by
  unfold Disk.startOf
  rw [h.here]

lemma find {e' : Entry} (h : d.Grows d') (hfind : d.find path = .ok (loc, e))
    (hloc : d'.get? loc = some e') : d'.find path = .ok (loc, e') := by
  rw [find_eq_ok_iff] at hfind ⊢
  obtain ⟨r, hparse, hwalk, hentry, hslashed⟩ := hfind
  refine ⟨r, hparse, ?_, hloc, fun hs => ?_⟩
  · rw [h.startOf]
    exact h.walk hwalk
  · rw [hslashed hs] at hentry
    exact Option.some.inj (hloc.symm.trans (h.folder loc hentry))

end Grows

/-! ### New entries -/

lemma place_eq_ok {r : Route} {folder : Location} {name : String}
    (h : d.place r = .ok (folder, some name)) :
    d.walk r.names.dropLast (d.startOf r) = .ok folder ∧ d.get? folder = some .folder ∧
      r.names.getLast? = some name ∧ name ≠ "." ∧ name ≠ ".." := by
  obtain ⟨loc, hwalk, hrest⟩ := bind_eq_ok h
  split at hrest
  · cases hrest
  · cases hrest
  · next hfolder =>
    split at hrest
    · cases hrest
    · cases hrest
    · cases hrest
    · next last hhere hup hlast =>
      cases hrest
      exact ⟨hwalk, hfolder, hlast, hhere, hup⟩

lemma store_eq_ok (h : d.store path content = .ok d') :
    ∃ r folder name, Route.parse path = .ok r ∧ d.place r = .ok (folder, some name) ∧
      r.slashed = false ∧ Route.tooLong name = false ∧
      d.get? (folder ++ [name]) ≠ some .folder ∧
      d' = d.set (folder ++ [name]) (.file content) := by
  obtain ⟨r, hparse, h⟩ := bind_eq_ok h
  obtain ⟨⟨folder, name?⟩, hplace, h⟩ := bind_eq_ok h
  cases name? with
  | none => cases h
  | some name =>
    dsimp only at h
    split at h
    · cases h
    · next hslashed =>
      split at h
      · cases h
      · next hlong =>
        split at h
        · cases h
        · next hentry =>
          cases h
          exact ⟨r, folder, name, hparse, hplace, by simpa using hslashed, by simpa using hlong,
            hentry, rfl⟩

lemma find_set {r : Route} {folder : Location} {name : String}
    (hparse : Route.parse path = .ok r) (hplace : d.place r = .ok (folder, some name))
    (hlong : Route.tooLong name = false) (hslashed : r.slashed = true → e = .folder)
    (hgrows : d.Grows (d.set (folder ++ [name]) e)) :
    (d.set (folder ++ [name]) e).find path = .ok (folder ++ [name], e) := by
  obtain ⟨hwalk, hfolder, hlast, hhere, hup⟩ := place_eq_ok hplace
  have hentry : (d.set (folder ++ [name]) e).get? (folder ++ [name]) = some e := by
    rw [get?_set (by simp), if_pos rfl]
  have hstep : (d.set (folder ++ [name]) e).step folder name = .ok (folder ++ [name]) := by
    rw [step_eq_ok_iff]
    exact ⟨hgrows.folder folder hfolder, .inr (.inr ⟨hhere, hup, hlong, by rw [hentry]; rfl, rfl⟩)⟩
  have hwalked := walk_concat.mpr ⟨folder, hgrows.walk hwalk, hstep⟩
  rw [List.dropLast_append_getLast? name hlast] at hwalked
  exact find_eq_ok_iff.mpr ⟨r, hparse, hwalked, hentry, hslashed⟩

/-- What is stored is found at its path, and all other files stay as they are. -/
theorem store_find (h : d.store path content = .ok d') : d.Grows d' ∧
    ∃ target, d'.find path = .ok (target, .file content) ∧
      ∀ loc ≠ target, d'.file? loc = d.file? loc := by
  obtain ⟨r, folder, name, hparse, hplace, hslashed, hlong, hentry, rfl⟩ := store_eq_ok h
  have hne : folder ++ [name] ≠ [] := by simp
  have hgrows : d.Grows (d.set (folder ++ [name]) (.file content)) :=
    .set hne fun old hold => ⟨fun heq => hentry (heq ▸ hold), nofun⟩
  refine ⟨hgrows, folder ++ [name], ?_, fun loc hloc => file?_set_of_ne hne hloc⟩
  exact find_set hparse hplace hlong (fun hs => by rw [hslashed] at hs; cases hs) hgrows

/-! ### Making folders -/

/-- Nothing but new folders has come. -/
structure Furnished (d d' : Disk) : Prop where
  grows : d.Grows d'
  files : d'.file? = d.file?

lemma Furnished.refl (d : Disk) : d.Furnished d := ⟨.refl d, rfl⟩

lemma Furnished.trans {d₁ d₂ d₃ : Disk} (h : d₁.Furnished d₂) (h' : d₂.Furnished d₃) :
    d₁.Furnished d₃ :=
  ⟨h.grows.trans h'.grows, h'.files.trans h.files⟩

lemma makeFolder_eq_ok (h : d.makeFolder path = .ok d') :
    ∃ r folder name, Route.parse path = .ok r ∧ d.place r = .ok (folder, some name) ∧
      Route.tooLong name = false ∧ d.get? (folder ++ [name]) = none ∧
      d' = d.set (folder ++ [name]) .folder := by
  obtain ⟨r, hparse, h⟩ := bind_eq_ok h
  obtain ⟨⟨folder, name?⟩, hplace, h⟩ := bind_eq_ok h
  cases name? with
  | none => cases h
  | some name =>
    dsimp only at h
    split at h
    · cases h
    · next hlong =>
      split at h
      · cases h
      · next hnew =>
        cases h
        exact ⟨r, folder, name, hparse, hplace, by simpa using hlong, hnew, rfl⟩

lemma makeFolder_furnished (h : d.makeFolder path = .ok d') : d.Furnished d' := by
  obtain ⟨r, folder, name, -, -, -, hnew, rfl⟩ := makeFolder_eq_ok h
  have hne : folder ++ [name] ≠ [] := by simp
  refine ⟨.set hne fun old hold => ?_, ?_⟩
  · cases hnew.symm.trans hold
  · funext loc
    exact file?_set_folder hne hnew loc

lemma makeMissing_furnished (h : d.makeMissing path = .ok d') : d.Furnished d' := by
  unfold makeMissing at h
  split at h
  · split at h
    · cases h
      exact .refl d
    · cases h
  · exact makeFolder_furnished h

lemma makeFolders_furnished (d : Disk) (fuel : Nat) (path : String) :
    d.Furnished (d.makeFolders fuel path).2 := by
  induction fuel generalizing d path with
  | zero =>
    unfold makeFolders
    split
    · next h => exact makeMissing_furnished h
    · exact .refl d
    · exact .refl d
  | succ fuel ih =>
    unfold makeFolders
    split
    · next h => exact makeMissing_furnished h
    · split
      · next n above hfuel hparent =>
        cases hfuel
        have habove : d.Furnished (if above.isEmpty then (.ok (), d) else d.makeFolders fuel above :
            Except Fault Unit × Disk).2 := by
          split
          · exact .refl d
          · exact ih d above
        split
        · next d₁ heq =>
          rw [heq] at habove
          split
          · next h => exact habove.trans (makeMissing_furnished h)
          · exact habove
        · exact habove
      · exact .refl d
    · exact .refl d

end Disk

/-! ### Results -/

variable {path : String} {d : Disk}

lemma ensureFolder_furnished (path : String) (d : Disk) : d.Furnished (ensureFolder path d).2 := by
  unfold ensureFolder
  split
  · exact .refl d
  · exact d.makeFolders_furnished path.length path

lemma ensureFolder_failure {f : Failure} (h : (ensureFolder path d).1 = .error f) :
    ∃ fault, f = .during (.makeFolder path) (.file fault) := by
  unfold ensureFolder at h
  split at h
  · cases h
  · dsimp only at h
    cases hmade : (d.makeFolders path.length path).1 with
    | ok u =>
      rw [hmade] at h
      cases h
    | error fault =>
      rw [hmade] at h
      cases h
      exact ⟨fault, rfl⟩

/-- A failure in making the folder of a file or in writing the file. -/
def FailsToWrite (path : String) (f : Failure) : Prop :=
  (∃ fault, f = .during (.write path) (.file fault)) ∨
    ∃ folder fault, parent? path = some folder ∧ f = .during (.makeFolder folder) (.file fault)

/-- A result has become the content of the file at its path and of no other, or no file has changed.
All folders are still there. -/
def Written (path : String) (content : Bytes) (d : Disk) (out : Except Failure Unit × Disk) :
    Prop :=
  d.Grows out.2 ∧
    ((∃ f, out.1 = .error f ∧ FailsToWrite path f ∧ out.2.file? = d.file?) ∨
      (out.1 = .ok () ∧ ∃ target, out.2.find path = .ok (target, .file content) ∧
        ∀ loc ≠ target, out.2.file? loc = d.file? loc))

lemma store_written {content : Bytes} {d₁ : Disk} (h : d.Furnished d₁) :
    Written path content d (match d₁.store path content with
      | .ok d => (.ok (), d)
      | .error f => (.error (.during (.write path) (.file f)), d₁)) := by
  cases hstored : d₁.store path content with
  | error fault => exact ⟨h.grows, .inl ⟨_, rfl, .inl ⟨fault, rfl⟩, h.files⟩⟩
  | ok d₂ =>
    obtain ⟨hgrows, target, hfind, hothers⟩ := Disk.store_find hstored
    refine ⟨h.grows.trans hgrows, .inr ⟨rfl, target, hfind, fun loc hloc => ?_⟩⟩
    rw [hothers loc hloc, h.files]

theorem writeOutput_written (path : String) (content : Bytes) (d : Disk) :
    Written path content d (writeOutput path content d) := by
  unfold writeOutput
  cases hparent : parent? path with
  | none => exact store_written (.refl d)
  | some folder =>
    have hfolder := ensureFolder_furnished folder d
    dsimp only
    cases hmade : (ensureFolder folder d).1 with
    | ok u => exact store_written hfolder
    | error f =>
      obtain ⟨fault, rfl⟩ := ensureFolder_failure hmade
      exact ⟨hfolder.grows, .inl ⟨_, rfl, .inr ⟨folder, fault, hparent, rfl⟩, hfolder.files⟩⟩

end HostedRepo.Files
