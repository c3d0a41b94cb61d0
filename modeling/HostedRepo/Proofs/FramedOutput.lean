import HostedRepo.Command.Mapping
import HostedRepo.Proofs.DiskWriting

/-!
# What writing a result leaves alone

A result that is written is read back at its path, all folders stay and no other file changes. A
folder that was made is there, and making it again does nothing.
-/

namespace HostedRepo.Files

variable {d d' : Disk} {loc : Location} {path : String} {content : Bytes}

namespace Disk

lemma isFolder_iff : d.isFolder path = true ↔ ∃ loc, d.find path = .ok (loc, .folder) := by
  unfold isFolder
  rcases d.find path with f | ⟨loc, content | _⟩ <;> simp

lemma read_eq_ok_iff :
    d.read path = .ok content ↔ ∃ loc, d.find path = .ok (loc, .file content) := by
  unfold read
  rcases d.find path with f | ⟨loc, bytes | _⟩
  · exact iff_of_false nofun (fun ⟨_, h⟩ => by cases h)
  · constructor
    · intro h
      cases h
      exact ⟨loc, rfl⟩
    · rintro ⟨_, h⟩
      cases h
      rfl
  · exact iff_of_false nofun (fun ⟨_, h⟩ => by cases h)

/-! ### Paths on a disk that has grown -/

lemma Grows.isFolder (h : d.Grows d') (hpath : d.isFolder path = true) :
    d'.isFolder path = true := by
  obtain ⟨loc, hfind⟩ := isFolder_iff.mp hpath
  obtain ⟨-, -, -, hentry, -⟩ := find_eq_ok_iff.mp hfind
  exact isFolder_iff.mpr ⟨loc, h.find hfind (h.folder loc hentry)⟩

lemma Grows.read (h : d.Grows d') (hfind : d.find path = .ok (loc, .file content))
    (hfile : d'.file? loc = d.file? loc) : d'.read path = .ok content := by
  obtain ⟨-, -, -, hentry, -⟩ := find_eq_ok_iff.mp hfind
  obtain ⟨content', hentry'⟩ := h.file loc content hentry
  have hfind' := h.find hfind hentry'
  rw [file?_of_find hfind, file?_of_find hfind'] at hfile
  rw [← Option.some.inj hfile]
  exact read_of_find hfind'

/-! ### Folders that are there -/

lemma place_cases {r : Route} (hwalk : d.walk r.names.dropLast (d.startOf r) = .ok loc)
    (hfolder : d.get? loc = some .folder) :
    d.place r = .ok (loc, none) ∨ ∃ name, r.names.getLast? = some name ∧ name ≠ "." ∧ name ≠ ".." ∧
      d.place r = .ok (loc, some name) := by
  unfold place
  simp only [hwalk, hfolder, bind, Except.bind]
  split
  · exact .inl rfl
  · exact .inl rfl
  · exact .inl rfl
  · next name hhere hup hlast => exact .inr ⟨name, hlast, hhere, hup, rfl⟩

lemma exists_place_of_find {r : Route} (hwalk : d.walk r.names (d.startOf r) = .ok loc)
    (hfolder : d.get? loc = some .folder) : ∃ folder, d.place r = .ok (folder, none) ∨
      ∃ name, Route.tooLong name = false ∧ (d.get? (folder ++ [name])).isSome = true ∧
        d.place r = .ok (folder, some name) := by
  obtain hnil | ⟨names, last, hnames⟩ := List.eq_nil_or_concat r.names
  · rw [hnil] at hwalk
    refine ⟨loc, ?_⟩
    obtain hplace | ⟨name, hlast, -⟩ := place_cases (d := d) (r := r) (by rwa [hnil]) hfolder
    · exact .inl hplace
    · rw [hnil] at hlast
      cases hlast
  · rw [List.concat_eq_append] at hnames
    rw [hnames] at hwalk
    obtain ⟨folder, hwalk, hstep⟩ := walk_concat.mp hwalk
    obtain ⟨habove, hstep⟩ := step_eq_ok_iff.mp hstep
    refine ⟨folder, ?_⟩
    obtain hplace | ⟨name, hlast, hhere, hup, hplace⟩ :=
      place_cases (d := d) (r := r) (by rwa [hnames, List.dropLast_concat]) habove
    · exact .inl hplace
    · rw [hnames, List.getLast?_concat] at hlast
      cases hlast
      obtain ⟨heq, -⟩ | ⟨heq, -⟩ | ⟨-, -, hlong, hentry, -⟩ := hstep
      · exact absurd heq hhere
      · exact absurd heq hup
      · exact .inr ⟨last, hlong, hentry, hplace⟩

lemma makeFolder_of_isFolder (h : d.isFolder path = true) : d.makeFolder path = .error .exists := by
  obtain ⟨loc, hfind⟩ := isFolder_iff.mp h
  obtain ⟨r, hparse, hwalk, hfolder, -⟩ := find_eq_ok_iff.mp hfind
  unfold makeFolder
  obtain ⟨folder, hplace | ⟨name, hlong, hentry, hplace⟩⟩ := exists_place_of_find hwalk hfolder
  · simp only [hparse, hplace, bind, Except.bind]
    rfl
  · obtain ⟨e, he⟩ := Option.isSome_iff_exists.mp hentry
    simp only [hparse, hplace, hlong, he, bind, Except.bind]
    rfl

lemma makeMissing_of_isFolder (h : d.isFolder path = true) : d.makeMissing path = .ok d := by
  unfold makeMissing
  rw [makeFolder_of_isFolder h]
  exact if_pos h

lemma makeFolders_of_isFolder (h : d.isFolder path = true) (fuel : Nat) :
    d.makeFolders fuel path = (.ok (), d) := by
  unfold makeFolders
  rw [makeMissing_of_isFolder h]

/-! ### Folders that are made -/

lemma isFolder_of_makeFolder (h : d.makeFolder path = .ok d') : d'.isFolder path = true := by
  have hgrows := (makeFolder_furnished h).grows
  obtain ⟨r, folder, name, hparse, hplace, hlong, -, rfl⟩ := makeFolder_eq_ok h
  exact isFolder_iff.mpr ⟨_, find_set hparse hplace hlong (fun _ => rfl) hgrows⟩

lemma isFolder_of_makeMissing (h : d.makeMissing path = .ok d') : d'.isFolder path = true := by
  unfold makeMissing at h
  split at h
  · split at h
    · next hfolder =>
      cases h
      exact hfolder
    · cases h
  · exact isFolder_of_makeFolder h

lemma isFolder_of_makeFolders {fuel : Nat} (h : d.makeFolders fuel path = (.ok (), d')) :
    d'.isFolder path = true := by
  unfold makeFolders at h
  split at h
  · next hmade =>
    cases h
    exact isFolder_of_makeMissing hmade
  · split at h
    · split at h
      · split at h
        · next hmade =>
          cases h
          exact isFolder_of_makeMissing hmade
        · cases h
      · next hfailed =>
        exact absurd h (hfailed _)
    · cases h
  · cases h

end Disk

/-! ### Results -/

lemma ensureFolder_of_isFolder (h : d.isFolder path = true) :
    ensureFolder path d = (.ok (), d) := by
  unfold ensureFolder
  rw [Disk.makeFolders_of_isFolder h]
  split <;> rfl

lemma isFolder_of_ensureFolder (hpath : path ≠ "") (h : ensureFolder path d = (.ok (), d')) :
    d'.isFolder path = true := by
  have hmade : d.makeFolders path.length path = (.ok (), d') := by
    unfold ensureFolder at h
    rw [if_neg (by simpa using hpath)] at h
    rcases hmade : d.makeFolders path.length path with ⟨f | ⟨⟩, d₁⟩
    · rw [hmade] at h
      cases h
    · rw [hmade] at h
      cases h
      rfl
  exact Disk.isFolder_of_makeFolders hmade

/-- A result that is written is what its path is read as. Another file keeps its content and no
other one comes, and every folder is still a folder. If a result cannot be written, all files are
what they were. A path whose folder has been made leads to a folder, no file has changed, and making
it again changes nothing at all. -/
theorem writeOutput_frames (d : Disk) (path : String) (content : Bytes) :
    (∀ d', writeOutput path content d = (.ok (), d') →
      Mapping.readLocal d' path = .ok content ∧
      (∃ target, d'.find path = .ok (target, .file content) ∧
        (∀ loc ≠ target, d'.file? loc = d.file? loc) ∧
        ∀ other loc bytes, d.find other = .ok (loc, .file bytes) → loc ≠ target →
          d'.read other = .ok bytes) ∧
      (∀ loc, d.get? loc = some .folder → d'.get? loc = some .folder) ∧
      ∀ other, d.isFolder other = true → d'.isFolder other = true) ∧
    (∀ f d', writeOutput path content d = (.error f, d') →
      (∀ loc, d'.file? loc = d.file? loc) ∧
      ∀ other bytes, d.read other = .ok bytes → d'.read other = .ok bytes) ∧
    ∀ d', path ≠ "" → ensureFolder path d = (.ok (), d') →
      d'.isFolder path = true ∧ (∀ loc, d'.file? loc = d.file? loc) ∧
        ensureFolder path d' = (.ok (), d') := by
  obtain ⟨hgrows, hwritten⟩ := writeOutput_written path content d
  refine ⟨fun d' hout => ?_, fun f d' hout => ?_, fun d' hpath hout => ?_⟩
  · rw [hout] at hgrows hwritten
    obtain ⟨f, hfail, -⟩ | ⟨-, target, hfind, hothers⟩ := hwritten
    · cases hfail
    · refine ⟨?_, ⟨target, hfind, hothers, ?_⟩, hgrows.folder, fun other => hgrows.isFolder⟩
      · rw [Mapping.readLocal, Disk.read_of_find hfind]
        rfl
      · exact fun other loc bytes hother hloc => hgrows.read hother (hothers loc hloc)
  · rw [hout] at hgrows hwritten
    obtain ⟨-, -, -, hfiles⟩ | ⟨hok, -⟩ := hwritten
    · refine ⟨fun loc => congrFun hfiles loc, fun other bytes hread => ?_⟩
      obtain ⟨loc, hfind⟩ := Disk.read_eq_ok_iff.mp hread
      exact hgrows.read hfind (congrFun hfiles loc)
    · cases hok
  · have hfolder := isFolder_of_ensureFolder hpath hout
    have hfiles := (ensureFolder_furnished path d).files
    rw [hout] at hfiles
    exact ⟨hfolder, fun loc => congrFun hfiles loc, ensureFolder_of_isFolder hfolder⟩

end HostedRepo.Files
