import HostedRepo.Command.Check
import HostedRepo.Proofs.PathSegments

/-!
# Names that are checked

What the checks of names say about the parts that names have in a path.
-/

namespace HostedRepo

namespace Check

lemma segment_eq_ok_iff {argument value : String} :
    segment argument value = .ok () ↔ Text.allBlank value = false ∧ '/' ∉ value.toList := by
  unfold segment
  cases Text.allBlank value <;> simp [require, bind, Except.bind]

lemma ne_empty_of_segment {argument value : String} (h : segment argument value = .ok ()) :
    value ≠ "" := by
  rintro rfl
  cases h

lemma occurs_eq_false_of_branch {name : String} (h : branch name = .ok ()) :
    Text.occurs ['.', '.'] name.toList = false := by
  unfold branch at h
  cases hform : isBranchForm name.toList with
  | false =>
    cases hblank : Text.allBlank name <;>
      simp [hform, hblank, require, bind, Except.bind] at h
  | true =>
    unfold isBranchForm at hform
    simp only [Bool.and_eq_true, Bool.not_eq_true'] at hform
    exact hform.1.2

end Check

namespace Url

lemma segmentParts_name {name : String} (hslash : '/' ∉ name.toList)
    (hname : name ∉ ["", ".", ".."]) : segmentParts name = [name.toList] := by
  have hinj : ∀ s : String, name ≠ s → name.toList ≠ s.toList :=
    fun s hne heq => hne (String.toList_injective heq)
  obtain ⟨hempty, hhere, hup⟩ : name ≠ "" ∧ name ≠ "." ∧ name ≠ ".." := by simpa using hname
  have hkept : name.toList ≠ [] ∧ name.toList ≠ ['.'] ∧ name.toList ≠ ['.', '.'] :=
    ⟨hinj "" hempty, hinj "." hhere, hinj ".." hup⟩
  rw [segmentParts, Text.splitAt_eq_singleton hslash]
  exact List.filter_eq_self.mpr (by simpa using hkept)

end Url

end HostedRepo
