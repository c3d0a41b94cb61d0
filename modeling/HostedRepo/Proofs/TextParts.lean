import HostedRepo.Text.Search
import Mathlib.Data.List.Basic
import Mathlib.Tactic.Common

/-!
# Parts between separators

The parts of a text hold no separator, each of them occurs in the text, and the parts of two texts
with a separator between them are those of one and then of the other.
-/

namespace HostedRepo.Text

lemma splitAt_append (sep : Char) (s t : List Char) :
    splitAt sep (s ++ sep :: t) = splitAt sep s ++ splitAt sep t := by
  induction s with
  | nil => simp [splitAt]
  | cons c s ih =>
    rw [List.cons_append, splitAt, splitAt, ih]
    split
    · rfl
    · cases hs : splitAt sep s with
      | nil => exact absurd hs (splitAt_ne_nil sep s)
      | cons part parts => rfl

lemma infix_joinWith {sep : Char} {part : List Char} {parts : List (List Char)}
    (h : part ∈ parts) : part <:+: joinWith sep parts := by
  induction parts using joinWith.induct with
  | case1 => cases h
  | case2 one =>
    rw [List.mem_singleton.mp h]
    exact List.infix_rfl
  | case3 first parts hne ih =>
    rw [joinWith]
    · obtain rfl | h := List.mem_cons.mp h
      · exact (List.prefix_append ..).isInfix
      · exact (ih h).trans ((List.suffix_cons sep _).trans (List.suffix_append ..)).isInfix
    · exact hne

lemma infix_of_mem_splitAt {sep : Char} {s part : List Char} (h : part ∈ splitAt sep s) :
    part <:+: s := by
  have hinfix : part <:+: joinWith sep (splitAt sep s) := infix_joinWith h
  rwa [joinWith_splitAt] at hinfix

lemma mem_of_mem_splitAt {sep : Char} {s part : List Char} {c : Char}
    (hpart : part ∈ splitAt sep s) (hc : c ∈ part) : c ∈ s :=
  (infix_of_mem_splitAt hpart).subset hc

lemma sep_notMem_of_mem_splitAt {sep : Char} {s part : List Char}
    (h : part ∈ splitAt sep s) : sep ∉ part := by
  induction s generalizing part with
  | nil =>
    rw [List.mem_singleton.mp h]
    exact List.not_mem_nil
  | cons c s ih =>
    unfold splitAt at h
    split at h
    · obtain rfl | h := List.mem_cons.mp h
      · exact List.not_mem_nil
      · exact ih h
    · next hne =>
      cases hs : splitAt sep s with
      | nil => exact absurd hs (splitAt_ne_nil sep s)
      | cons first parts =>
        rw [hs] at h ih
        obtain rfl | h := List.mem_cons.mp h
        · intro hmem
          obtain rfl | hmem := List.mem_cons.mp hmem
          · exact hne rfl
          · exact ih List.mem_cons_self hmem
        · exact ih (List.mem_cons_of_mem first h)

lemma splitAt_eq_singleton {sep : Char} {s : List Char} (h : sep ∉ s) : splitAt sep s = [s] := by
  induction s with
  | nil => rfl
  | cons c s ih =>
    have hne : c ≠ sep := fun heq => h (heq ▸ List.mem_cons_self)
    rw [splitAt, if_neg hne, ih fun hmem => h (List.mem_cons_of_mem c hmem)]

lemma joinWith_cons {sep : Char} {part : List Char} {parts : List (List Char)}
    (h : parts ≠ []) :
    joinWith sep (part :: parts) = part ++ sep :: joinWith sep parts := by
  cases parts with
  | nil => exact absurd rfl h
  | cons next rest => rfl

lemma splitOnce_append {sep : Char} {s : List Char} (h : sep ∉ s) (t : List Char) :
    splitOnce sep (s ++ sep :: t) = some (s, t) := by
  induction s with
  | nil => rw [List.nil_append, splitOnce, if_pos rfl]
  | cons c s ih =>
    have hne : c ≠ sep := fun heq => h (heq ▸ List.mem_cons_self)
    rw [List.cons_append, splitOnce, if_neg hne, ih fun hmem => h (List.mem_cons_of_mem c hmem)]
    rfl

lemma splitOnce_eq_none {sep : Char} {s : List Char} (h : sep ∉ s) : splitOnce sep s = none := by
  induction s with
  | nil => rfl
  | cons c s ih =>
    have hne : c ≠ sep := fun heq => h (heq ▸ List.mem_cons_self)
    rw [splitOnce, if_neg hne, ih fun hmem => h (List.mem_cons_of_mem c hmem)]
    rfl

lemma occurs_of_infix {part s : List Char} (h : part <:+: s) : occurs part s = true := by
  induction s with
  | nil => rw [List.infix_nil.mp h]; rfl
  | cons c s ih =>
    rw [occurs, Bool.or_eq_true]
    obtain hprefix | htail := List.infix_cons_iff.mp h
    · exact .inl (List.isPrefixOf_iff_prefix.mpr hprefix)
    · exact .inr (ih htail)

lemma append_sep_inj {sep : Char} {a b s t : List Char} (ha : sep ∉ a) (hb : sep ∉ b) :
    a ++ sep :: s = b ++ sep :: t ↔ a = b ∧ s = t := by
  constructor
  · intro h
    obtain ⟨c, rfl, hs⟩ | ⟨c, rfl, hs⟩ := List.append_eq_append_iff.mp h
    · cases c with
      | nil => simpa using hs
      | cons d c =>
        obtain ⟨rfl, -⟩ := List.cons.inj hs
        simp at hb
    · cases c with
      | nil => simpa using hs.symm
      | cons d c =>
        obtain ⟨rfl, -⟩ := List.cons.inj hs
        simp at ha
  · rintro ⟨rfl, rfl⟩
    rfl

/-! ### The last separator -/

/-- What is left of a text when all from the last occurrence of a character on is taken away. -/
def CutsLast (sep : Char) (s cut : List Char) : Prop :=
  (sep ∉ s ∧ s = cut) ∨ ∃ after, s = cut ++ sep :: after ∧ sep ∉ after

lemma beforeLast_cutsLast (sep : Char) (s : List Char) : CutsLast sep s (beforeLast sep s) := by
  by_cases h : sep ∈ s
  · obtain ⟨after, before, hs, hafter⟩ := List.eq_append_cons_of_mem (List.mem_reverse.mpr h)
    have hdrop : s.reverse.dropWhile (· ≠ sep) = sep :: before := by
      rw [hs, List.dropWhile_append_of_pos, List.dropWhile_cons_of_neg (by simp)]
      intro c hc
      exact decide_eq_true fun heq => hafter (heq ▸ hc)
    refine .inr ⟨after.reverse, ?_, fun hmem => hafter (List.mem_reverse.mp hmem)⟩
    rw [beforeLast, if_pos h, hdrop, List.drop_one, List.tail_cons, ← List.reverse_reverse s, hs]
    simp
  · exact .inl ⟨h, by rw [beforeLast, if_neg h]⟩

lemma CutsLast.exists_end {sep : Char} {s cut : List Char} (h : CutsLast sep s cut) :
    ∃ left, s = cut ++ left ∧ (left = [] ∨ ∃ after, left = sep :: after) := by
  obtain ⟨-, rfl⟩ | ⟨after, rfl, -⟩ := h
  · exact ⟨[], by rw [List.append_nil], .inl rfl⟩
  · exact ⟨sep :: after, rfl, .inr ⟨after, rfl⟩⟩

end HostedRepo.Text
