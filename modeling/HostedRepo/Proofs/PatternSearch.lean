import HostedRepo.Text.Pattern
import Mathlib.Tactic.Common

/-!
# Searching for patterns

`Pattern.Stands` says in how many ways a pattern may stand at the front of a text. The reading
finds one of them whenever there is one, and its groups are the longest, an earlier group counting
more than a later one; a search finds the leftmost place.
-/

namespace HostedRepo.Text.Pattern

/-- A pattern stands at the front of a text, and its groups take what is listed. -/
inductive Stands : Pattern → List Char → List (List Char) → Prop
  | nil (s : List Char) : Stands [] s []
  | plain {t : String} {items : Pattern} {s : List Char} {groups : List (List Char)} :
    Stands items s groups → Stands (.plain t :: items) (t.toList ++ s) groups
  | group {k : CharClass} {items : Pattern} {taken s : List Char} {groups : List (List Char)} :
    taken ≠ [] → (∀ c ∈ taken, k.admits c = true) → Stands items s groups →
      Stands (.group k :: items) (taken ++ s) (taken :: groups)

section

variable {k : CharClass} {items : Pattern} {s : List Char} {groups : List (List Char)}

lemma stands_nil_iff : Stands [] s groups ↔ groups = [] := by
  constructor
  · rintro ⟨⟩
    rfl
  · rintro rfl
    exact .nil s

lemma stands_plain_iff {t : String} :
    Stands (.plain t :: items) s groups ↔ ∃ rest, s = t.toList ++ rest ∧ Stands items rest groups := by
  constructor
  · rintro (_ | h)
    exact ⟨_, rfl, h⟩
  · rintro ⟨rest, rfl, h⟩
    exact .plain h

lemma stands_group_iff : Stands (.group k :: items) s groups ↔
    ∃ taken rest more, s = taken ++ rest ∧ groups = taken :: more ∧ taken ≠ [] ∧
      (∀ c ∈ taken, k.admits c = true) ∧ Stands items rest more := by
  constructor
  · rintro (_ | _ | ⟨hne, hall, h⟩)
    exact ⟨_, _, _, rfl, rfl, hne, hall, h⟩
  · rintro ⟨taken, rest, more, rfl, rfl, hne, hall, h⟩
    exact .group hne hall h

end

/-! ### Groups -/

section

variable {α : Type} {k : CharClass} {read : List Char → Option α} {s : List Char}

lemma takeGroup_eq_none_iff : takeGroup k read s = none ↔
    ∀ taken rest, s = taken ++ rest → taken ≠ [] → (∀ c ∈ taken, k.admits c = true) →
      read rest = none := by
  induction s with
  | nil =>
    simp only [takeGroup, true_iff]
    intro taken rest hs hne
    exact absurd (List.append_eq_nil_iff.mp hs.symm).1 hne
  | cons c s ih =>
    rw [takeGroup]
    by_cases hc : k.admits c = true
    · rw [if_pos hc, Option.or_eq_none_iff, Option.map_eq_none_iff, Option.map_eq_none_iff, ih]
      constructor
      · rintro ⟨hlonger, hone⟩ taken rest hs hne hall
        obtain ⟨rfl, rfl⟩ | ⟨taken, rfl, rfl⟩ := List.cons_eq_append_iff.mp hs
        · exact absurd rfl hne
        · by_cases ht : taken = []
          · rwa [ht] at hone
          · exact hlonger taken rest rfl ht fun d hd => hall d (List.mem_cons_of_mem c hd)
      · intro h
        refine ⟨fun taken rest hs hne hall => ?_, h [c] s rfl (List.cons_ne_nil _ _) ?_⟩
        · exact h (c :: taken) rest (by rw [hs, List.cons_append]) (List.cons_ne_nil _ _)
            (List.forall_mem_cons.mpr ⟨hc, hall⟩)
        · simpa using hc
    · rw [if_neg hc]
      simp only [true_iff]
      rintro taken rest hs hne hall
      obtain ⟨rfl, rfl⟩ | ⟨taken, rfl, rfl⟩ := List.cons_eq_append_iff.mp hs
      · exact absurd rfl hne
      · exact absurd (hall c List.mem_cons_self) hc

lemma takeGroup_eq_some {taken : List Char} {a : α} (h : takeGroup k read s = some (taken, a)) :
    ∃ rest, s = taken ++ rest ∧ taken ≠ [] ∧ (∀ c ∈ taken, k.admits c = true) ∧
      read rest = some a ∧
      ∀ longer left, s = longer ++ left → (∀ c ∈ longer, k.admits c = true) →
        taken.length < longer.length → read left = none := by
  induction s generalizing taken a with
  | nil => cases h
  | cons c s ih =>
    rw [takeGroup] at h
    split at h
    · next hc =>
      rcases Option.or_eq_some_iff.mp h with h | ⟨hnone, h⟩
      · obtain ⟨⟨taken, a⟩, htake, heq⟩ := Option.map_eq_some_iff.mp h
        cases heq
        obtain ⟨rest, rfl, hne, hall, hread, hmax⟩ := ih htake
        refine ⟨rest, rfl, List.cons_ne_nil _ _, List.forall_mem_cons.mpr ⟨hc, hall⟩, hread, ?_⟩
        intro longer left hs hlonger hlt
        obtain ⟨rfl, rfl⟩ | ⟨longer, rfl, hs⟩ := List.cons_eq_append_iff.mp hs
        · exact absurd hlt (Nat.not_lt_zero _)
        · exact hmax longer left (List.cons.inj hs).2
            (fun d hd => hlonger d (List.mem_cons_of_mem c hd)) (Nat.lt_of_succ_lt_succ hlt)
      · obtain ⟨a, hread, heq⟩ := Option.map_eq_some_iff.mp h
        cases heq
        refine ⟨s, rfl, List.cons_ne_nil _ _, by simpa using hc, hread, ?_⟩
        intro longer left hs hlonger hlt
        obtain ⟨rfl, rfl⟩ | ⟨longer, rfl, hs⟩ := List.cons_eq_append_iff.mp hs
        · exact absurd hlt (Nat.not_lt_zero _)
        · have hlonger' : longer ≠ [] := by
            rintro rfl
            exact absurd hlt (Nat.lt_irrefl _)
          exact takeGroup_eq_none_iff.mp (Option.map_eq_none_iff.mp hnone) longer left
            (List.cons.inj hs).2 hlonger' fun d hd => hlonger d (List.mem_cons_of_mem c hd)
    · cases h

end

/-! ### Patterns -/

section

variable {p : Pattern} {s : List Char} {groups groups' : List (List Char)}

/-- A pattern is read at the front of a text exactly when it stands there in some way. -/
lemma front?_eq_none_iff : front? p s = none ↔ ∀ groups, ¬Stands p s groups := by
  induction p generalizing s with
  | nil =>
    simp only [front?, reduceCtorEq, false_iff, not_forall, not_not]
    exact ⟨[], .nil s⟩
  | cons item items ih =>
    cases item with
    | plain t =>
      simp only [front?, stands_plain_iff, Option.bind_eq_none_iff, stripStart_eq_some_iff, ih]
      exact ⟨fun h groups ⟨rest, hs, hr⟩ => h rest hs groups hr,
        fun h rest hs groups hr => h groups ⟨rest, hs, hr⟩⟩
    | group k =>
      simp only [front?, stands_group_iff, Option.map_eq_none_iff, takeGroup_eq_none_iff, ih]
      constructor
      · rintro h groups ⟨taken, rest, more, hs, -, hne, hall, hr⟩
        exact h taken rest hs hne hall more hr
      · intro h taken rest hs hne hall more hr
        exact h _ ⟨taken, rest, more, hs, rfl, hne, hall, hr⟩

lemma stands_of_front? (h : front? p s = some groups) : Stands p s groups := by
  induction p generalizing s groups with
  | nil =>
    cases h
    exact .nil s
  | cons item items ih =>
    cases item with
    | plain t =>
      obtain ⟨rest, hstrip, hrest⟩ := Option.bind_eq_some_iff.mp h
      exact stands_plain_iff.mpr ⟨rest, stripStart_eq_some_iff.mp hstrip, ih hrest⟩
    | group k =>
      obtain ⟨⟨taken, more⟩, htake, rfl⟩ := Option.map_eq_some_iff.mp h
      obtain ⟨rest, rfl, hne, hall, hread, -⟩ := takeGroup_eq_some htake
      exact .group hne hall (ih hread)

lemma front?_longest (h : front? p s = some groups) (h' : Stands p s groups') :
    ¬List.Lex (· < ·) (groups.map List.length) (groups'.map List.length) := by
  induction p generalizing s groups groups' with
  | nil =>
    rw [stands_nil_iff.mp h', List.map_nil]
    exact List.not_lex_nil
  | cons item items ih =>
    cases item with
    | plain t =>
      obtain ⟨rest, hstrip, hrest⟩ := Option.bind_eq_some_iff.mp h
      obtain ⟨rest', hs', hr'⟩ := stands_plain_iff.mp h'
      have hs := stripStart_eq_some_iff.mp hstrip
      obtain rfl : rest' = rest := List.append_cancel_left (hs'.symm.trans hs)
      exact ih hrest hr'
    | group k =>
      obtain ⟨⟨taken, more⟩, htake, rfl⟩ := Option.map_eq_some_iff.mp h
      obtain ⟨rest, hs, -, -, hread, hmax⟩ := takeGroup_eq_some htake
      obtain ⟨taken', rest', more', hs', rfl, -, hall', hr'⟩ := stands_group_iff.mp h'
      have hle : taken'.length ≤ taken.length := by
        by_contra hlt
        exact front?_eq_none_iff.mp (hmax taken' rest' hs' hall' (by omega)) more' hr'
      rw [List.map_cons, List.map_cons, List.cons_lex_cons_iff]
      rintro (hlt | ⟨heq, hmore⟩)
      · omega
      · -- What is left is the same in both ways.
        have hrest : rest' = rest := (List.append_inj (hs'.symm.trans hs) heq.symm).2
        exact ih hread (hrest ▸ hr') hmore

/-- A search finds the leftmost place at which the pattern stands. -/
lemma search?_eq_some (h : search? p s = some groups) :
    ∃ skipped rest, s = skipped ++ rest ∧ front? p rest = some groups ∧
      ∀ before c after, skipped = before ++ c :: after → front? p (c :: (after ++ rest)) = none := by
  induction s with
  | nil => exact ⟨[], [], rfl, h, by simp⟩
  | cons d s ih =>
    rw [search?] at h
    rcases Option.or_eq_some_iff.mp h with h | ⟨hnone, h⟩
    · exact ⟨[], d :: s, rfl, h, by simp⟩
    · obtain ⟨skipped, rest, rfl, hfront, hleft⟩ := ih h
      refine ⟨d :: skipped, rest, rfl, hfront, ?_⟩
      intro before c after hs
      obtain ⟨rfl, hs⟩ | ⟨before, rfl, hs⟩ := List.cons_eq_append_iff.mp hs
      · cases hs
        exact hnone
      · exact hleft before c after (List.cons.inj hs).2

end

end HostedRepo.Text.Pattern
