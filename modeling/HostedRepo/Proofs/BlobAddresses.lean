import HostedRepo.BlobUrl
import HostedRepo.Proofs.PatternSearch
import HostedRepo.Proofs.TextParts

/-!
# Reading blob addresses

Which texts are blob addresses, in terms of the parts between slashes: the first place counts at
which owner, repository, `blob`, reference and a path stand in a row. What stands before this place
is passed over, so an address is accounted for as a whole only when nothing does.
-/

namespace HostedRepo

namespace BlobUrl

open Text

/-- The parts of a text between its slashes. -/
structure Splits (s : List Char) (parts : List (List Char)) : Prop where
  ne_nil : parts ≠ []
  join : joinWith '/' parts = s
  plain : ∀ part ∈ parts, '/' ∉ part

/-- From the `i`th part on stand owner, repository, `blob`, a reference and parts that make up a
path, and none of these is empty. -/
structure StandsAt (parts : List (List Char)) (i : Nat) (owner repo reference : List Char)
    (more : List (List Char)) : Prop where
  row : parts.drop i = owner :: repo :: "blob".toList :: reference :: more
  owner_ne : owner ≠ []
  repo_ne : repo ≠ []
  reference_ne : reference ≠ []
  path_ne : joinWith '/' more ≠ []
  path_line : (joinWith '/' more).head? ≠ some '\n'

def Occurs (parts : List (List Char)) (i : Nat) : Prop :=
  ∃ owner repo reference more, StandsAt parts i owner repo reference more

/-- A text that starts with owner, repository, `blob` and reference, and goes on with a path. -/
structure Reads (s owner repo reference path : List Char) : Prop where
  text : s = owner ++ '/' :: (repo ++ '/' :: ("blob".toList ++ '/' :: (reference ++ '/' :: path)))
  owner_ne : owner ≠ []
  repo_ne : repo ≠ []
  reference_ne : reference ≠ []
  owner_plain : '/' ∉ owner
  repo_plain : '/' ∉ repo
  reference_plain : '/' ∉ reference

/-! ### Parts -/

section

variable {s : List Char} {parts : List (List Char)}

lemma splits_splitAt (s : List Char) : Splits s (splitAt '/' s) :=
  ⟨splitAt_ne_nil '/' s, joinWith_splitAt '/' s, fun _ h => sep_notMem_of_mem_splitAt h⟩

lemma Splits.tail {part : List Char} (h : Splits s (part :: parts)) (hne : parts ≠ []) :
    s = part ++ '/' :: joinWith '/' parts ∧ Splits (joinWith '/' parts) parts := by
  refine ⟨?_, hne, rfl, fun p hp => h.plain p (List.mem_cons_of_mem part hp)⟩
  rw [← h.join, joinWith_cons hne]

lemma Splits.unique (h : Splits s parts) : parts = splitAt '/' s := by
  induction parts generalizing s with
  | nil => exact absurd rfl h.ne_nil
  | cons part parts ih =>
    have hpart := h.plain part List.mem_cons_self
    by_cases hne : parts = []
    · subst hne
      rw [← h.join, joinWith, splitAt_eq_singleton hpart]
    · obtain ⟨hs, htail⟩ := h.tail hne
      rw [hs, splitAt_append, splitAt_eq_singleton hpart, ← ih htail, List.singleton_append]

lemma takeWhile_line_ne_nil_iff {path : List Char} :
    path.takeWhile (· ≠ '\n') ≠ [] ↔ path ≠ [] ∧ path.head? ≠ some '\n' := by
  cases path with
  | nil => simp
  | cons c path =>
    by_cases hc : c = '\n'
    · simp [hc]
    · simp [hc]

lemma standsAt_zero_iff {owner repo reference : List Char} {more : List (List Char)}
    (h : Splits s parts) : StandsAt parts 0 owner repo reference more ↔
      Splits (joinWith '/' more) more ∧ Reads s owner repo reference (joinWith '/' more) ∧
        (joinWith '/' more).takeWhile (· ≠ '\n') ≠ [] := by
  rw [takeWhile_line_ne_nil_iff]
  constructor
  · rintro ⟨hrow, howner, hrepo, hreference, hpath, hline⟩
    rw [List.drop_zero] at hrow
    subst hrow
    have hmore : more ≠ [] := by
      rintro rfl
      exact hpath rfl
    obtain ⟨hs, h₁⟩ := h.tail (by simp)
    obtain ⟨hs₁, h₂⟩ := h₁.tail (by simp)
    obtain ⟨hs₂, h₃⟩ := h₂.tail (by simp)
    obtain ⟨hs₃, h₄⟩ := h₃.tail hmore
    refine ⟨h₄, ⟨?_, howner, hrepo, hreference, ?_, ?_, ?_⟩, hpath, hline⟩
    · rw [hs, hs₁, hs₂, hs₃]
    · exact h.plain _ List.mem_cons_self
    · exact h₁.plain _ List.mem_cons_self
    · exact h₃.plain _ List.mem_cons_self
  · rintro ⟨hmore, hreads, hpath, hline⟩
    refine ⟨?_, hreads.owner_ne, hreads.repo_ne, hreads.reference_ne, hpath, hline⟩
    have hblob : '/' ∉ "blob".toList := by decide
    rw [List.drop_zero, h.unique, hreads.text, splitAt_append, splitAt_append, splitAt_append,
      splitAt_append, splitAt_eq_singleton hreads.owner_plain,
      splitAt_eq_singleton hreads.repo_plain, splitAt_eq_singleton hblob,
      splitAt_eq_singleton hreads.reference_plain, ← hmore.unique]
    rfl

lemma standsAt_succ_iff {part owner repo reference : List Char} {more : List (List Char)} {i : Nat} :
    StandsAt (part :: parts) (i + 1) owner repo reference more ↔
      StandsAt parts i owner repo reference more := by
  constructor
  · rintro ⟨hrow, howner, hrepo, hreference, hpath, hline⟩
    exact ⟨hrow, howner, hrepo, hreference, hpath, hline⟩
  · rintro ⟨hrow, howner, hrepo, hreference, hpath, hline⟩
    exact ⟨hrow, howner, hrepo, hreference, hpath, hline⟩

end

/-! ### The pattern -/

section

variable {s owner repo reference path : List Char} {groups : List (List Char)}

lemma forall_admits_except_iff {taken : List Char} {sep : Char} :
    (∀ c ∈ taken, (CharClass.except sep).admits c = true) ↔ sep ∉ taken := by
  simp only [CharClass.admits, bne_iff_ne]
  exact ⟨fun h hmem => h sep hmem rfl, fun h c hc heq => h (heq ▸ hc)⟩

lemma Reads.stands (h : Reads s owner repo reference path)
    (hline : path.takeWhile (· ≠ '\n') ≠ []) :
    Pattern.Stands form s [owner, repo, reference, path.takeWhile (· ≠ '\n')] := by
  have hall : ∀ c ∈ path.takeWhile (· ≠ '\n'), CharClass.inLine.admits c = true := by
    intro c hc
    have hne := List.all_eq_true.mp List.all_takeWhile c hc
    simpa [CharClass.admits] using hne
  have hpath : path.takeWhile (· ≠ '\n') ++ path.dropWhile (· ≠ '\n') = path :=
    List.takeWhile_append_dropWhile
  have hstands : Pattern.Stands [.group .inLine] path [path.takeWhile (· ≠ '\n')] := by
    have h := Pattern.Stands.group hline hall (.nil (path.dropWhile (· ≠ '\n')))
    rwa [hpath] at h
  rw [h.text]
  refine .group h.owner_ne (forall_admits_except_iff.mpr h.owner_plain) (.plain (t := "/") ?_)
  refine .group h.repo_ne (forall_admits_except_iff.mpr h.repo_plain) (.plain (t := "/blob/") ?_)
  exact .group h.reference_ne (forall_admits_except_iff.mpr h.reference_plain)
    (.plain (t := "/") hstands)

lemma exists_reads (h : Pattern.Stands form s groups) :
    ∃ owner repo reference line rest, Reads s owner repo reference (line ++ rest) ∧
      line ≠ [] ∧ (∀ c ∈ line, c ≠ '\n') ∧ groups = [owner, repo, reference, line] := by
  unfold form at h
  simp only [Pattern.stands_group_iff, Pattern.stands_plain_iff, Pattern.stands_nil_iff,
    forall_admits_except_iff] at h
  obtain ⟨owner, _, _, rfl, rfl, howner, hplain, _, rfl, h⟩ := h
  obtain ⟨repo, _, _, rfl, rfl, hrepo, hplain₁, _, rfl, h⟩ := h
  obtain ⟨reference, _, _, rfl, rfl, hreference, hplain₂, _, rfl, h⟩ := h
  obtain ⟨line, rest, _, rfl, rfl, hline, hall, rfl⟩ := h
  refine ⟨owner, repo, reference, line, rest, ?_, hline, ?_, rfl⟩
  · exact ⟨rfl, howner, hrepo, hreference, hplain, hplain₁, hplain₂⟩
  · intro c hc
    simpa [CharClass.admits] using hall c hc

/-- A text reads in one way only. -/
lemma Reads.unique {owner' repo' reference' path' : List Char}
    (h : Reads s owner repo reference path) (h' : Reads s owner' repo' reference' path') :
    owner = owner' ∧ repo = repo' ∧ reference = reference' ∧ path = path' := by
  have htext := h.text.symm.trans h'.text
  obtain ⟨howner, htext⟩ := (append_sep_inj h.owner_plain h'.owner_plain).mp htext
  obtain ⟨hrepo, htext⟩ := (append_sep_inj h.repo_plain h'.repo_plain).mp htext
  have hblob : '/' ∉ "blob".toList := by decide
  obtain ⟨-, htext⟩ := (append_sep_inj hblob hblob).mp htext
  obtain ⟨hreference, hpath⟩ := (append_sep_inj h.reference_plain h'.reference_plain).mp htext
  exact ⟨howner, hrepo, hreference, hpath⟩

lemma front?_form_eq_some_iff : Pattern.front? form s = some groups ↔
    ∃ owner repo reference path, Reads s owner repo reference path ∧
      path.takeWhile (· ≠ '\n') ≠ [] ∧
      groups = [owner, repo, reference, path.takeWhile (· ≠ '\n')] := by
  have hread : ∀ {groups}, Pattern.front? form s = some groups →
      ∃ owner repo reference path, Reads s owner repo reference path ∧
        path.takeWhile (· ≠ '\n') ≠ [] ∧
        groups = [owner, repo, reference, path.takeWhile (· ≠ '\n')] := by
    intro groups h
    obtain ⟨owner, repo, reference, line, rest, hreads, hline, hall, rfl⟩ :=
      exists_reads (Pattern.stands_of_front? h)
    have htake : (line ++ rest).takeWhile (· ≠ '\n') = line ++ rest.takeWhile (· ≠ '\n') :=
      List.takeWhile_append_of_pos fun c hc => decide_eq_true (hall c hc)
    have hne : (line ++ rest).takeWhile (· ≠ '\n') ≠ [] := by
      rw [htake]
      exact List.append_ne_nil_of_left_ne_nil hline _
    refine ⟨owner, repo, reference, line ++ rest, hreads, hne, ?_⟩
    have hlongest := Pattern.front?_longest h (hreads.stands hne)
    rw [htake] at hlongest ⊢
    cases hrest : rest.takeWhile (· ≠ '\n') with
    | nil => rw [List.append_nil]
    | cons c more =>
      rw [hrest] at hlongest
      simp [List.cons_lex_cons_iff] at hlongest
  constructor
  · exact hread
  · rintro ⟨owner, repo, reference, path, hreads, hline, rfl⟩
    cases h : Pattern.front? form s with
    | none => exact absurd (hreads.stands hline) (Pattern.front?_eq_none_iff.mp h _)
    | some groups =>
      obtain ⟨owner', repo', reference', path', hreads', -, rfl⟩ := hread h
      obtain ⟨rfl, rfl, rfl, rfl⟩ := hreads.unique hreads'
      rfl

end

/-! ### The search -/

section

variable {s : List Char} {parts : List (List Char)} {groups : List (List Char)}

lemma front?_form_of_cons {c : Char} (hc : c ≠ '/') (h : Pattern.front? form (c :: s) = none) :
    Pattern.front? form s = none := by
  cases hs : Pattern.front? form s with
  | none => rfl
  | some groups =>
    obtain ⟨owner, repo, reference, path, hreads, hline, -⟩ := front?_form_eq_some_iff.mp hs
    have hreads' : Reads (c :: s) (c :: owner) repo reference path := by
      refine ⟨by rw [hreads.text]; rfl, List.cons_ne_nil _ _, hreads.repo_ne, hreads.reference_ne,
        ?_, hreads.repo_plain, hreads.reference_plain⟩
      exact List.not_mem_cons_of_ne_of_not_mem (Ne.symm hc) hreads.owner_plain
    rw [front?_form_eq_some_iff.mpr ⟨_, _, _, _, hreads', hline, rfl⟩] at h
    cases h

lemma search?_form_append {part : List Char} (h : '/' ∉ part) :
    Pattern.search? form (part ++ '/' :: s) =
      (Pattern.front? form (part ++ '/' :: s)).or (Pattern.search? form s) := by
  induction part with
  | nil => rfl
  | cons c part ih =>
    have hc : '/' ≠ c := List.ne_of_not_mem_cons h
    have hpart : '/' ∉ part := List.not_mem_of_not_mem_cons h
    rw [List.cons_append, Pattern.search?, ih hpart]
    cases hfront : Pattern.front? form (c :: (part ++ '/' :: s)) with
    | some groups => rfl
    | none => rw [front?_form_of_cons (Ne.symm hc) hfront, Option.none_or]

lemma search?_form_part {part : List Char} (h : '/' ∉ part) :
    Pattern.search? form part = none := by
  have hfront : ∀ s, '/' ∉ s → Pattern.front? form s = none := by
    intro s hs
    cases hf : Pattern.front? form s with
    | none => rfl
    | some groups =>
      obtain ⟨owner, repo, reference, path, hreads, -⟩ := front?_form_eq_some_iff.mp hf
      rw [hreads.text] at hs
      simp at hs
  induction part with
  | nil => exact hfront [] List.not_mem_nil
  | cons c part ih =>
    rw [Pattern.search?, hfront _ h, Option.none_or]
    exact ih (List.not_mem_of_not_mem_cons h)

/-- The search finds the first of the parts at which an address stands. -/
lemma search?_form (h : Splits s parts) :
    (∃ i owner repo reference more, StandsAt parts i owner repo reference more ∧
      (∀ j < i, ¬Occurs parts j) ∧ Pattern.search? form s =
        some [owner, repo, reference, (joinWith '/' more).takeWhile (· ≠ '\n')]) ∨
    (∀ i, ¬Occurs parts i) ∧ Pattern.search? form s = none := by
  induction parts generalizing s with
  | nil => exact absurd rfl h.ne_nil
  | cons part parts ih =>
    have hpart := h.plain part List.mem_cons_self
    by_cases hne : parts = []
    · subst hne
      obtain rfl : part = s := h.join
      refine .inr ⟨?_, search?_form_part hpart⟩
      rintro i ⟨owner, repo, reference, more, hrow, -⟩
      have hlen := congrArg List.length hrow
      simp only [List.length_drop, List.length_cons, List.length_nil] at hlen
      omega
    obtain ⟨hs, htail⟩ := h.tail hne
    -- Either the form stands at the first part, or all that counts lies behind the first slash.
    cases hfront : Pattern.front? form s with
    | some groups =>
      obtain ⟨owner, repo, reference, path, hreads, hline, rfl⟩ :=
        front?_form_eq_some_iff.mp hfront
      have hpath := splits_splitAt path
      refine .inl ⟨0, owner, repo, reference, splitAt '/' path, ?_, by simp, ?_⟩
      · rw [standsAt_zero_iff h, hpath.join]
        exact ⟨hpath, hreads, hline⟩
      · rw [hpath.join, hs, search?_form_append hpart, ← hs, hfront, Option.some_or]
    | none =>
      have hzero : ¬Occurs (part :: parts) 0 := by
        rintro ⟨owner, repo, reference, more, hstands⟩
        obtain ⟨-, hreads, hline⟩ := (standsAt_zero_iff h).mp hstands
        rw [front?_form_eq_some_iff.mpr ⟨_, _, _, _, hreads, hline, rfl⟩] at hfront
        cases hfront
      have hsearch : Pattern.search? form s = Pattern.search? form (joinWith '/' parts) := by
        rw [hs, search?_form_append hpart, ← hs, hfront, Option.none_or]
      have hsucc : ∀ i, Occurs (part :: parts) (i + 1) ↔ Occurs parts i := by
        intro i
        simp only [Occurs, standsAt_succ_iff]
      rw [hsearch]
      obtain ⟨i, owner, repo, reference, more, hstands, hleast, hfound⟩ | ⟨hnone, hfound⟩ := ih htail
      · refine .inl ⟨i + 1, owner, repo, reference, more, standsAt_succ_iff.mpr hstands, ?_, hfound⟩
        intro j hj
        cases j with
        | zero => exact hzero
        | succ j => exact fun hj' => hleast j (by omega) ((hsucc j).mp hj')
      · refine .inr ⟨?_, hfound⟩
        intro i
        cases i with
        | zero => exact hzero
        | succ i => exact fun hi => hnone i ((hsucc i).mp hi)

end

/-! ### Addresses -/

/-- Which texts are addresses, and what they name. A text without the beginning is none; in what
follows the beginning, up to the last question mark, the first place counts at which an address
stands among the parts between slashes. -/
theorem parse_decides (url : String) :
    (¬start.toList <+: url.toList ∧ parse url = .error .wrongStart) ∨
    ∃ rest cut parts, url.toList = start.toList ++ rest ∧ CutsLast '?' rest cut ∧
      Splits cut parts ∧
      ((∃ i owner repo reference more, StandsAt parts i owner repo reference more ∧
          (∀ j < i, ¬Occurs parts j) ∧
          parse url = .ok ⟨String.ofList ((joinWith '/' more).takeWhile (· ≠ '\n')),
            String.ofList owner, String.ofList repo⟩) ∨
        (∀ i, ¬Occurs parts i) ∧ parse url = .error .wrongForm) := by
  cases hstrip : stripStart start.toList url.toList with
  | none =>
    refine .inl ⟨?_, by rw [parse, hstrip]⟩
    rintro ⟨rest, hrest⟩
    rw [stripStart_eq_some_iff.mpr hrest.symm] at hstrip
    cases hstrip
  | some rest =>
    have hparts := splits_splitAt (beforeLast '?' rest)
    refine .inr ⟨rest, _, _, stripStart_eq_some_iff.mp hstrip, beforeLast_cutsLast '?' rest,
      hparts, ?_⟩
    obtain ⟨i, owner, repo, reference, more, hstands, hleast, hfound⟩ | ⟨hnone, hfound⟩ :=
      search?_form hparts
    · refine .inl ⟨i, owner, repo, reference, more, hstands, hleast, ?_⟩
      rw [parse, hstrip]
      dsimp only
      rw [hfound]
    · refine .inr ⟨hnone, ?_⟩
      rw [parse, hstrip]
      dsimp only
      rw [hfound]

end BlobUrl
end HostedRepo
