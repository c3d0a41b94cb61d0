import HostedRepo.Command.Mapping
import HostedRepo.Proofs.TextParts
import Mathlib.Data.List.TakeWhile

/-!
# The remote side of mappings

A mapping takes `./` and then `/` off the front of the path in the repository, once each. What is
left never starts with a slash. It starts with `./` exactly if this stood behind a slash, and then
it is not the path that the other ways to write it lead to.
-/

namespace HostedRepo.Mapping

/-! ### Sides -/

/-- The two sides of a mapping: what stands before and behind the first equals sign, or the whole
text on both if there is none. -/
def Sides (text source target : List Char) : Prop :=
  ('=' ∉ text ∧ source = text ∧ target = text) ∨ ('=' ∉ source ∧ text = source ++ '=' :: target)

lemma splitOnce_eq_iff {text source target : List Char} :
    (Text.splitOnce '=' text).getD (text, text) = (source, target) ↔ Sides text source target := by
  unfold Sides
  by_cases h : '=' ∈ text
  · obtain ⟨s, t, rfl, hs⟩ := List.eq_append_cons_of_mem h
    rw [Text.splitOnce_append hs, Option.getD_some, Prod.mk.injEq]
    constructor
    · rintro ⟨rfl, rfl⟩
      exact .inr ⟨hs, rfl⟩
    · rintro (⟨hnone, -⟩ | ⟨hsource, heq⟩)
      · exact absurd h hnone
      · exact (Text.append_sep_inj hs hsource).mp heq
  · rw [Text.splitOnce_eq_none h, Option.getD_none, Prod.mk.injEq]
    constructor
    · rintro ⟨rfl, rfl⟩
      exact .inl ⟨h, rfl, rfl⟩
    · rintro (⟨-, rfl, rfl⟩ | ⟨-, rfl⟩)
      · exact ⟨rfl, rfl⟩
      · simp at h

lemma Sides.unique {text source source' target target' : List Char} (h : Sides text source target)
    (h' : Sides text source' target') : source = source' ∧ target = target' := by
  rw [← splitOnce_eq_iff] at h h'
  exact Prod.mk.inj (h.symm.trans h')

lemma parse_of_sides {text : String} {source target : List Char}
    (h : Sides text.toList source target) :
    parse text = if source = [] ∨ normalized target = [] then .error (.mapping text)
      else .ok ⟨String.ofList source, String.ofList (normalized target)⟩ := by
  unfold parse
  rw [splitOnce_eq_iff.mpr h]

lemma parse_eq_ok {text : String} {m : Mapping} (h : parse text = .ok m) :
    ∃ target, Sides text.toList m.source.toList target ∧ normalized target ≠ [] ∧
      m.remote.toList = normalized target := by
  obtain ⟨⟨source, target⟩, hcut⟩ :
      ∃ sides, (Text.splitOnce '=' text.toList).getD (text.toList, text.toList) = sides := ⟨_, rfl⟩
  have hsides : Sides text.toList source target := splitOnce_eq_iff.mp hcut
  rw [parse_of_sides hsides] at h
  split at h
  · cases h
  · next hfull =>
    cases h
    refine ⟨target, ?_, fun hempty => hfull (.inr hempty), String.toList_ofList⟩
    rw [String.toList_ofList]
    exact hsides

lemma remote_of_sides {text : String} {m : Mapping} {target : List Char} (h : parse text = .ok m)
    (hsides : Sides text.toList m.source.toList target) : m.remote.toList = normalized target := by
  obtain ⟨target', hsides', -, hremote⟩ := parse_eq_ok h
  rw [hremote, (hsides'.unique hsides).2]

/-! ### What is taken off -/

/-- Neither `/` nor `./` stands in front. -/
def Bare (s : List Char) : Prop := ¬['/'] <+: s ∧ ¬['.', '/'] <+: s

lemma dropDots_of_not_prefix {s : List Char} (h : ¬['.', '/'] <+: s) : dropDots s = s := by
  unfold dropDots
  split
  · exact absurd (by simp) h
  · rfl

lemma dropSlashes_of_not_prefix {s : List Char} (h : ¬['/'] <+: s) :
    s.dropWhile (· = '/') = s := by
  cases s with
  | nil => rfl
  | cons c s =>
    have hne : c ≠ '/' := by
      rintro rfl
      exact h (by simp)
    simp [hne]

lemma dropDots_suffix (s : List Char) : dropDots s <:+ s := by
  fun_induction dropDots s with
  | case1 s ih => exact ih.trans (List.suffix_append ['.', '/'] s)
  | case2 s => exact List.suffix_rfl

lemma normalized_suffix (s : List Char) : normalized s <:+ s :=
  (List.dropWhile_suffix _).trans (dropDots_suffix s)

lemma slash_not_prefix_normalized (s : List Char) : ¬['/'] <+: normalized s := by
  rintro ⟨t, ht⟩
  have hhead := List.head?_dropWhile_not (· = '/') (dropDots s)
  have hslash : ((dropDots s).dropWhile (· = '/')).head? = some '/' := congrArg List.head? ht.symm
  rw [hslash] at hhead
  simp at hhead

lemma normalized_eq_self_iff {s : List Char} : normalized s = s ↔ Bare s := by
  constructor
  · intro h
    refine ⟨fun hslash => slash_not_prefix_normalized s (h.symm ▸ hslash), ?_⟩
    rintro ⟨t, rfl⟩
    have hlength : (normalized t).length ≤ t.length := (normalized_suffix t).length_le
    have hall : normalized t = ['.', '/'] ++ t := h
    rw [hall, List.length_append, List.length_cons] at hlength
    omega
  · rintro ⟨hslash, hdot⟩
    rw [normalized, dropDots_of_not_prefix hdot, dropSlashes_of_not_prefix hslash]

/-! ### Leading texts -/

/-- A text of nothing but `./` and `/`. -/
inductive Leading : List Char → Prop
  | nil : Leading []
  | dot {s : List Char} (h : Leading s) : Leading ('.' :: '/' :: s)
  | slash {s : List Char} (h : Leading s) : Leading ('/' :: s)

/-- Every `./` comes before the slashes that stand alone. -/
def DotsFirst (lead : List Char) : Prop :=
  ∃ k m, lead = (List.replicate k ['.', '/']).flatten ++ List.replicate m '/'

lemma exists_leading (s : List Char) :
    ∃ lead rest, s = lead ++ rest ∧ Leading lead ∧ Bare rest := by
  by_cases hslash : ['/'] <+: s
  · obtain ⟨t, rfl⟩ := hslash
    obtain ⟨lead, rest, rfl, hlead, hbare⟩ := exists_leading t
    exact ⟨'/' :: lead, rest, rfl, .slash hlead, hbare⟩
  · by_cases hdot : ['.', '/'] <+: s
    · obtain ⟨t, rfl⟩ := hdot
      obtain ⟨lead, rest, rfl, hlead, hbare⟩ := exists_leading t
      exact ⟨'.' :: '/' :: lead, rest, rfl, .dot hlead, hbare⟩
    · exact ⟨[], s, rfl, .nil, hslash, hdot⟩
termination_by s.length

lemma exists_dropDots (s : List Char) :
    ∃ k, s = (List.replicate k ['.', '/']).flatten ++ dropDots s := by
  fun_induction dropDots s with
  | case1 s ih =>
    obtain ⟨k, hk⟩ := ih
    refine ⟨k + 1, ?_⟩
    rw [List.replicate_succ, List.flatten_cons, List.append_assoc, ← hk]
    rfl
  | case2 s => exact ⟨0, rfl⟩

lemma dropDots_replicate (k : Nat) {s : List Char} (h : ¬['.', '/'] <+: s) :
    dropDots ((List.replicate k ['.', '/']).flatten ++ s) = s := by
  induction k with
  | zero => exact dropDots_of_not_prefix h
  | succ k ih =>
    rw [List.replicate_succ, List.flatten_cons, List.append_assoc]
    exact ih

lemma normalized_eq_nil_iff {lead : List Char} : normalized lead = [] ↔ DotsFirst lead := by
  constructor
  · intro h
    obtain ⟨k, hk⟩ := exists_dropDots lead
    refine ⟨k, (dropDots lead).length, hk.trans ?_⟩
    have hall : ∀ c ∈ dropDots lead, c = '/' := by
      simpa [normalized, List.dropWhile_eq_nil_iff] using h
    rw [← List.eq_replicate_of_mem hall]
  · rintro ⟨k, m, rfl⟩
    have hdot : ¬['.', '/'] <+: List.replicate m '/' := by
      intro h
      have hmem : '.' ∈ List.replicate m '/' := h.subset (by simp)
      cases List.eq_of_mem_replicate hmem
    rw [normalized, dropDots_replicate k hdot]
    simp

namespace Leading

variable {lead rest : List Char}

lemma dropDots (h : Leading lead) : Leading (dropDots lead) := by
  induction h with
  | nil => exact .nil
  | dot _ ih => exact ih
  | slash h _ => exact .slash h

lemma dropDots_append (h : Leading lead) (hrest : Bare rest) :
    Mapping.dropDots (lead ++ rest) = Mapping.dropDots lead ++ rest := by
  induction h with
  | nil => exact dropDots_of_not_prefix hrest.2
  | dot _ ih => exact ih
  | slash _ _ => rfl

lemma dropSlashes (h : Leading lead) : Leading (lead.dropWhile (· = '/')) := by
  induction h with
  | nil => exact .nil
  | dot h _ => exact .dot h
  | slash _ ih => exact ih

lemma dropSlashes_append (h : Leading lead) (hrest : Bare rest) :
    (lead ++ rest).dropWhile (· = '/') = lead.dropWhile (· = '/') ++ rest := by
  induction h with
  | nil => exact dropSlashes_of_not_prefix hrest.1
  | dot _ _ => rfl
  | slash _ ih => exact ih

lemma normalized_append (h : Leading lead) (hrest : Bare rest) :
    normalized (lead ++ rest) = normalized lead ++ rest := by
  rw [normalized, h.dropDots_append hrest, h.dropDots.dropSlashes_append hrest, normalized]

/-- What is left of a leading text is nothing, or it starts with `./`. -/
lemma normalized_cases (h : Leading lead) :
    normalized lead = [] ∨ ['.', '/'] <+: normalized lead := by
  have hleft : Leading (normalized lead) := h.dropDots.dropSlashes
  have hslash : ¬['/'] <+: normalized lead := slash_not_prefix_normalized lead
  generalize normalized lead = left at hleft hslash
  cases hleft with
  | nil => exact .inl rfl
  | dot _ => exact .inr (by simp)
  | slash _ => exact absurd (by simp) hslash

lemma normalized_append_eq_iff (h : Leading lead) (hrest : Bare rest) :
    normalized (lead ++ rest) = rest ↔ DotsFirst lead := by
  rw [h.normalized_append hrest, List.append_left_eq_self, normalized_eq_nil_iff]

lemma bare_normalized_iff (h : Leading lead) (hrest : Bare rest) :
    Bare (normalized (lead ++ rest)) ↔ DotsFirst lead := by
  rw [← normalized_eq_nil_iff, h.normalized_append hrest]
  constructor
  · intro hbare
    obtain hnil | hdot := h.normalized_cases
    · exact hnil
    · exact absurd (hdot.trans (List.prefix_append _ rest)) hbare.2
  · intro hnil
    rw [hnil]
    exact hrest

end Leading

/-! ### Mappings -/

lemma parse_again_iff {remote : String} (h : remote ≠ "") :
    parse ("x=" ++ remote) = .ok ⟨"x", remote⟩ ↔ Bare remote.toList := by
  have hsides : Sides ("x=" ++ remote).toList ['x'] remote.toList :=
    .inr ⟨by decide, String.toList_append⟩
  rw [parse_of_sides hsides, ← normalized_eq_self_iff]
  constructor
  · intro hparse
    split at hparse
    · cases hparse
    · have hremote : String.ofList (normalized remote.toList) = remote :=
        (Mapping.mk.inj (Except.ok.inj hparse)).2
      exact String.toList_ofList.symm.trans (congrArg String.toList hremote)
  · intro hself
    have hne : remote.toList ≠ [] := fun hnil => h (String.toList_eq_nil_iff.mp hnil)
    rw [hself, if_neg (by simpa using hne), String.ofList_toList]

/-- The local side of a mapping that is read is the text before the first equals sign. Its remote
side is never empty and never starts with a slash. If in the text every `./` in front of the path
comes before the slashes that stand alone, and only then, the remote side does not start with `./`
and is read again as it is. Two mappings whose texts differ in front of the path only have the same
remote side if this holds of both, and if it holds of one only then they have not. -/
theorem parse_remote_bare {text : String} {m : Mapping} (h : parse text = .ok m) :
    ∃ lead rest, Sides text.toList m.source.toList (lead ++ rest) ∧ Leading lead ∧ Bare rest ∧
      m.remote ≠ "" ∧ ¬['/'] <+: m.remote.toList ∧
      (¬['.', '/'] <+: m.remote.toList ↔ DotsFirst lead) ∧
      (parse ("x=" ++ m.remote) = .ok ⟨"x", m.remote⟩ ↔ DotsFirst lead) ∧
      ∀ text' m' lead', parse text' = .ok m' →
        Sides text'.toList m'.source.toList (lead' ++ rest) → Leading lead' →
          DotsFirst lead → (m'.remote = m.remote ↔ DotsFirst lead') := by
  obtain ⟨target, hsides, hfull, hremote⟩ := parse_eq_ok h
  obtain ⟨lead, rest, rfl, hlead, hrest⟩ := exists_leading target
  have hslash : ¬['/'] <+: m.remote.toList := by
    rw [hremote]
    exact slash_not_prefix_normalized _
  have hbare : Bare m.remote.toList ↔ DotsFirst lead := by
    rw [hremote]
    exact hlead.bare_normalized_iff hrest
  have hne : m.remote ≠ "" := by
    intro hempty
    rw [hempty] at hremote
    exact hfull hremote.symm
  refine ⟨lead, rest, hsides, hlead, hrest, hne, hslash, ?_, ?_, ?_⟩
  · rw [← hbare]
    exact ⟨fun hdot => ⟨hslash, hdot⟩, And.right⟩
  · rw [parse_again_iff hne]
    exact hbare
  · intro text' m' lead' h' hsides' hlead' hfirst
    have hrest' : m.remote.toList = rest :=
      hremote.trans ((hlead.normalized_append_eq_iff hrest).mpr hfirst)
    rw [← hlead'.normalized_append_eq_iff hrest, ← remote_of_sides h' hsides', ← hrest',
      String.toList_inj]

/-- A path that is written with two dots in front and two slashes behind them. -/
theorem parse_remote_bare_slashes :
    parse "build/a=././/idl/a" = .ok ⟨"build/a", "idl/a"⟩ ∧
      ∃ lead rest, Sides "build/a=././/idl/a".toList "build/a".toList (lead ++ rest) ∧
        Leading lead ∧ Bare rest ∧ (¬['.', '/'] <+: "idl/a".toList ↔ DotsFirst lead) := by
  have h : parse "build/a=././/idl/a" = .ok ⟨"build/a", "idl/a"⟩ := by decide +kernel
  obtain ⟨lead, rest, hsides, hlead, hrest, -, -, hdot, -⟩ := parse_remote_bare h
  exact ⟨h, lead, rest, hsides, hlead, hrest, hdot⟩

/-- A `./` behind a slash stays. It would be taken off if the remote side were read again, and the
path without both is another one. -/
theorem parse_keeps_dot :
    parse "x=/./a" = .ok ⟨"x", "./a"⟩ ∧ ['.', '/'] <+: "./a".toList ∧
      parse ("x=" ++ "./a") = .ok ⟨"x", "a"⟩ ∧ parse "x=a" = .ok ⟨"x", "a"⟩ := by
  decide +kernel

end HostedRepo.Mapping
