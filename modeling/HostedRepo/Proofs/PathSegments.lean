import HostedRepo.Proofs.TextParts
import HostedRepo.Url.Segments

/-!
# Segments of a path

What is put into a path part by part only makes it longer. A part that is no dot segment, and has
no line break or tab that could make it one, becomes the last segment. So two texts name the same
place below a path only if nothing but the parts that do not count stands between them.
-/

namespace HostedRepo

namespace Url

namespace Percent

lemma percent_mem_char (c : Char) : '%' ∈ char c := by
  unfold char
  have hlen : 0 < (String.utf8EncodeChar c).length := by
    rw [String.length_utf8EncodeChar]
    exact Char.utf8Size_pos c
  cases hb : String.utf8EncodeChar c with
  | nil => simp [hb] at hlen
  | cons b bs => simp [byte]

lemma encode_eq_self {set : Char → Bool} {s : List Char} (h : '%' ∉ encode set s) :
    encode set s = s := by
  have hplain : ∀ c ∈ s, set c = false := by
    intro c hc
    by_contra hset
    refine h (List.mem_flatMap.mpr ⟨c, hc, ?_⟩)
    rw [if_pos (by simpa using hset)]
    exact percent_mem_char c
  calc encode set s = s.flatMap fun c => [c] :=
        List.flatMap_congr fun c hc => by simp [hplain c hc]
    _ = s := List.flatMap_singleton' s

end Percent

/-! ### Parts -/

lemma segmentParts_append (s t : String) :
    segmentParts (s ++ "/" ++ t) = segmentParts s ++ segmentParts t := by
  have hlist : (s ++ "/" ++ t).toList = s.toList ++ '/' :: t.toList := by simp
  unfold segmentParts
  rw [hlist, Text.splitAt_append, List.filter_append]

/-- A line break or a tab, which a URL does without. -/
def isDropped (c : Char) : Bool := c = '\t' ∨ c = '\n' ∨ c = '\r'

/-- A text without line breaks and tabs. -/
def Unbroken (s : String) : Prop := ∀ c ∈ s.toList, isDropped c = false

instance (s : String) : Decidable (Unbroken s) :=
  List.decidableBAll _ _

/-- A part that is no dot segment when it reaches the URL. -/
structure Plain (special : Bool) (part : List Char) : Prop where
  ne_up : segmentText special part ≠ ['.', '.']
  ne_here : segmentText special part ≠ ['.']

lemma filter_eq_self_of_unbroken {part : List Char} (h : ∀ c ∈ part, isDropped c = false) :
    part.filter (fun c => c ≠ '\t' ∧ c ≠ '\n' ∧ c ≠ '\r') = part :=
  List.filter_eq_self.mpr fun c hc => by simpa [isDropped] using h c hc

lemma segmentText_eq_self {special : Bool} {part : List Char}
    (hpart : ∀ c ∈ part, isDropped c = false) (h : '%' ∉ segmentText special part) :
    segmentText special part = part := by
  unfold segmentText at h ⊢
  rw [filter_eq_self_of_unbroken hpart] at h ⊢
  exact Percent.encode_eq_self h

lemma plain_of_mem_segmentParts (special : Bool) {s : String} {part : List Char}
    (hs : Unbroken s) (h : part ∈ segmentParts s) :
    Plain special part := by
  obtain ⟨hsplit, hkept⟩ := List.mem_filter.mp h
  have hdropped : ∀ c ∈ part, isDropped c = false :=
    fun c hc => hs c (Text.mem_of_mem_splitAt hsplit hc)
  have hne : part ≠ [] ∧ part ≠ ['.'] ∧ part ≠ ['.', '.'] := by simpa using hkept
  constructor
  · intro htext
    exact hne.2.2 ((segmentText_eq_self hdropped (by simp [htext])).symm.trans htext)
  · intro htext
    exact hne.2.1 ((segmentText_eq_self hdropped (by simp [htext])).symm.trans htext)

/-! ### Putting parts into a path -/

variable (special : Bool) {parts : List String}

lemma pushAll_append (parts texts : List String) (s : String) :
    pushAll special parts (texts ++ [s]) =
      (segmentParts s).foldl (pushPart special) (pushAll special parts texts) := by
  simp [pushAll, List.flatMap_append]

lemma pushPart_plain {part : List Char} (hplain : Plain special part) (h : parts ≠ [""]) :
    pushPart special parts part = parts ++ [String.ofList (segmentText special part)] := by
  unfold pushPart
  rw [if_neg hplain.ne_up, if_neg hplain.ne_here, if_neg h]

/-- A part leaves an empty last segment, or adds one segment. -/
lemma pushPart_cases (part : List Char) (h : parts ≠ [""]) :
    (pushPart special parts part).getLast? = some "" ∧
        parts.length ≤ (pushPart special parts part).length ∨
      (pushPart special parts part).length = parts.length + 1 := by
  unfold pushPart
  rw [if_neg h]
  dsimp only
  split
  · left
    simp
    omega
  · split
    · right
      simp
    · right
      simp

lemma length_le_foldl_pushPart (ps : List (List Char)) (h : 2 ≤ parts.length) :
    parts.length ≤ (ps.foldl (pushPart special) parts).length := by
  induction ps generalizing parts with
  | nil => exact Nat.le_refl _
  | cons part ps ih =>
    have hne : parts ≠ [""] := by
      rintro rfl
      simp at h
    have hstep : parts.length ≤ (pushPart special parts part).length := by
      rcases pushPart_cases special part hne with ⟨-, hle⟩ | hlen <;> omega
    exact Nat.le_trans hstep (ih (by omega))

/-- A path that ends with a name stays itself only if there are no parts. -/
theorem foldl_pushPart_eq_self_iff {name : String} (ps : List (List Char))
    (h : 2 ≤ parts.length) (hlast : parts.getLast? = some name) (hname : name ≠ "") :
    ps.foldl (pushPart special) parts = parts ↔ ps = [] := by
  refine ⟨fun heq => ?_, fun hps => by rw [hps]; rfl⟩
  rcases List.eq_nil_or_concat ps with rfl | ⟨before, part, rfl⟩
  · rfl
  · exfalso
    rw [List.concat_eq_append, List.foldl_append, List.foldl_cons, List.foldl_nil] at heq
    have hlen := length_le_foldl_pushPart special before h
    have hne : before.foldl (pushPart special) parts ≠ [""] := by
      intro hempty
      rw [hempty] at hlen
      simp at hlen
      omega
    rcases pushPart_cases special part hne with ⟨hempty, -⟩ | hlonger
    · rw [heq, hlast] at hempty
      exact hname (Option.some.inj hempty)
    · rw [heq] at hlonger
      omega

lemma foldl_pushPart_plain {ps : List (List Char)} (hplain : ∀ part ∈ ps, Plain special part)
    (hnil : parts ≠ []) (hne : parts ≠ [""]) :
    ps.foldl (pushPart special) parts =
      parts ++ ps.map fun part => String.ofList (segmentText special part) := by
  induction ps generalizing parts with
  | nil => simp
  | cons part ps ih =>
    have hlonger : parts ++ [String.ofList (segmentText special part)] ≠ [""] := by
      intro heq
      have hlen := congrArg List.length heq
      simp at hlen
      exact hnil hlen
    rw [List.foldl_cons, pushPart_plain special (hplain part List.mem_cons_self) hne,
      ih (fun p hp => hplain p (List.mem_cons_of_mem part hp)) (by simp) hlonger]
    simp

end Url
end HostedRepo
