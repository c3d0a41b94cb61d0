import HostedRepo.Client.Contents
import HostedRepo.Proofs.CheckedNames
import HostedRepo.Proofs.EndpointPaths

/-!
# Paths below the repositories

Where the endpoints of a repository lie. Once a segment stands below the fixed one that all
repositories share, no part that follows takes the fixed one away. Only a name that becomes a dot
segment on its way into the URL can do so, as the first part that counts.
-/

namespace HostedRepo

namespace Url

/-- A URL with scheme, host and port of a root and a path below the repositories of that root. -/
structure Below (base u : Url) : Prop where
  scheme : u.scheme = base.scheme
  origin : u.origin = base.origin
  path : ∃ rest, u.pathString = stem base.pathString ++ "/repos/" ++ rest

lemma Below.withoutUserinfo {base u : Url} (h : Below base u) : Below base u.withoutUserinfo := by
  obtain ⟨scheme, authority, path, query, fragment⟩ := u
  cases authority <;> exact ⟨h.scheme, h.origin, h.path⟩

lemma Below.target {base u : Url} (h : Below base u) : Below base u.target :=
  ⟨h.withoutUserinfo.scheme, h.withoutUserinfo.origin, h.withoutUserinfo.path⟩

lemma Below.withPairs {base : Url} (query : List (String × String)) {u : Url} (h : Below base u) :
    Below base (query.foldl (fun u (name, value) => u.withPair name value) u) := by
  induction query generalizing u with
  | nil => exact h
  | cons pair query ih => exact ih ⟨h.scheme, h.origin, h.path⟩

/-! ### Parts that follow -/

section

variable (special : Bool) {below : List String}

lemma pushPart_below {tail : List String} (part : List Char) (hbelow : below ≠ [])
    (htail : tail ≠ []) :
    ∃ tail', tail' ≠ [] ∧ pushPart special (below ++ tail) part = below ++ tail' := by
  have hne : below ++ tail ≠ [""] := by
    intro heq
    have hlen := congrArg List.length heq
    have hpos := List.length_pos_iff.mpr hbelow
    have hpos' := List.length_pos_iff.mpr htail
    simp at hlen
    omega
  unfold pushPart
  rw [if_neg hne]
  dsimp only
  split
  · refine ⟨tail.dropLast ++ [""], by simp, ?_⟩
    rw [List.dropLast_append_of_ne_nil htail, List.append_assoc]
  · split
    · exact ⟨tail ++ [""], by simp, by rw [List.append_assoc]⟩
    · exact ⟨tail ++ [String.ofList (segmentText special part)], by simp,
        by rw [List.append_assoc]⟩

lemma foldl_pushPart_below (ps : List (List Char)) {tail : List String} (hbelow : below ≠ [])
    (htail : tail ≠ []) :
    ∃ tail', tail' ≠ [] ∧ ps.foldl (pushPart special) (below ++ tail) = below ++ tail' := by
  induction ps generalizing tail with
  | nil => exact ⟨tail, htail, rfl⟩
  | cons part ps ih =>
    obtain ⟨tail', htail', hpush⟩ := pushPart_below special part hbelow htail
    rw [List.foldl_cons, hpush]
    exact ih htail'

lemma pushPart_level {part : List Char} (hbelow : below ≠ [""])
    (hpart : segmentText special part ≠ ['.', '.']) :
    ∃ tail, tail ≠ [] ∧ pushPart special below part = below ++ tail := by
  unfold pushPart
  rw [if_neg hpart, if_neg hbelow]
  split
  · exact ⟨[""], by simp, rfl⟩
  · exact ⟨[_], by simp, rfl⟩

end

/-- A text that leads up only when its tabs and line breaks are dropped. -/
def BecomesUp (s : String) : Prop :=
  s ≠ ".." ∧ s.toList.filter (fun c => !isDropped c) = ['.', '.']

instance (s : String) : Decidable (BecomesUp s) := inferInstanceAs (Decidable (_ ∧ _))

lemma filter_of_segmentText_up {special : Bool} {part : List Char}
    (h : segmentText special part = ['.', '.']) :
    part.filter (fun c => !isDropped c) = ['.', '.'] := by
  have hfilter : part.filter (fun c => c ≠ '\t' ∧ c ≠ '\n' ∧ c ≠ '\r') =
      part.filter (fun c => !isDropped c) :=
    List.filter_congr fun c _ => by simp [isDropped]
  unfold segmentText at h
  rw [hfilter] at h
  rw [← h]
  exact (Percent.encode_eq_self (by rw [h]; decide)).symm

/-- A name without a slash does not count, or is one part that leads up only if it becomes so. -/
lemma segmentParts_cases {name : String} (h : '/' ∉ name.toList) :
    (segmentParts name = [] ∧ name ∈ ["", ".", ".."]) ∨
      (segmentParts name = [name.toList] ∧ name ≠ "..") := by
  by_cases hname : name ∈ ["", ".", ".."]
  · left
    refine ⟨?_, hname⟩
    simp only [List.mem_cons, List.not_mem_nil, or_false] at hname
    rcases hname with rfl | rfl | rfl <;> decide
  · right
    exact ⟨segmentParts_name h hname, fun hup => hname (by simp [hup])⟩

lemma pathString_pushAll {base : Url} {parts : List String} (hbase : base.authority.isSome = true)
    (hpath : base.path = .segments parts) (hslash : ∀ p ∈ parts, '/' ∉ p.toList)
    {texts : List String} {first : List Char} {others : List (List Char)}
    (htexts : texts.flatMap segmentParts = first :: others)
    (hfirst : ∀ special, segmentText special first ≠ ['.', '.']) (special : Bool) :
    ∃ rest, ({ base with path := .segments (pushAll special (dropLastEmpty parts)
      ("repos" :: texts)) } : Url).pathString = stem base.pathString ++ "/repos/" ++ rest := by
  have hrepos : segmentParts "repos" = ["repos".toList] := by decide
  have hpush : pushPart special (dropLastEmpty parts) "repos".toList =
      rootParts parts ++ ["repos"] := by
    cases special <;> rfl
  have hne : rootParts parts ++ ["repos"] ≠ [""] := by
    intro heq
    have hend := congrArg List.getLast? heq
    simp at hend
  obtain ⟨one, hone, hlevel⟩ := pushPart_level special hne (hfirst special)
  have hbelow : rootParts parts ++ ["repos"] ≠ [] := by simp
  obtain ⟨tail, htail, hfold⟩ := foldl_pushPart_below special others hbelow hone
  have hall : pushAll special (dropLastEmpty parts) ("repos" :: texts) =
      rootParts parts ++ ["repos"] ++ tail := by
    rw [pushAll, List.flatMap_cons, hrepos, htexts, List.singleton_append, List.foldl_cons, hpush,
      List.foldl_cons, hlevel, hfold]
  obtain ⟨p, tail, rfl⟩ := List.exists_cons_of_ne_nil htail
  refine ⟨p ++ segmentsText tail, ?_⟩
  rw [hall, pathString_segments hbase, pathString_eq hbase hpath, ← segmentsText_rootParts hslash,
    segmentsText_append, segmentsText_append]
  apply String.toList_injective
  simp [toList_segmentsText]

end Url

/-! ### Endpoints of repositories -/

/-- The first name of a repository that counts leads up when its tabs and line breaks are
dropped. -/
def RepoName.Climbs (r : RepoName) : Prop :=
  Url.BecomesUp r.owner ∨ (r.owner ∈ ["", ".", ".."] ∧ Url.BecomesUp r.repo)

instance (r : RepoName) : Decidable r.Climbs := inferInstanceAs (Decidable (_ ∨ _))

/-- Names without slashes that do not climb. -/
structure RepoName.Grounded (r : RepoName) : Prop where
  owner : '/' ∉ r.owner.toList
  repo : '/' ∉ r.repo.toList
  level : ¬r.Climbs

namespace Client

/-- What follows the names of a repository in the paths of its endpoints. -/
def areas : List String := ["git", "contents", "tarball", "zipball"]

lemma segmentParts_area {area : String} (h : area ∈ areas) :
    Url.segmentParts area = [area.toList] ∧ area.toList.filter (fun c => !Url.isDropped c) ≠
      ['.', '.'] := by
  simp only [areas, List.mem_cons, List.not_mem_nil, or_false] at h
  rcases h with rfl | rfl | rfl | rfl <;> decide

/-- The first part that counts of what is put below the repositories does not lead up. -/
lemma exists_first_part {r : RepoName} (hr : r.Grounded) {area : String} (harea : area ∈ areas)
    (texts : List String) :
    ∃ first others, (r.owner :: r.repo :: area :: texts).flatMap Url.segmentParts =
      first :: others ∧ ∀ special, Url.segmentText special first ≠ ['.', '.'] := by
  obtain ⟨hparts, hlevel⟩ := segmentParts_area harea
  have hname : ∀ name : String, name ≠ ".." → ¬Url.BecomesUp name →
      ∀ special, Url.segmentText special name.toList ≠ ['.', '.'] :=
    fun name hne hup special htext => hup ⟨hne, Url.filter_of_segmentText_up htext⟩
  rw [List.flatMap_cons, List.flatMap_cons, List.flatMap_cons, hparts]
  obtain ⟨howner, hmem⟩ | ⟨howner, hne⟩ := Url.segmentParts_cases hr.owner
  · obtain ⟨hrepo, -⟩ | ⟨hrepo, hne⟩ := Url.segmentParts_cases hr.repo
    · rw [howner, hrepo]
      exact ⟨_, _, rfl, fun special htext => hlevel (Url.filter_of_segmentText_up htext)⟩
    · rw [howner, hrepo]
      exact ⟨_, _, rfl, hname _ hne fun hup => hr.level (.inr ⟨hmem, hup⟩)⟩
  · rw [howner]
    exact ⟨_, _, rfl, hname _ hne fun hup => hr.level (.inl hup)⟩

/-- Whatever follows the names of a repository that does not climb, its endpoints are below the
repositories of the root. -/
theorem endpoint_below {c : Client} (hform : Url.WebForm c.apiBase) {r : RepoName}
    (hr : r.Grounded) {area : String} (harea : area ∈ areas) {texts : List String} {u : Url}
    (h : c.endpoint ("repos" :: r.owner :: r.repo :: area :: texts) = .ok u) :
    c.apiBase.Below u := by
  obtain ⟨parts, hpath, hslash⟩ := hform.path
  obtain ⟨first, others, htexts, hfirst⟩ := exists_first_part hr harea texts
  unfold endpoint Url.extend? at h
  rw [hpath] at h
  cases h
  exact ⟨rfl, rfl, Url.pathString_pushAll hform.authority hpath hslash htexts hfirst _⟩

end Client
end HostedRepo
