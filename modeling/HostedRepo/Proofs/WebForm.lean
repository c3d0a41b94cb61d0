import HostedRepo.Http.Agent
import HostedRepo.Proofs.PathSegments
import HostedRepo.Proofs.PercentCoding

/-!
# Addresses of the web

What the reading of a URL makes of an address of the web: it has an authority, and its path is a
list of segments that have no slash inside.
-/

namespace HostedRepo

namespace Url

/-- A URL that has an authority and a path of segments, none of them with a slash inside. -/
structure WebForm (u : Url) : Prop where
  authority : u.authority.isSome = true
  path : ∃ parts, u.path = .segments parts ∧ ∀ p ∈ parts, '/' ∉ p.toList

/-! ### Segments that are read -/

lemma slash_notMem_of_mem_append {parts : List String} {s : String}
    (hparts : ∀ p ∈ parts, '/' ∉ p.toList) (hs : '/' ∉ s.toList) :
    ∀ p ∈ parts ++ [s], '/' ∉ p.toList := by
  intro p hp
  rcases List.mem_append.mp hp with hp | hp
  · exact hparts p hp
  · rwa [List.mem_singleton.mp hp]

lemma mem_of_mem_shorten {file : Bool} {parts : List String} {p : String}
    (h : p ∈ shorten file parts) : p ∈ parts := by
  unfold shorten at h
  split at h
  · split at h
    · exact h
    · cases h
  · exact List.dropLast_subset parts h

lemma slash_notMem_addSegment {file : Bool} {parts : List String} {s : List Char} {last : Bool}
    (hparts : ∀ p ∈ parts, '/' ∉ p.toList) (hs : '/' ∉ s) :
    ∀ p ∈ addSegment file parts s last, '/' ∉ p.toList := by
  have hshorter : ∀ p ∈ shorten file parts, '/' ∉ p.toList :=
    fun p hp => hparts p (mem_of_mem_shorten hp)
  have hempty : '/' ∉ "".toList := by simp
  unfold addSegment
  split
  · cases last
    · exact hshorter
    · exact slash_notMem_of_mem_append hshorter hempty
  · split
    · cases last
      · exact hparts
      · exact slash_notMem_of_mem_append hparts hempty
    · split
      · refine slash_notMem_of_mem_append hparts ?_
        have htake : '/' ∉ s.take 1 := fun hmem => hs (List.mem_of_mem_take hmem)
        simpa using htake
      · exact slash_notMem_of_mem_append hparts (by simpa using hs)

lemma slash_notMem_addSegments {file : Bool} {parts : List String} {ss : List (List Char)}
    (hparts : ∀ p ∈ parts, '/' ∉ p.toList) (hss : ∀ s ∈ ss, '/' ∉ s) :
    ∀ p ∈ addSegments file parts ss, '/' ∉ p.toList := by
  induction parts, ss using addSegments.induct file with
  | case1 parts => exact hparts
  | case2 parts s => exact slash_notMem_addSegment hparts (hss s List.mem_cons_self)
  | case3 parts s rest hne ih =>
    rw [addSegments]
    · exact ih (slash_notMem_addSegment hparts (hss s List.mem_cons_self))
        fun t ht => hss t (List.mem_cons_of_mem s ht)
    · exact hne

lemma slash_notMem_readSegments (scheme : String) (s : List Char) :
    ∀ p ∈ readSegments scheme [] s, '/' ∉ p.toList := by
  refine slash_notMem_addSegments (by simp) fun part hpart hmem => ?_
  obtain ⟨raw, hraw, rfl⟩ := List.mem_map.mp hpart
  rcases Percent.mem_encode hmem with ⟨hslash, -⟩ | hdigit
  · exact Text.sep_notMem_of_mem_splitAt hraw hslash
  · exact absurd hdigit (by decide)

lemma withPath_webForm (scheme : String) (a : Authority) (s : List Char) :
    WebForm (withPath scheme (some a) [] s) where
  authority := rfl
  path := ⟨_, rfl, slash_notMem_readSegments scheme (pathText s)⟩

/-! ### URLs that are read -/

lemma withRest_webForm (scheme : String) (a : Authority) (rest : List Char) :
    WebForm (withRest scheme a rest) := by
  have hnone : ∀ query fragment, WebForm ⟨scheme, some a, .segments [], query, fragment⟩ :=
    fun _ _ => ⟨rfl, [], rfl, by simp⟩
  unfold withRest
  extract_lets special
  split
  · split
    · exact withPath_webForm ..
    · split
      · exact withPath_webForm ..
      · exact hnone ..
  · split
    · exact withPath_webForm ..
    · exact hnone ..

lemma readAfterSlashes_webForm {scheme : String} {s : List Char} {u : Url}
    (h : readAfterSlashes scheme s = .ok u) : WebForm u := by
  unfold readAfterSlashes at h
  cases hread : readAuthority scheme s with
  | error e =>
    rw [hread] at h
    cases h
  | ok found =>
    rw [hread] at h
    cases h
    exact withRest_webForm ..

lemma readFile_scheme {s : List Char} {u : Url} (h : readFile s = .ok u) : u.scheme = "file" := by
  unfold readFile at h
  dsimp only at h
  split at h
  next a b rest =>
    split at h
    · split at h
      · cases h
        rfl
      · split at h
        · cases h
          rfl
        · cases hhost : Host.readSpecial (rest.takeWhile
              fun c => !(c == '?' || c == '#' || isSlash true c)) with
          | error e =>
            rw [hhost] at h
            cases h
          | ok host =>
            rw [hhost] at h
            cases h
            rfl
    · split at h <;> cases h <;> rfl
  · cases h
    rfl
  · cases h
    rfl

/-- An address of the web that was read has a host and a path of segments. -/
theorem parse_webForm {text : String} {u : Url} (h : parse text = .ok u)
    (hw : Http.Agent.isWeb u = true) : WebForm u := by
  have hweb : u.scheme = "http" ∨ u.scheme = "https" := by simpa [Http.Agent.isWeb] using hw
  unfold parse parseWith at h
  dsimp only at h
  split at h
  next scheme rest hscheme =>
    split at h
    · rw [readFile_scheme h] at hweb
      exact absurd hweb (by decide)
    · split at h
      · exact readAfterSlashes_webForm h
      · next hspecial =>
        have hne : u.scheme ≠ scheme := by
          rintro rfl
          rcases hweb with hweb | hweb <;> rw [hweb] at hspecial <;> exact hspecial (by decide)
        split at h
        · exact readAfterSlashes_webForm h
        · cases h
          exact absurd rfl hne
        · cases h
          exact absurd rfl hne
  · cases h

end Url
end HostedRepo
