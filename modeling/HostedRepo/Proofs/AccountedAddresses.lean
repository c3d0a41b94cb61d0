import HostedRepo.Proofs.BlobAddresses

/-!
# What blob addresses leave out

An address that is read has a beginning that is passed over, the five parts, a rest of the path
behind its first line, and an end that is cut off. Only the end is meant to be left out, and whether
more is can be told by the slashes before the path.
-/

namespace HostedRepo.BlobUrl

open Text

/-- An address is nothing but the parts that were read from it, a reference, and an end that starts
with a question mark. -/
def AccountedFor (url : String) (b : BlobUrl) : Prop :=
  ∃ reference query : String,
    url = start ++ b.owner ++ "/" ++ b.repo ++ "/blob/" ++ reference ++ "/" ++ b.path ++ query ∧
      reference ≠ "" ∧ '/' ∉ reference.toList ∧ (query = "" ∨ ∃ q, query = "?" ++ q)

section

variable {s cut owner repo reference path : List Char}

lemma Reads.count_slash (h : Reads s owner repo reference path) :
    s.count '/' = 4 + path.count '/' := by
  have hblob : "blob".toList.count '/' = 0 := by decide
  rw [h.text]
  simp only [List.count_append, List.count_cons_self, hblob, List.count_eq_zero.mpr h.owner_plain,
    List.count_eq_zero.mpr h.repo_plain, List.count_eq_zero.mpr h.reference_plain]
  omega

lemma Reads.exists_front (h : Reads s owner repo reference path) :
    ∃ front, s = front ++ path ∧ ∀ more, Reads (front ++ more) owner repo reference more := by
  refine ⟨owner ++ '/' :: (repo ++ '/' :: ("blob".toList ++ '/' :: (reference ++ ['/']))), ?_, ?_⟩
  · rw [h.text]
    simp
  · intro more
    exact { h with text := by simp }

lemma Reads.of_beginning (h : Reads s owner repo reference path) (hcut : cut <+: s)
    (hcount : 4 < cut.count '/') :
    ∃ c more, c :: more <+: path ∧ Reads cut owner repo reference (c :: more) := by
  obtain ⟨front, rfl, hfront⟩ := h.exists_front
  have hslashes := (hfront []).count_slash
  rw [List.append_nil, List.count_nil] at hslashes
  obtain hshort | ⟨more, rfl⟩ := List.prefix_or_prefix_of_prefix hcut (List.prefix_append front path)
  · have hle := hshort.sublist.count_le '/'
    omega
  · cases more with
    | nil =>
      rw [List.append_nil] at hcount
      omega
    | cons c more => exact ⟨c, more, (List.prefix_append_right_inj front).mp hcut, hfront _⟩

end

/-- Where an address was found in a text: what is passed over, what reads as the address with more
behind the line of the path, and the end that is cut off. -/
structure Located (url : String) (b : BlobUrl) (skipped s reference left query : List Char) :
    Prop where
  text : url.toList = start.toList ++ (skipped ++ s ++ query)
  reads : Reads s b.owner.toList b.repo.toList reference (b.path.toList ++ left)
  path_ne : b.path.toList ≠ []
  path_line : '\n' ∉ b.path.toList
  skipped_end : skipped = [] ∨ ∃ l, skipped = l ++ ['/']
  skipped_front : skipped ≠ [] → Pattern.front? form (skipped ++ s) = none
  left_start : left = [] ∨ ∃ l, left = '\n' :: l
  query_start : query = [] ∨ ∃ q, query = '?' :: q

lemma dropWhile_line_cases (path : List Char) : path.dropWhile (· ≠ '\n') = [] ∨
    ∃ l, path.dropWhile (· ≠ '\n') = '\n' :: l := by
  cases hdrop : path.dropWhile (· ≠ '\n') with
  | nil => exact .inl rfl
  | cons c l =>
    have hhead := List.head?_dropWhile_not (fun c => decide (c ≠ '\n')) path
    rw [hdrop] at hhead
    have hc : c = '\n' := by simpa using hhead
    exact .inr ⟨l, by rw [hc]⟩

lemma parse_eq_ok {url : String} {b : BlobUrl} (h : parse url = .ok b) :
    ∃ skipped s reference left query, Located url b skipped s reference left query := by
  unfold parse at h
  split at h
  · cases h
  next rest hstrip =>
  split at h
  · next owner repo reference line hsearch =>
    cases h
    obtain ⟨skipped, s, hcut, hfront, hleft⟩ := Pattern.search?_eq_some hsearch
    obtain ⟨_, _, _, path, hreads, hline, heq⟩ := front?_form_eq_some_iff.mp hfront
    cases heq
    obtain ⟨query, hrest, hquery⟩ := (beforeLast_cutsLast '?' rest).exists_end
    rw [hcut] at hrest
    refine ⟨skipped, s, reference, path.dropWhile (· ≠ '\n'), query, ?_, ?_, ?_, ?_, ?_, ?_,
      dropWhile_line_cases path, hquery⟩
    · rw [← hrest]
      exact stripStart_eq_some_iff.mp hstrip
    · simp only [String.toList_ofList, List.takeWhile_append_dropWhile]
      exact hreads
    · simpa using hline
    · intro hmem
      rw [String.toList_ofList] at hmem
      simpa using List.all_eq_true.mp List.all_takeWhile '\n' hmem
    · obtain rfl | ⟨l, c, rfl⟩ := List.eq_nil_or_concat' skipped
      · exact .inl rfl
      · -- Within a part the address would have been found at the beginning of the part.
        by_cases hc : c = '/'
        · exact .inr ⟨l, by rw [hc]⟩
        · have hnone := front?_form_of_cons hc (hleft l c [] rfl)
          rw [List.nil_append, hfront] at hnone
          cases hnone
    · intro hne
      obtain ⟨c, more, rfl⟩ := List.exists_cons_of_ne_nil hne
      exact hleft [] c more rfl
  · cases h

section

variable {url : String} {b : BlobUrl} {skipped s reference left query : List Char}

lemma Located.skipped_eq_nil (h : Located url b skipped s reference left query)
    {reference' query' : List Char}
    (hreads : Reads (skipped ++ s ++ query) b.owner.toList b.repo.toList reference'
      (b.path.toList ++ query')) : skipped = [] := by
  by_contra hne
  obtain ⟨l, rfl⟩ := h.skipped_end.resolve_left hne
  have hcount : 4 < (l ++ ['/'] ++ s).count '/' := by
    rw [List.count_append, List.count_append, h.reads.count_slash, List.count_singleton_self]
    omega
  obtain ⟨c, more, hbegins, hcut⟩ := hreads.of_beginning (List.prefix_append _ query) hcount
  obtain ⟨d, line, hline⟩ := List.exists_cons_of_ne_nil h.path_ne
  have hd : d ≠ '\n' := by
    rintro rfl
    exact h.path_line (hline ▸ List.mem_cons_self)
  rw [hline, List.cons_append, List.cons_prefix_cons] at hbegins
  have hfound := front?_form_eq_some_iff.mpr
    ⟨_, _, _, _, hcut, takeWhile_line_ne_nil_iff.mpr ⟨by simp, by simp [hbegins.1, hd]⟩, rfl⟩
  rw [h.skipped_front hne] at hfound
  cases hfound

lemma Located.left_eq_nil (h : Located url b [] s reference left query)
    {reference' query' : List Char}
    (hreads : Reads (s ++ query) b.owner.toList b.repo.toList reference'
      (b.path.toList ++ query'))
    (hquery : query' = [] ∨ ∃ q, query' = '?' :: q) : left = [] := by
  have hreads' : Reads (s ++ query) b.owner.toList b.repo.toList reference
      (b.path.toList ++ (left ++ query)) :=
    { h.reads with text := by rw [h.reads.text]; simp }
  have hleft : left ++ query = query' := List.append_cancel_left (hreads'.unique hreads).2.2.2
  obtain rfl | ⟨l, rfl⟩ := h.left_start
  · rfl
  · obtain rfl | ⟨q, rfl⟩ := hquery
    · cases hleft
    · cases (List.cons.inj hleft).1

lemma Located.accounted_iff (h : Located url b skipped s reference left query) :
    AccountedFor url b ↔ skipped = [] ∧ left = [] := by
  constructor
  · rintro ⟨reference', query', hurl, hne, hplain, hquery⟩
    have hrest : skipped ++ s ++ query = b.owner.toList ++ '/' :: (b.repo.toList ++ '/' ::
        ("blob".toList ++ '/' :: (reference'.toList ++ '/' ::
          (b.path.toList ++ query'.toList)))) := by
      apply List.append_cancel_left (h.text.symm.trans _)
      rw [hurl]
      simp
    have hreads : Reads (skipped ++ s ++ query) b.owner.toList b.repo.toList reference'.toList
        (b.path.toList ++ query'.toList) :=
      { h.reads with
        text := hrest
        reference_ne := by simpa using hne
        reference_plain := hplain }
    obtain rfl := h.skipped_eq_nil hreads
    refine ⟨rfl, h.left_eq_nil hreads ?_⟩
    obtain rfl | ⟨q, rfl⟩ := hquery
    · exact .inl rfl
    · exact .inr ⟨q.toList, by simp⟩
  · rintro ⟨rfl, rfl⟩
    refine ⟨String.ofList reference, String.ofList query, ?_, ?_, ?_, ?_⟩
    · rw [← String.toList_inj, h.text, h.reads.text]
      simp [start]
    · simpa using h.reads.reference_ne
    · simpa using h.reads.reference_plain
    · obtain rfl | ⟨q, rfl⟩ := h.query_start
      · exact .inl rfl
      · exact .inr ⟨String.ofList q, by simp⟩

end

/-- A blob address that is read has the five parts in a row, with an end that starts with a
question mark. What stands before them ends with a slash and what stands between path and end starts
with a line break; the address is accounted for as a whole exactly when both are missing. -/
theorem parse_accounts {url : String} {b : BlobUrl} (h : parse url = .ok b) :
    ∃ skipped reference left query : String,
      url = start ++ skipped ++ b.owner ++ "/" ++ b.repo ++ "/blob/" ++ reference ++ "/" ++
        b.path ++ left ++ query ∧
      reference ≠ "" ∧ '/' ∉ reference.toList ∧
      (skipped = "" ∨ ∃ l, skipped = l ++ "/") ∧ (left = "" ∨ ∃ l, left = "\n" ++ l) ∧
      (query = "" ∨ ∃ q, query = "?" ++ q) ∧
      (AccountedFor url b ↔ skipped = "" ∧ left = "") := by
  obtain ⟨skipped, s, reference, left, query, hloc⟩ := parse_eq_ok h
  refine ⟨String.ofList skipped, String.ofList reference, String.ofList left, String.ofList query,
    ?_, ?_, ?_, ?_, ?_, ?_, ?_⟩
  · rw [← String.toList_inj, hloc.text, hloc.reads.text]
    simp
  · simpa using hloc.reads.reference_ne
  · simpa using hloc.reads.reference_plain
  · obtain rfl | ⟨l, rfl⟩ := hloc.skipped_end
    · exact .inl rfl
    · exact .inr ⟨String.ofList l, by simp⟩
  · obtain rfl | ⟨l, rfl⟩ := hloc.left_start
    · exact .inl rfl
    · exact .inr ⟨String.ofList l, by simp⟩
  · obtain rfl | ⟨q, rfl⟩ := hloc.query_start
    · exact .inl rfl
    · exact .inr ⟨String.ofList q, by simp⟩
  · rw [hloc.accounted_iff]
    simp

/-- An address with a line break in its path. -/
theorem parse_accounts_line :
    let url := "https://github.com/o/r/blob/main/a\nb?c"
    let b : BlobUrl := ⟨"a", "o", "r"⟩
    parse url = .ok b ∧ ∃ skipped reference left query : String,
      url = start ++ skipped ++ b.owner ++ "/" ++ b.repo ++ "/blob/" ++ reference ++ "/" ++
        b.path ++ left ++ query ∧
      reference ≠ "" ∧ '/' ∉ reference.toList ∧
      (skipped = "" ∨ ∃ l, skipped = l ++ "/") ∧ (left = "" ∨ ∃ l, left = "\n" ++ l) ∧
      (query = "" ∨ ∃ q, query = "?" ++ q) ∧
      (AccountedFor url b ↔ skipped = "" ∧ left = "") := by
  intro url b
  have hparse : parse url = .ok b := by decide
  exact ⟨hparse, parse_accounts hparse⟩

/-- The address of a folder is read as that of a file in another repository. -/
theorem parse_folder :
    let url := "https://github.com/o/r/tree/main/blob/x/y"
    parse url = .ok ⟨"y", "tree", "main"⟩ ∧ ¬AccountedFor url ⟨"y", "tree", "main"⟩ := by
  refine ⟨by decide, ?_⟩
  rintro ⟨reference, query, hurl, -⟩
  have hlist := congrArg String.toList hurl
  simp [start] at hlist

end HostedRepo.BlobUrl
