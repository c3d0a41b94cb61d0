import HostedRepo.Proofs.StatusClasses
import HostedRepo.Proofs.WrittenJson

/-!
# Listings of directories

A directory answers a request for a file with an array. Reading the description of a file finds that
out from a whole value, and a download, if the response says that it is JSON, by reading an array of
values. Both take the same bodies for a listing, and a download hands on every other body as it is.
-/

namespace HostedRepo

open Http

namespace Json.Node

lemma keep_array_eq_ok_iff {depth : Nat} {items : List Node} {stop : Option Fault} :
    keep (depth + 1) (.array items stop) = .ok () ↔
      keepItems depth items = .ok () ∧ stop = none := by
  rw [keep.eq_def]
  dsimp only
  cases keepItems depth items with
  | error f => exact iff_of_false nofun nofun
  | ok _ => cases stop <;> simp [Except.bind]

/-- Reading an array of values is reading a value that is an array. -/
theorem items?_eq_some_iff {bs : Bytes} {items : List Node} :
    items? bs = some items ↔ whole bs = .ok (.array items none) := by
  rw [whole_eq_ok_iff, show depthLimit = depthLimit - 1 + 1 from rfl, keep_array_eq_ok_iff]
  unfold items?
  split
  · next found hread =>
    rw [hread]
    cases hkeep : keepItems (depthLimit - 1) found with
    | error f =>
      refine iff_of_false nofun ?_
      rintro ⟨heq, hkept, -⟩
      cases heq
      cases hkeep.symm.trans hkept
    | ok _ =>
      constructor
      · intro h
        cases h
        exact ⟨rfl, hkeep, rfl⟩
      · rintro ⟨heq, -⟩
        cases heq
        rfl
  · next hother =>
    refine iff_of_false nofun ?_
    rintro ⟨hread, -⟩
    exact hother items hread

end Json.Node

/-- The bytes are an array as a whole, as values are read. -/
def Json.IsArray (bs : Bytes) : Prop := ∃ items, Json.Node.whole bs = .ok (.array items none)

lemma Json.isArray_bytes_iff {v : Json.Value} (h : v.depth ≤ Json.Node.depthLimit) :
    Json.IsArray v.bytes ↔ ∃ items, v = .list items := by
  unfold Json.IsArray
  rw [Json.Value.whole_bytes h]
  cases v with
  | list items => exact iff_of_true ⟨_, rfl⟩ ⟨items, rfl⟩
  | _ =>
    refine iff_of_false (fun ⟨_, hitems⟩ => ?_) nofun
    cases Except.ok.inj hitems

/-- A response names its body JSON, in a header of visible characters. -/
def NamesJson (response : Response) : Prop :=
  ∃ kind, response.visible? "content-type" = some kind ∧
    "application/json".toList <+: kind.toList

namespace Client

variable {c : Client} {r : RepoName} {path : String} {response : Response} {body : Bytes}

/-! ### The two readings -/

lemma isListing_iff : isListing body = true ↔ Json.IsArray body := by
  rw [isListing, Option.isSome_iff_exists]
  exact exists_congr fun items => Json.Node.items?_eq_some_iff

lemma saysJson_iff : saysJson response = true ↔ NamesJson response := by
  unfold saysJson NamesJson
  cases response.visible? "content-type" <;> simp [List.isPrefixOf_iff_prefix]

lemma fileContent_listing (hbody : response.content? = some body)
    (h : NamesJson response ∧ Json.IsArray body) :
    fileContent path response = .error (directoryError path) := by
  have hlisting : (saysJson response && isListing body) = true := by
    rw [Bool.and_eq_true]
    exact ⟨saysJson_iff.mpr h.1, isListing_iff.mpr h.2⟩
  unfold fileContent content
  rw [hbody]
  exact if_pos hlisting

lemma fileContent_other (hbody : response.content? = some body)
    (h : ¬(NamesJson response ∧ Json.IsArray body)) : fileContent path response = .ok body := by
  have hother : ¬(saysJson response && isListing body) = true := by
    rw [Bool.and_eq_true]
    exact fun hlisting => h ⟨saysJson_iff.mp hlisting.1, isListing_iff.mp hlisting.2⟩
  unfold fileContent content
  rw [hbody]
  exact if_neg hother

lemma mismatch_ne_directoryError (path message : String) :
    RemoteError.unexpected ("invalid contents response for " ++ path ++ ": " ++ message) ≠
      directoryError path := by
  intro h
  have hlength := congrArg String.length (RemoteError.unexpected.inj h)
  simp only [String.length_append] at hlength
  have hstart : "invalid contents response for ".length = 30 := rfl
  have hend : " is a directory, not a file".length = 27 := rfl
  omega

lemma fileInfo_directory_iff {n : Json.Node} :
    fileInfo path n = .error (directoryError path) ↔ ∃ items stop, n = .array items stop := by
  unfold fileInfo
  split
  · next items stop => exact iff_of_true rfl ⟨items, stop, rfl⟩
  · next hother =>
    refine iff_of_false (fun h => ?_) fun ⟨items, stop, harray⟩ => hother items stop harray
    split at h
    · cases h
    · exact mismatch_ne_directoryError path _ (Except.error.inj h)
    · cases h

lemma wholeBody_directory_iff (hbody : response.content? = some body) :
    (wholeBody response >>= fileInfo path) = .error (directoryError path) ↔
      Json.IsArray body := by
  have hwhole : wholeBody response =
      (Json.Node.whole body).mapError fun _ => .transport .unreadableBody := by
    unfold wholeBody content
    rw [hbody]
    rfl
  rw [hwhole]
  unfold Json.IsArray
  cases hread : Json.Node.whole body with
  | error f => exact iff_of_false nofun nofun
  | ok n =>
    change fileInfo path n = _ ↔ _
    rw [fileInfo_directory_iff]
    constructor
    · rintro ⟨items, stop, rfl⟩
      obtain ⟨-, hkept⟩ := Json.Node.whole_eq_ok_iff.mp hread
      obtain ⟨-, rfl⟩ := Json.Node.keep_array_eq_ok_iff.mp hkept
      exact ⟨items, rfl⟩
    · rintro ⟨items, hitems⟩
      exact ⟨items, none, Except.ok.inj hitems⟩

/-! ### The two calls -/

lemma HandsBack.result_of_success {w : Wire} {x : Call} {o : Opening}
    {read : Response → Except RemoteError x.Reply} (h : c.HandsBack w x (.ok response))
    (hx : x.opening? = some o) (hread : c.Concludes o x.resource read (c.answer x))
    (hs : response.status.isSuccess = true) : ((c.answer x).run w).1 = read response := by
  generalize hy : (Except.ok response : Except Fault Response) = y at h
  cases h with
  | once ho hu =>
    cases ho.symm.trans hx
    rw [hread.result hu w, ← hy]
    change checked x.resource response >>= read = _
    rw [checked, if_pos hs]
    rfl
  | moved => cases hx

/-- A download whose final response is a success gives exactly the bytes of the body, unless the
response names it JSON and it is an array. In that case it fails as the description of the file does
with this body, and under such a name the two calls take the same bodies for a directory. -/
theorem downloadContents_directory {reference : String} {w : Wire}
    (h : c.HandsBack w (.downloadContents r path reference) (.ok response))
    (hs : response.status.isSuccess = true) (hbody : response.content? = some body) :
    let got := ((c.downloadContents r path reference).run w).1
    (NamesJson response ∧ Json.IsArray body → got = .error (directoryError path)) ∧
      (¬(NamesJson response ∧ Json.IsArray body) → got = .ok body) ∧
      ∀ reference' w' response', c.HandsBack w' (.getContents r path reference') (.ok response') →
        response'.status.isSuccess = true → response'.content? = some body →
          let described := ((c.getContents r path reference').run w').1
          (described = .error (directoryError path) ↔ Json.IsArray body) ∧
            (NamesJson response →
              (got = .error (directoryError path) ↔ described = .error (directoryError path))) := by
  intro got
  have hgot : got = fileContent path response :=
    h.result_of_success rfl (downloadContents_concludes c r path reference) hs
  have hlisting : NamesJson response ∧ Json.IsArray body → got = .error (directoryError path) :=
    fun hboth => hgot.trans (fileContent_listing hbody hboth)
  have hother : ¬(NamesJson response ∧ Json.IsArray body) → got = .ok body :=
    fun hnot => hgot.trans (fileContent_other hbody hnot)
  refine ⟨hlisting, hother, ?_⟩
  intro reference' w' response' h' hs' hbody' described
  have hdescribed : described = (wholeBody response' >>= fileInfo path) :=
    h'.result_of_success rfl (getContents_concludes c r path reference') hs'
  have hdirectory : described = .error (directoryError path) ↔ Json.IsArray body := by
    rw [hdescribed]
    exact wholeBody_directory_iff hbody'
  refine ⟨hdirectory, fun hnames => ?_⟩
  rw [hdirectory]
  refine ⟨fun hrefused => ?_, fun harray => hlisting ⟨hnames, harray⟩⟩
  by_contra harray
  cases (hother fun hboth => harray hboth.2).symm.trans hrefused

/-- A listing with one name, under a type that says more than that it is JSON. -/
theorem downloadContents_directory_listed :
    let body := (Json.Value.list [.object [("name", .text "b")]]).bytes
    let listing : Response :=
      { status := 200, body := body
        headers := [("content-type", Text.Utf8.encode "application/json; charset=utf-8")] }
    let w := Wire.scripted "http" [listing]
    keyed.HandsBack w (.downloadContents ⟨"o", "r"⟩ "a" "dev") (.ok listing) ∧
      listing.status.isSuccess = true ∧ listing.content? = some body ∧
      NamesJson listing ∧ Json.IsArray body ∧
      ((keyed.downloadContents ⟨"o", "r"⟩ "a" "dev").run w).1 = .error (directoryError "a") := by
  intro body listing w
  have hu : keyed.endpoint ["repos", "o", "r", "contents", "a"] =
      .ok (keyedUrl ["repos", "o", "r", "contents", "a"]) := by
    decide +kernel
  have houtcome : keyed.outcome
      { segments := ["repos", "o", "r", "contents", "a"], method := .get, accept := acceptRaw
        query := refQuery "dev" }
      (keyedUrl ["repos", "o", "r", "contents", "a"]) w = .ok listing := by
    decide +kernel
  have hback : keyed.HandsBack w (.downloadContents ⟨"o", "r"⟩ "a" "dev") (.ok listing) :=
    houtcome ▸ .once rfl hu
  have hnames : NamesJson listing := ⟨"application/json; charset=utf-8", by decide +kernel,
    by decide +kernel⟩
  have harray : Json.IsArray body := (Json.isArray_bytes_iff (by decide)).mpr ⟨_, rfl⟩
  exact ⟨hback, rfl, rfl, hnames, harray,
    (downloadContents_directory hback rfl rfl).1 ⟨hnames, harray⟩⟩

end Client
end HostedRepo
