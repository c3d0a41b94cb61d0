import HostedRepo.Command.Check
import HostedRepo.Proofs.FileDeletions
import HostedRepo.Proofs.PathSegments

/-!
# Deleting placeholders

The placeholder of a folder lies at the root of the repository exactly when the folder has no part
that counts. Apart from such folders, and unless a redirect leads there, the deletion of folders
never deletes the placeholder of the root.
-/

namespace HostedRepo

open Http Repository

/-! ### Where placeholders are -/

lemma Url.target_withoutUserinfo (u : Url) : u.withoutUserinfo.target = u.target := by
  unfold target withoutUserinfo
  cases u.authority <;> rfl

namespace Client

/-- The segments of the endpoint of a repository's files. -/
def contentsParts (c : Client) (r : RepoName) (parts : List String) : List String :=
  Url.pushAll (Url.isSpecial c.apiBase.scheme) (Url.dropLastEmpty parts)
    ["repos", r.owner, r.repo, "contents"]

lemma contentsEndpoint_eq_ok {c : Client} {r : RepoName} {path : String} {u : Url}
    (h : c.contentsEndpoint r path = .ok u) : ∃ parts, c.apiBase.path = .segments parts ∧
      u = { c.apiBase with path := .segments ((Url.segmentParts path).foldl
        (Url.pushPart (Url.isSpecial c.apiBase.scheme)) (c.contentsParts r parts)) } := by
  unfold contentsEndpoint endpoint Url.extend? at h
  cases hpath : c.apiBase.path with
  | opaqueText text =>
    rw [hpath] at h
    cases h
  | segments parts =>
    rw [hpath] at h
    cases h
    refine ⟨parts, rfl, ?_⟩
    have happend := Url.pushAll_append (Url.isSpecial c.apiBase.scheme)
      (Url.dropLastEmpty parts) ["repos", r.owner, r.repo, "contents"] path
    rw [contentsParts, ← happend]
    rfl

lemma contentsParts_below (c : Client) {r : RepoName} (parts : List String)
    (howner : Url.Unbroken r.owner) (hrepo : Url.Unbroken r.repo) :
    2 ≤ (c.contentsParts r parts).length ∧
      (c.contentsParts r parts).getLast? = some "contents" := by
  have hflat : ["repos", r.owner, r.repo, "contents"].flatMap Url.segmentParts =
      "repos".toList :: ((Url.segmentParts r.owner ++ Url.segmentParts r.repo) ++
        ["contents".toList]) := by
    have hrepos : Url.segmentParts "repos" = ["repos".toList] := by decide
    have hcontents : Url.segmentParts "contents" = ["contents".toList] := by decide
    simp [List.flatMap_cons, hrepos, hcontents]
  have hfirst : ∃ before, Url.pushPart (Url.isSpecial c.apiBase.scheme) (Url.dropLastEmpty parts)
      "repos".toList = before ++ ["repos"] := by
    cases Url.isSpecial c.apiBase.scheme <;> exact ⟨_, rfl⟩
  have hplain : ∀ part ∈ (Url.segmentParts r.owner ++ Url.segmentParts r.repo) ++
      ["contents".toList], Url.Plain (Url.isSpecial c.apiBase.scheme) part := by
    intro part hpart
    obtain hpart | hpart := List.mem_append.mp hpart
    · obtain hpart | hpart := List.mem_append.mp hpart
      · exact Url.plain_of_mem_segmentParts _ howner hpart
      · exact Url.plain_of_mem_segmentParts _ hrepo hpart
    · rw [List.mem_singleton.mp hpart]
      cases Url.isSpecial c.apiBase.scheme <;> constructor <;> decide
  have hlast : String.ofList (Url.segmentText (Url.isSpecial c.apiBase.scheme)
      "contents".toList) = "contents" := by
    cases Url.isSpecial c.apiBase.scheme <;> decide
  obtain ⟨before, hbefore⟩ := hfirst
  have hne : before ++ ["repos"] ≠ [""] := by
    intro heq
    have hend := congrArg List.getLast? heq
    simp at hend
  unfold contentsParts Url.pushAll
  rw [hflat, List.foldl_cons, hbefore, Url.foldl_pushPart_plain _ hplain (by simp) hne,
    List.map_append, ← List.append_assoc, List.map_singleton, hlast]
  constructor
  · simp
    omega
  · exact List.getLast?_concat

lemma segmentParts_placeholder : Url.segmentParts placeholder = [placeholder.toList] := by decide

lemma segmentParts_placeholderPath (folder : String) :
    Url.segmentParts (placeholderPath folder) =
      Url.segmentParts folder ++ [placeholder.toList] := by
  rw [placeholderPath, Url.segmentParts_append, segmentParts_placeholder]

lemma pushPart_placeholder {special : Bool} {parts : List String} (h : 2 ≤ parts.length) :
    Url.pushPart special parts placeholder.toList = parts ++ [placeholder] := by
  have hplain : Url.Plain special placeholder.toList := by
    cases special <;> constructor <;> decide
  have htext : String.ofList (Url.segmentText special placeholder.toList) = placeholder := by
    cases special <;> decide
  have hne : parts ≠ [""] := by
    rintro rfl
    simp at h
  rw [Url.pushPart_plain special hplain hne, htext]

/-- The placeholder of a folder is that of the root exactly when no part of the folder counts. -/
theorem placeholder_target_eq_iff {c : Client} {r : RepoName} {folder : String} {root u : Url}
    (howner : Url.Unbroken r.owner) (hrepo : Url.Unbroken r.repo)
    (hroot : c.contentsEndpoint r placeholder = .ok root)
    (hu : c.contentsEndpoint r (placeholderPath folder) = .ok u) :
    u.target = root.target ↔ Url.segmentParts folder = [] := by
  obtain ⟨parts, hpath, rfl⟩ := contentsEndpoint_eq_ok hroot
  obtain ⟨parts', hpath', rfl⟩ := contentsEndpoint_eq_ok hu
  obtain rfl : parts' = parts := by
    rw [hpath] at hpath'
    exact (Url.Path.segments.inj hpath').symm
  obtain ⟨hlen, hlast⟩ := c.contentsParts_below parts' howner hrepo
  -- Below the same segments both paths end with the placeholder; what the parts of the folder do
  -- to these segments decides.
  generalize c.contentsParts r parts' = below at hlen hlast ⊢
  generalize Url.isSpecial c.apiBase.scheme = special
  have hfolder := Url.length_le_foldl_pushPart special (Url.segmentParts folder) hlen
  rw [segmentParts_placeholderPath, segmentParts_placeholder, List.foldl_append, List.foldl_cons,
    List.foldl_nil, List.foldl_cons, List.foldl_nil, pushPart_placeholder hlen,
    pushPart_placeholder (by omega)]
  constructor
  · intro heq
    have hsegments := Url.Path.segments.inj (congrArg Url.path heq)
    exact (Url.foldl_pushPart_eq_self_iff special _ hlen hlast (by decide)).mp
      (List.append_cancel_right hsegments)
  · intro hnone
    rw [hnone, List.foldl_nil]

end Client

/-! ### What deletions send -/

/-- A request that does not delete what is at a URL. -/
def Http.Request.Spares (root : Url) (q : Request) : Prop :=
  q.method = .delete → q.url.target ≠ root.target

/-- A response that does not redirect to a URL. -/
def Http.Response.LeadsElsewhere (root : Url) (response : Response) : Prop :=
  ∀ u v, Agent.target? u response = some v → v.target ≠ root.target

namespace Client

section

variable {c : Client} {r : RepoName} {root : Url}

lemma send_spares {m : Method} {u : Url} {accept : String} {query : List (String × String)}
    {body : Option Json.Value}
    (h : m = .delete → query = [] ∧ u.target ≠ root.target) :
    Sends (·.LeadsElsewhere root) (·.Spares root) (c.send m u accept query body) fun _ => True := by
  refine (sends_transmit (fun _ q response v _ hR hv _ => hR _ v hv) fun hm => ?_).imp
    fun _ _ => trivial
  obtain ⟨rfl, hu⟩ := h hm
  exact fun heq => hu ((Url.target_withoutUserinfo u).symm.trans heq)

lemma deleteFile_spares {path : String} {d : Deletion}
    (h : ∀ u, c.contentsEndpoint r path = .ok u → u.target ≠ root.target) :
    Sends (·.LeadsElsewhere root) (·.Spares root) (c.deleteFile r path d) fun _ => True :=
  deleteFile_sends (fun _ _ => send_spares fun hm => by cases hm)
    fun u _ hu => send_spares fun _ => ⟨rfl, h u hu⟩

end
end Client

/-! ### The deletion of folders -/

/-- A call that deletes the placeholder of one of some folders. -/
def Call.DeletesPlaceholder (r : RepoName) (folders : List String) (x : Call) : Prop :=
  ∃ folder ∈ folders, x = .deleteFile r (placeholderPath folder) (deletion folder)

lemma deleteDir_only {r : RepoName} {folders : List String} {folder : String}
    (h : folder ∈ folders) :
    (deleteDir r folder).run.Only (Call.DeletesPlaceholder r folders) fun _ => False := by
  refine ⟨⟨folder, h, rfl⟩, fun reply => ?_⟩
  rcases reply with e | _
  · cases e <;> trivial
  · trivial

lemma forM_deleteDir_only {r : RepoName} {folders all : List String} (h : folders ⊆ all) :
    (folders.forM (deleteDir r)).run.Only (Call.DeletesPlaceholder r all) fun _ => False := by
  induction folders with
  | nil => trivial
  | cons folder folders ih =>
    exact Operation.only_bind (deleteDir_only (h List.mem_cons_self)) fun _ =>
      ih (List.subset_of_cons_subset h)

lemma deleteDirs_only (r : RepoName) (folders : List String) :
    (deleteDirs r folders).run.Only (Call.DeletesPlaceholder r folders) fun _ => False := by
  unfold deleteDirs
  split
  · trivial
  · exact forM_deleteDir_only (List.Subset.refl folders)

lemma deleteDirs_single {r : RepoName} {folder : String} (h : isRoot folder = false) :
    ∃ next, (deleteDirs r [folder]).run =
        .call (.deleteFile r (placeholderPath folder) (deletion folder)) next ∧
      ∀ reply, (next reply).Only (fun _ => False) fun _ => False := by
  have hfind : [folder].find? isRoot = none := by simp [h]
  unfold deleteDirs
  rw [hfind]
  refine ⟨_, rfl, fun reply => ?_⟩
  rcases reply with e | _
  · cases e <;> trivial
  · trivial

lemma deleteDirs_single_sent (c : Client) (a : Agent) {r : RepoName} {folder : String}
    (h : isRoot folder = false) (w : Wire) :
    (((deleteDirs r [folder]).run.runOn c a).run w).2.sent =
      ((c.deleteFile r (placeholderPath folder) (deletion folder)).run w).2.sent := by
  obtain ⟨next, hplan, hnext⟩ := deleteDirs_single (r := r) h
  let deleted := (c.deleteFile r (placeholderPath folder) (deletion folder)).run w
  have hrest := (hnext deleted.1).sends (c := c) (a := a) (R := fun _ => True)
    (P := fun _ => False) (fun _ h => h.elim) (fun _ h => h.elim) deleted.2 (fun _ _ => trivial)
  obtain ⟨reqs, hsent, hnone⟩ := hrest.sent (S := fun _ => False) fun _ h => h
  rw [List.eq_nil_iff_forall_not_mem.mpr hnone, List.append_nil] at hsent
  rw [hplan]
  exact hsent

/-- For folders each of which has a part that counts, no request of the deletion deletes the
placeholder of the root, unless a redirect leads to it. -/
theorem deleteDirs_spares_root (c : Client) (a : Agent) {r : RepoName} {folders : List String}
    {root : Url} (howner : Url.Unbroken r.owner) (hrepo : Url.Unbroken r.repo)
    (hroot : c.contentsEndpoint r placeholder = .ok root)
    (hfolders : ∀ folder ∈ folders, Url.segmentParts folder ≠ []) (w : Wire)
    (hw : ∀ response ∈ w.responses, response.LeadsElsewhere root) :
    ∃ reqs, (((deleteDirs r folders).run.runOn c a).run w).2.sent = w.sent ++ reqs ∧
      ∀ q ∈ reqs, q.method = .delete → q.url ≠ root.target := by
  have hcalls : ∀ x, Call.DeletesPlaceholder r folders x →
      Sends (·.LeadsElsewhere root) (·.Spares root) (c.answer x) fun _ => True := by
    rintro x ⟨folder, hmem, rfl⟩
    refine Client.deleteFile_spares fun u hu heq => hfolders folder hmem ?_
    exact (Client.placeholder_target_eq_iff howner hrepo hroot hu).mp heq
  exact ((deleteDirs_only r folders).sends hcalls (fun _ h => h.elim) w hw).sent
    fun q hq hdelete => hq hdelete

section

/-- The placeholder in the root of a repository. -/
def rootPlaceholder : Url where
  scheme := "http"
  authority := some { host := .domain "api.test" }
  path := .segments ["repos", "o", "r", "contents", ".gitkeep"]

theorem deleteDirs_spares_root_docs :
    let w := Wire.scripted "http" [lookupAnswer, { status := 200 }]
    (∀ response ∈ w.responses, response.LeadsElsewhere rootPlaceholder) ∧
      ∃ reqs, (((deleteDirs ⟨"o", "r"⟩ ["docs"]).run.runOn keyed keyed.agent).run w).2.sent =
          w.sent ++ reqs ∧
        ∀ q ∈ reqs, q.method = .delete → q.url ≠ rootPlaceholder.target := by
  intro w
  have hw : ∀ response ∈ w.responses, response.LeadsElsewhere rootPlaceholder := by
    intro response hmem u v h
    obtain rfl | rfl : response = lookupAnswer ∨ response = { status := 200 } := by
      simpa [w, Wire.scripted] using hmem
    · cases h
    · cases h
  exact ⟨hw, deleteDirs_spares_root keyed keyed.agent (by decide +kernel) (by decide +kernel)
    (by decide +kernel) (by decide +kernel) w hw⟩

/-- The folder `.` passes all checks, and its deletion deletes the placeholder of the root. -/
theorem deleteDirs_dot :
    let w := Wire.scripted "http" [lookupAnswer, { status := 200 }]
    Check.folders ["."] = .ok () ∧ ["."].find? isRoot = none ∧
      keyed.contentsEndpoint ⟨"o", "r"⟩ placeholder = .ok rootPlaceholder ∧
      ∃ q ∈ (((deleteDirs ⟨"o", "r"⟩ ["."]).run.runOn keyed keyed.agent).run w).2.sent,
        q.method = .delete ∧ q.url = rootPlaceholder.target := by
  intro w
  refine ⟨by decide +kernel, by decide, by decide +kernel, ?_⟩
  rw [deleteDirs_single_sent keyed keyed.agent (by decide)]
  have hroot : keyed.contentsEndpoint ⟨"o", "r"⟩ (placeholderPath ".") = .ok rootPlaceholder := by
    decide +kernel
  have hsend : ((keyed.send .get rootPlaceholder Client.acceptJson
      (Client.refQuery ((deletion ".").branch.getD "")) none).run
      (w.report ⟨.debug, .contents, "fetching contents", Client.nameFields ⟨"o", "r"⟩ ++
        [("path", placeholderPath "."), ("reference", (deletion ".").branch.getD "")]⟩)).1 =
      .ok lookupAnswer := by
    decide +kernel
  have hlookup := Client.getContents_run hroot (Prod.ext hsend rfl) rfl
  rw [fileInfo_lookupAnswer] at hlookup
  rw [Client.deleteFile_run rfl hlookup]
  decide +kernel

end

end HostedRepo
