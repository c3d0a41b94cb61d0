import HostedRepo.Proofs.EndpointPaths
import HostedRepo.Proofs.RecordFields
import HostedRepo.Proofs.Talks
import HostedRepo.Proofs.TokenConfinement
import HostedRepo.Proofs.WrittenJson

/-!
# Deletions of files

A deletion that is not told the object id of its file looks it up, at the URL of the file and on the
branch that it is to delete from. Only a lookup that finds the description of a file is followed by
the deletion itself, and the final response to that decides the result.
-/

namespace HostedRepo

open Http

namespace Talk

/-- The talk has ended in a success that holds, as a whole, an object that describes a file. -/
def Describes (t : Talk) (info : FileInfo) : Prop :=
  ∃ response members stop v, t.outcome = .ok response ∧ response.status.isSuccess = true ∧
    Client.wholeBody response = .ok (.object members stop) ∧
    FileInfo.shape.decode (Json.Node.object members stop).sorted = .ok v ∧ info = FileInfo.ofVal v

/-- What a lookup that the talk was for finds. -/
def found (t : Talk) (r : RepoName) (path : String) : Except RemoteError FileInfo :=
  t.answer (Client.fileResource r path) >>= fun response =>
    Client.wholeBody response >>= Client.fileInfo path

end Talk

namespace Client

variable {c : Client} {r : RepoName} {path reference : String} {u : Url} {w w' : Wire}

/-! ### The lookup -/

/-- The request that looks a file up: on a branch that has a name, or else on the default one. -/
def lookupOpening (r : RepoName) (path : String) (branch : Option String) : Opening where
  segments := ["repos", r.owner, r.repo, "contents", path]
  method := .get
  query := match branch with
    | none => []
    | some name => if name = "" then [] else [("ref", name)]

lemma query_lookupOpening (r : RepoName) (path : String) (branch : Option String) :
    (lookupOpening r path branch).query = refQuery (branch.getD "") := by
  cases branch with
  | none => rfl
  | some name => simp [lookupOpening, refQuery, String.isEmpty_iff]

lemma getContents_run {response : Response} (hu : c.contentsEndpoint r path = .ok u)
    (hsend : (c.send .get u acceptJson (refQuery reference) none).run
      (w.report ⟨.debug, .contents, "fetching contents",
        nameFields r ++ [("path", path), ("reference", reference)]⟩) = (.ok response, w'))
    (hs : response.status.isSuccess = true) :
    (c.getContents r path reference).run w = (wholeBody response >>= fileInfo path, w') := by
  have hchecked : checked (fileResource r path) response = .ok response := by
    rw [checked, if_pos hs]
  unfold getContents
  rw [run_bind, hu]
  change (do
    let answer ← c.send .get u acceptJson (refQuery reference) none
    let answer ← Exchange.of (checked (fileResource r path) answer)
    Exchange.of (wholeBody answer >>= fileInfo path) : Exchange FileInfo).run _ = _
  rw [run_bind, hsend]
  change (Exchange.of (checked (fileResource r path) response) >>= fun response =>
    Exchange.of (wholeBody response >>= fileInfo path)).run w' = _
  rw [run_bind, hchecked]
  rfl

lemma getContents_conducts (hu : c.contentsEndpoint r path = .ok u) (branch : Option String)
    (w : Wire) :
    ∃ (t : Talk) (e : Log.Event) (w' : Wire),
      (c.getContents r path (branch.getD "")).run w = (t.found r path, w') ∧
        c.Conducts (lookupOpening r path branch) u (w.report e) t w' := by
  have hconcludes : c.Concludes (lookupOpening r path branch) (fileResource r path)
      (fun response => wholeBody response >>= fileInfo path)
      (c.getContents r path (branch.getD "")) := by
    unfold Concludes
    rw [query_lookupOpening]
    exact getContents_concludes c r path (branch.getD "")
  exact hconcludes.conducts hu w

lemma fileInfo_eq_ok {n : Json.Node} {info : FileInfo} (h : fileInfo path n = .ok info) :
    ∃ members stop v, n = .object members stop ∧ FileInfo.shape.decode n.sorted = .ok v ∧
      info = FileInfo.ofVal v := by
  unfold fileInfo at h
  split at h
  · cases h
  · next hobject =>
    split at h
    · next v hv =>
      cases h
      cases n with
      | array items stop => exact absurd rfl (hobject items stop)
      | object members stop => exact ⟨members, stop, v, rfl, hv, rfl⟩
      | _ => exact absurd hv (Json.Node.wrongType_ne_ok _ _ _)
    · cases h
    · cases h

lemma fileInfo_object {members : List (Json.Leaf String × Json.Node)} {stop : Option Json.Fault}
    {v : FileInfo.shape.Val} (hv : FileInfo.shape.decode (Json.Node.object members stop).sorted =
      .ok v) : fileInfo path (.object members stop) = .ok (FileInfo.ofVal v) := by
  unfold fileInfo
  dsimp only
  rw [hv]

end Client

namespace Talk

variable {l : Talk} {r : RepoName} {path : String}

lemma found_eq_ok_iff {info : FileInfo} : l.found r path = .ok info ↔ l.Describes info := by
  constructor
  · intro h
    obtain ⟨response, hanswer, h⟩ := bind_eq_ok h
    obtain ⟨hended, hs⟩ := answer_eq_ok_iff.mp hanswer
    obtain ⟨n, hbody, h⟩ := bind_eq_ok h
    obtain ⟨members, stop, v, rfl, hv, hinfo⟩ := Client.fileInfo_eq_ok h
    exact ⟨response, members, stop, v, hended, hs, hbody, hv, hinfo⟩
  · rintro ⟨response, members, stop, v, hended, hs, hbody, hv, rfl⟩
    rw [found, answer_eq_ok_iff.mpr ⟨hended, hs⟩]
    change (Client.wholeBody response >>= Client.fileInfo path) = _
    rw [hbody]
    exact Client.fileInfo_object hv

lemma found_missing_iff :
    (∃ what, l.found r path = .error (.notFound what)) ↔ l.Ends (· = 404) := by
  rw [← @answer_eq_notFound_iff l (Client.fileResource r path), found]
  cases l.answer (Client.fileResource r path) with
  | error e =>
    change (∃ what, (Except.error e : Except RemoteError FileInfo) = .error (.notFound what)) ↔ _
    simp
  | ok response =>
    have hblames : Blames (fun e => ∀ what, e ≠ .notFound what)
        (Client.wholeBody response >>= Client.fileInfo path) :=
      Blames.bind (Client.blames_wholeBody (fun _ => nofun) response)
        (Client.blames_fileInfo (fun _ => nofun) (fun _ _ => nofun) path)
    exact iff_of_false (fun ⟨what, h⟩ => hblames _ h what rfl) nofun

end Talk

namespace Client

variable {c : Client} {r : RepoName} {path : String} {u : Url} {w w' : Wire}

/-! ### The deletion -/

/-- A deletion without an object id is a lookup and then the deletion with the id found. -/
lemma deleteFile_run {d : Deletion} {info : FileInfo} (hd : d.sha = none)
    (h : (c.getContents r path (d.branch.getD "")).run w = (.ok info, w')) :
    (c.deleteFile r path d).run w =
      (c.deleteFile r path { d with sha := some info.sha }).run w' := by
  have hsha : (c.deletionSha r path d).run w = (.ok info.sha, w') := by
    unfold deletionSha
    rw [hd]
    dsimp only
    rw [run_bind, h]
    rfl
  unfold deleteFile
  rw [run_bind, hsha]
  rfl

lemma deleteFile_run_error {d : Deletion} {e : RemoteError} (hd : d.sha = none)
    (h : (c.getContents r path (d.branch.getD "")).run w = (.error e, w')) :
    (c.deleteFile r path d).run w = (.error e, w') := by
  have hsha : (c.deletionSha r path d).run w = (.error e, w') := by
    unfold deletionSha
    rw [hd]
    dsimp only
    rw [run_bind, h]
  unfold deleteFile
  rw [run_bind, hsha]

def deletionBody (message sha : String) (branch : Option String) : Json.Value :=
  .object ([("message", .text message), ("sha", .text sha)] ++
    match branch with
    | none => []
    | some name => [("branch", .text name)])

/-- The request that deletes a file. -/
def deletionOpening (r : RepoName) (path message sha : String) (branch : Option String) :
    Opening where
  segments := ["repos", r.owner, r.repo, "contents", path]
  method := .delete
  body := some (deletionBody message sha branch)

lemma deleteFile_conducts (hu : c.contentsEndpoint r path = .ok u) (message sha : String)
    (branch : Option String) (w : Wire) :
    ∃ (t : Talk) (e : Log.Event) (w' : Wire),
      (c.deleteFile r path ⟨message, some sha, branch⟩).run w =
        ((t.answer (fileResource r path)).map fun _ => (), w') ∧
      c.Conducts (deletionOpening r path message sha branch) u (w.report e) t w' := by
  have hbody : Deletion.toValue ⟨message, some sha, branch⟩ = deletionBody message sha branch := by
    cases branch <;> rfl
  have hconcludes := deleteFile_concludes c r path message sha branch
  rw [hbody] at hconcludes
  obtain ⟨t, e, w', hrun, ht⟩ := hconcludes.conducts hu w
  have hdone : (t.answer (fileResource r path) >>= fun _ => .ok ()) =
      (t.answer (fileResource r path)).map fun _ => () := by
    cases t.answer (fileResource r path) <;> rfl
  exact ⟨t, e, w', hdone ▸ hrun, ht⟩

/-- How a deletion goes, whatever comes back: `found` is what a lookup gives, `x` the result and
`w'` the wire that is left. -/
structure Deletes (c : Client) (r : RepoName) (path : String) (d : Deletion) (u : Url) (w : Wire)
    (found : Except RemoteError FileInfo) (lookup deletion : Option Talk)
    (x : Except RemoteError Unit) (w' : Wire) : Prop where
  /-- With an object id nothing is looked up. -/
  known : ∀ sha, d.sha = some sha → lookup = none ∧ ∃ t e, deletion = some t ∧
    c.Conducts (deletionOpening r path d.message sha d.branch) u (w.report e) t w'
  /-- Without one the file is looked up first, and only one that is found is deleted. -/
  unknown : d.sha = none → ∃ l e w₁, lookup = some l ∧
    c.Conducts (lookupOpening r path d.branch) u (w.report e) l w₁ ∧
    (((∀ info, ¬l.Describes info) ∧ deletion = none ∧ w' = w₁ ∧
        ∃ e, found = .error e ∧ x = .error e) ∨
      ∃ info t e, l.Describes info ∧ found = .ok info ∧ deletion = some t ∧
        c.Conducts (deletionOpening r path d.message info.sha d.branch) u (w₁.report e) t w')
  succeeds : x = .ok () ↔ ∃ t, deletion = some t ∧ t.Ends (·.isSuccess = true)
  missing : (∃ what, x = .error (.notFound what)) ↔
    ∃ t, (lookup = some t ∨ deletion = some t) ∧ t.Ends (· = 404)

/-- Whatever comes back, a client that was built looks a file up before it deletes it, unless it
knows the object id, at the same URL and on the same branch, and deletes exactly what the lookup
has found. -/
theorem deleteFile_looks_up {s : Settings} (hc : build s = .ok c) (r : RepoName) (path : String)
    (d : Deletion) (w : Wire) :
    ∃ u, c.contentsEndpoint r path = .ok u ∧ ∃ lookup deletion : Option Talk,
      let out := (c.deleteFile r path d).run w
      let talks := lookup.toList ++ deletion.toList
      w.Carries (talks.flatMap (·.requests)) (talks.flatMap (·.responses)) out.2 ∧
        c.Deletes r path d u w ((c.getContents r path (d.branch.getD "")).run w).1
          lookup deletion out.1 out.2 := by
  obtain ⟨u, hu⟩ := exists_endpoint hc ["repos", r.owner, r.repo, "contents", path]
  refine ⟨u, hu, ?_⟩
  obtain ⟨message, sha, branch⟩ := d
  cases sha with
  | some sha =>
    obtain ⟨t, e, w', hrun, ht⟩ := deleteFile_conducts hu message sha branch w
    refine ⟨none, some t, ?_⟩
    rw [hrun]
    refine ⟨by simpa using (Wire.Carries.report e w).trans ht.carries, ?_⟩
    exact
      { known := fun sha' h => ⟨rfl, t, e, rfl, Option.some.inj h ▸ ht⟩
        unknown := nofun
        succeeds := by simp [Talk.answer_done_iff]
        missing := by simp [Talk.answer_missing_iff] }
  | none =>
    obtain ⟨l, e, w₁, hlookup, hl⟩ := getContents_conducts hu branch w
    have hcarries := (Wire.Carries.report e w).trans hl.carries
    have hmissing : (∃ what, l.found r path = .error (.notFound what)) ↔ l.Ends (· = 404) :=
      Talk.found_missing_iff
    rw [hlookup]
    cases hfound : l.found r path with
    | error fault =>
      rw [hfound] at hlookup hmissing
      refine ⟨some l, none, ?_⟩
      rw [deleteFile_run_error (d := ⟨message, none, branch⟩) rfl hlookup]
      refine ⟨by simpa using hcarries, ?_⟩
      have hnone : ∀ info, ¬l.Describes info := by
        intro info hdescribes
        cases hfound.symm.trans (Talk.found_eq_ok_iff.mpr hdescribes)
      exact
        { known := nofun
          unknown := fun _ => ⟨l, e, w₁, rfl, hl, .inl ⟨hnone, rfl, rfl, fault, rfl, rfl⟩⟩
          succeeds := by simp
          missing := by simpa using hmissing }
    | ok info =>
      rw [hfound] at hlookup hmissing
      obtain ⟨t, e', w', hrun, ht⟩ := deleteFile_conducts hu message info.sha branch w₁
      have hcarries' := (Wire.Carries.report e' w₁).trans ht.carries
      refine ⟨some l, some t, ?_⟩
      rw [deleteFile_run (d := ⟨message, none, branch⟩) rfl hlookup, hrun]
      refine ⟨by simpa using hcarries.trans hcarries', ?_⟩
      have hended : ¬l.Ends (· = 404) := by
        intro h
        obtain ⟨what, hwhat⟩ := hmissing.mpr h
        cases hwhat
      exact
        { known := nofun
          unknown := fun _ =>
            ⟨l, e, w₁, rfl, hl, .inr ⟨info, t, e', Talk.found_eq_ok_iff.mp hfound, rfl, rfl, ht⟩⟩
          succeeds := by simp [Talk.answer_done_iff]
          missing := by simp [Talk.answer_missing_iff, hended] }

end Client

section

/-- What a lookup of a file finds; the members are sorted already. -/
def lookupValue : Json.Value :=
  .object [("name", .text "a"), ("path", .text "a"), ("sha", .text "b1"), ("type", .text "file")]

def lookupAnswer : Response where
  status := 200
  body := lookupValue.bytes

lemma wholeBody_lookupAnswer : Client.wholeBody lookupAnswer = .ok lookupValue.node := by
  have hcontent : Client.content lookupAnswer = .ok lookupValue.bytes := rfl
  have hwhole : Json.Node.whole lookupValue.bytes = .ok lookupValue.node :=
    Json.Value.whole_bytes (by decide)
  unfold Client.wholeBody
  rw [hcontent]
  simp only [bind, Except.bind, hwhole, Except.mapError]

lemma lookupValue_sorted : lookupValue.node.sorted = lookupValue.node := by
  simp only [lookupValue, Json.Value.node, Json.Value.memberNodes, Json.Node.sorted,
    Json.Node.object.injEq, and_true]
  rw [Json.Node.sortedMembers]
  apply List.mergeSort_of_pairwise
  decide

lemma fileInfo_lookupAnswer (path : String) :
    (Client.wholeBody lookupAnswer >>= Client.fileInfo path) =
      .ok ⟨"a", "a", "b1", "file", none, none⟩ := by
  have hdecode : FileInfo.shape.decode lookupValue.node.sorted =
      .ok ("a", "a", "b1", "file", none, none, ()) := by
    rw [lookupValue_sorted]
    rfl
  rw [wholeBody_lookupAnswer]
  exact Client.fileInfo_object hdecode

/-- A file is looked up and deleted on one branch, and the deletion names what was found. -/
theorem deleteFile_looks_up_branch :
    let w := Wire.scripted "http" [lookupAnswer, { status := 200 }]
    let out := (keyed.deleteFile ⟨"o", "r"⟩ "a" ⟨"m", none, some "dev"⟩).run w
    Client.build ⟨some "http://api.test", some "secret", some "agent"⟩ = .ok keyed ∧
      ∃ (u : Url) (l t : Talk) (e e' : Log.Event) (w₁ : Wire),
        keyed.contentsEndpoint ⟨"o", "r"⟩ "a" = .ok u ∧
          keyed.Conducts (Client.lookupOpening ⟨"o", "r"⟩ "a" (some "dev")) u (w.report e) l w₁ ∧
          keyed.Conducts (Client.deletionOpening ⟨"o", "r"⟩ "a" "m" "b1" (some "dev")) u
            (w₁.report e') t out.2 ∧
          t.Ends (·.isSuccess = true) ∧ out.1 = .ok () := by
  intro w out
  have hbuild : Client.build ⟨some "http://api.test", some "secret", some "agent"⟩ =
      .ok keyed := by
    decide +kernel
  let file : Url := ⟨"http", some { host := .domain "api.test" },
    .segments ["repos", "o", "r", "contents", "a"], none, none⟩
  have hfile : keyed.contentsEndpoint ⟨"o", "r"⟩ "a" = .ok file := by decide +kernel
  have hsend : ((keyed.send .get file Client.acceptJson (Client.refQuery "dev") none).run
      (w.report ⟨.debug, .contents, "fetching contents", Client.nameFields ⟨"o", "r"⟩ ++
        [("path", "a"), ("reference", "dev")]⟩)).1 = .ok lookupAnswer := by
    decide +kernel
  have hfound := Client.getContents_run hfile (Prod.ext hsend rfl) rfl
  rw [fileInfo_lookupAnswer] at hfound
  obtain ⟨u, hu, lookup, deletion, hcarries, hdeletes⟩ :=
    Client.deleteFile_looks_up hbuild ⟨"o", "r"⟩ "a" ⟨"m", none, some "dev"⟩ w
  obtain ⟨l, e, w₁, rfl, hl, ⟨-, -, -, f, hf, -⟩ | ⟨info, t, e', -, hinfo, rfl, ht⟩⟩ :=
    hdeletes.unknown rfl
  · cases (congrArg Prod.fst hfound).symm.trans hf
  · cases (congrArg Prod.fst hfound).symm.trans hinfo
    have hdone : out.1 = .ok () := by
      have hrun := Client.deleteFile_run (d := ⟨"m", none, some "dev"⟩) rfl hfound
      refine (congrArg Prod.fst hrun).trans ?_
      decide +kernel
    have hended : t.Ends (·.isSuccess = true) := by
      obtain ⟨t', ht', hended⟩ := hdeletes.succeeds.mp hdone
      cases ht'
      exact hended
    exact ⟨hbuild, u, l, t, e, e', w₁, hu, hl, ht, hended, hdone⟩

end

end HostedRepo
