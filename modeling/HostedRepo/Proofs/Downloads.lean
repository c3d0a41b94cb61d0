import HostedRepo.Proofs.ArchiveLinks
import HostedRepo.Proofs.CommandTasks
import HostedRepo.Proofs.DiskWriting

/-!
# Downloads

A file or an archive that a command delivers is the whole body of the last response that came
back, byte for byte. A download that fails leaves all files and the output as they were.
-/

namespace HostedRepo

open Http

/-! ### What a download brings -/

/-- The last response that was used up between two states of a wire has a status that is accepted
and a body that arrived as a whole. -/
def Http.Wire.Brings (accepts : Status → Bool) (bytes : Bytes) (w w' : Wire) : Prop :=
  ∃ used response, w.responses = used ++ response :: w'.responses ∧
    accepts response.status = true ∧ response.content? = some bytes

lemma Http.Wire.Brings.after {accepts : Status → Bool} {bytes : Bytes} {w w₁ w' : Wire}
    {P : Request → Prop} (hpassed : w.Passes P w₁) (h : Wire.Brings accepts bytes w₁ w') :
    Wire.Brings accepts bytes w w' := by
  obtain ⟨_, earlier, hcarries, -⟩ := hpassed
  obtain ⟨used, response, hused, haccepted, hcontent⟩ := h
  refine ⟨earlier ++ used, response, ?_, haccepted, hcontent⟩
  rw [hcarries.responses, hused, List.append_assoc]

namespace Client

variable {c : Client} {w w' : Wire}

lemma transmit_last {a : Agent} {m : Method} {u : Url} {query : List (String × String)}
    {headers : Headers} {body : Option Json.Value} {response : Response}
    (h : (transmit a (Agent.prepare m u query headers body)).run w = (.ok response, w')) :
    ∃ used, w.responses = used ++ response :: w'.responses := by
  obtain ⟨e, he⟩ | ⟨x, w₁, hx, earlier, before, q, last, -, hcarries, hlast⟩ :=
    transmit_follows a m u query headers body w
  · cases he.symm.trans h
  · rw [hx] at h
    cases x with
    | error f => cases h
    | ok answer =>
      cases h
      refine ⟨before, ?_⟩
      rw [hcarries.responses, hlast response rfl]
      simp

lemma content_eq_ok {response : Response} {bytes : Bytes} (h : content response = .ok bytes) :
    response.content? = some bytes := by
  unfold content at h
  split at h
  · cases h
  · next heq =>
    cases h
    exact heq

lemma downloadContents_brings {r : RepoName} {path reference : String} {bytes : Bytes}
    (h : (c.downloadContents r path reference).run w = (.ok bytes, w')) :
    w.Brings Status.isSuccess bytes w' := by
  unfold downloadContents at h
  obtain ⟨u, w₁, hu, h₁⟩ := run_bind_eq_ok h
  obtain ⟨_, w₂, hreport, h₂⟩ := run_bind_eq_ok h₁
  obtain ⟨answer, w₃, hsend, h₃⟩ := run_bind_eq_ok h₂
  obtain ⟨response, w₄, hcheck, h₄⟩ := run_bind_eq_ok h₃
  obtain ⟨-, rfl⟩ := of_run_eq hu
  cases hreport
  obtain ⟨hchecked, rfl⟩ := of_run_eq hcheck
  obtain ⟨rfl, hsuccess⟩ := checked_eq_ok hchecked
  obtain ⟨hfile, rfl⟩ := of_run_eq h₄
  obtain ⟨bs, hcontent, hrest⟩ := bind_eq_ok hfile
  obtain ⟨used, hused⟩ := transmit_last hsend
  refine ⟨used, response, hused, hsuccess, ?_⟩
  rw [content_eq_ok hcontent]
  split at hrest
  · cases hrest
  · cases hrest
    rfl

end Client

lemma downloadArchive_brings {a : Agent} {link : Url} {w w' : Wire} {bytes : Bytes}
    (h : (downloadArchive a link).run w = (.ok bytes, w')) :
    w.Brings (fun status => status = 200) bytes w' := by
  unfold downloadArchive at h
  obtain ⟨answer, w₁, hsend, h₁⟩ := run_bind_eq_ok h
  obtain ⟨hcontent, rfl⟩ := Client.of_run_eq h₁
  obtain ⟨used, hused⟩ := Client.transmit_last hsend
  unfold archiveContent at hcontent
  split at hcontent
  · next hstatus =>
    exact ⟨used, answer, hused, decide_eq_true hstatus, Client.content_eq_ok hcontent⟩
  · cases hcontent

namespace Repository

variable {c : Client} {a : Agent} {r : RepoName} {w w' : Wire}

lemma getFile_brings {path reference : String} {file : RemoteFile}
    (h : (c.perform a (getFile r path reference)).run w = (.ok file, w')) :
    w.Brings Status.isSuccess file.content w' := by
  rw [Client.perform_getFile] at h
  obtain ⟨content, w₁, hcontent, hrest⟩ := run_bind_eq_ok h
  cases hrest
  exact Client.downloadContents_brings hcontent

lemma getArchive_brings {reference : String} {bytes : Bytes}
    (h : (c.perform a (getArchive r reference)).run w = (.ok bytes, w')) :
    w.Brings (fun status => status = 200) bytes w' := by
  rw [Client.perform_getArchive] at h
  obtain ⟨link, w₁, hlink, h₁⟩ := run_bind_eq_ok h
  obtain ⟨_, w₂, hreport, h₂⟩ := run_bind_eq_ok h₁
  cases hreport
  have hresolved := (Client.archiveLink_sends (c := c) (R := fun _ => True) (P := fun _ => True)
    (U := fun _ => True) (fun _ _ => trivial) (fun _ _ _ _ _ _ _ => trivial) (fun _ _ => trivial)
    r .tarball reference archiveRedirects w fun _ _ => trivial).1
  rw [hlink] at hresolved
  exact .after (hresolved.trans (.report _ w₁)) (downloadArchive_brings h₂)

end Repository

/-! ### Where the bytes go -/

namespace World

/-- Bytes have become the content of one file and no other file has changed; or, without a file,
they have been printed and nothing was written. -/
def Delivered (output : Option String) (bytes : Bytes) (w w' : World) : Prop :=
  match output with
  | some target => w'.disk.read target = .ok bytes ∧ ∃ loc, w'.disk.file? loc = some bytes ∧
      ∀ other ≠ loc, w'.disk.file? other = w.disk.file? other
  | none => w'.disk = w.disk ∧ w'.console.out = w.console.out ++ bytes

/-- No file has changed and nothing was printed. -/
def Untouched (w w' : World) : Prop :=
  w'.disk.file? = w.disk.file? ∧ w'.console.out = w.console.out

end World

namespace Action

/-- An action off the wire that delivers bytes, or fails and touches nothing. -/
def Delivers (output : Option String) (bytes : Bytes) (m : Action Unit) : Prop :=
  ∀ w : World, (m.run w).2.wire = w.wire ∧
    ((m.run w).1 = .ok () → World.Delivered output bytes w (m.run w).2) ∧
    ∀ f, (m.run w).1 = .error f → World.Untouched w (m.run w).2

lemma delivers_print (bytes : Bytes) : Delivers none bytes (print (·.print bytes)) :=
  fun _ => ⟨rfl, fun _ => ⟨rfl, rfl⟩, fun _ h => by cases h⟩

lemma delivers_write (target : String) (bytes : Bytes) (f : Console → Console) :
    Delivers (some target) bytes (do
      onDisk (Files.writeOutput target bytes)
      print f) := by
  intro w
  rw [run_bind, onDisk_run]
  obtain ⟨-, ⟨f, hfail, -, hfiles⟩ | ⟨hok, loc, hfind, hothers⟩⟩ :=
    Files.writeOutput_written target bytes w.disk
  · rw [hfail]
    exact ⟨rfl, fun h => (by cases h), fun _ _ => ⟨hfiles, rfl⟩⟩
  · rw [hok]
    refine ⟨rfl, fun _ => ⟨Files.Disk.read_of_find hfind, loc, ?_, hothers⟩, fun _ h => by cases h⟩
    exact Files.Disk.file?_of_find hfind

end Action

namespace Command

open Repository HostedRepo.Action

/-- The statuses of a response whose body a command delivers; there are none if it delivers no
body. -/
def accepts? : Command → Option (Status → Bool)
  | .get .. => some Status.isSuccess
  | .archive .. => some fun status => status = 200
  | _ => none

lemma execute_download (c : Client) {x : Command} {accepts : Status → Bool}
    (hx : x.accepts? = some accepts) (w : World) :
    ∃ (α : Type) (a : Activity) (op : Operation α) (bytes : α → Bytes) (finish : α → Action Unit),
      Guarded w x.demands (x.execute c) (remote c a op >>= finish) ∧
        (∀ v, Delivers x.output? (bytes v) (finish v)) ∧
        ∀ w v w', (c.perform c.agent op).run w = (.ok v, w') → w.Brings accepts (bytes v) w' := by
  cases x with
  | get r path reference output =>
    cases hx
    refine ⟨RemoteFile, _, _, RemoteFile.content, _, guarded_checkRepo r _, fun file => ?_,
      fun w file w' h => getFile_brings h⟩
    cases output with
    | none => exact delivers_print _
    | some target => exact delivers_write _ _ _
  | archive r reference output =>
    cases hx
    exact ⟨Bytes, _, _, id, _, guarded_checkRepo r _, fun archive => delivers_write _ _ _,
      fun w archive w' h => getArchive_brings h⟩
  | _ => cases hx

/-- A download that ends well has delivered the whole body of the last response, which had a status
that is accepted. One that fails has touched nothing. -/
theorem download_delivers (c : Client) {x : Command} {accepts : Status → Bool}
    (hx : x.accepts? = some accepts) (w : World) :
    let out := (x.execute c).run w
    (out.1 = .ok () → ∃ used response bytes,
      w.wire.responses = used ++ response :: out.2.wire.responses ∧
        accepts response.status = true ∧ response.content? = some bytes ∧
        World.Delivered x.output? bytes w out.2) ∧
      ∀ f, out.1 = .error f → World.Untouched w out.2 := by
  intro out
  obtain ⟨α, a, op, bytes, finish, hguarded, hdelivers, hbrings⟩ := execute_download c hx w
  have hout : out = _ := hguarded
  cases hfirst : Demand.first? w.disk x.demands with
  | some f =>
    rw [hfirst] at hout
    rw [hout]
    exact ⟨fun h => (by cases h), fun _ _ => ⟨rfl, rfl⟩⟩
  | none =>
    rw [hfirst] at hout
    dsimp only at hout
    rw [run_bind, remote_run] at hout
    rcases hperform : (c.perform c.agent op).run w.wire with ⟨e | v, wire⟩
    · rw [hperform] at hout
      rw [hout]
      exact ⟨fun h => (by cases h), fun _ _ => ⟨rfl, rfl⟩⟩
    · rw [hperform] at hout
      replace hout : out = (finish v).run { w with wire := wire } := hout
      obtain ⟨hwire, hok, herror⟩ := hdelivers v { w with wire := wire }
      rw [hout]
      refine ⟨fun h => ?_, herror⟩
      obtain ⟨used, response, hused, haccepted, hcontent⟩ := hbrings _ _ _ hperform
      refine ⟨used, response, bytes v, ?_, haccepted, hcontent, hok h⟩
      rw [hused, hwire]

/-- An archive that is no text, to a folder that has to be made. -/
theorem download_delivers_archive :
    let x := Command.archive ⟨"o", "r"⟩ "main" "out/a.tgz"
    let wire := Wire.scripted "http"
      [movedTo 302 "http://files.test/a", { status := 200, body := [0, 255] }]
    let w : World := { disk := {}, wire := wire }
    let out := (x.execute keyed).run w
    x.accepts? = some (fun status => decide (status = 200)) ∧ out.1.isOk = true ∧
      (out.1 = .ok () → ∃ used response bytes,
        w.wire.responses = used ++ response :: out.2.wire.responses ∧
          decide (response.status = 200) = true ∧ response.content? = some bytes ∧
          World.Delivered (some "out/a.tgz") bytes w out.2) ∧
      ∀ f, out.1 = .error f → World.Untouched w out.2 := by
  intro x wire w out
  have hx : x.accepts? = some (fun status => decide (status = 200)) := rfl
  exact ⟨hx, by decide +kernel, download_delivers keyed hx w⟩

end Command

end HostedRepo
