import HostedRepo.Proofs.CommandTasks
import HostedRepo.Proofs.DiskWriting
import HostedRepo.Proofs.TokenConfinement

/-!
# Checks come first

A command that does not meet a demand fails with it and leaves the world as it was. When all demands
are met, what can fail is the operation on the repository, with an error of the remote side, or
writing the result to its file. Folders that are accepted are never refused by the operation.
-/

namespace HostedRepo

open Http

/-- Whether an error refuses a path of the repository. -/
def RemoteError.refusesPath : RemoteError → Bool
  | .invalidPath .. => true
  | _ => false

/-! ### Errors of calls -/

namespace Client

variable {α : Type} {c : Client} {E : RemoteError → Prop}

/-- An exchange that does not end with the refusal of a path. -/
abbrev Admits (x : Exchange α) : Prop := Fails (fun e => e.refusesPath = false) x

lemma fails_of {r : Except RemoteError α} (h : Blames E r) : Fails E (Exchange.of r) :=
  fun _ e he => h e he

lemma fails_report (source : Log.Source) (message : String) (fields : List (String × String)) :
    Fails E (report source message fields) := fails_lift _

lemma fails_transmit (h : ∀ f, E (.transport f)) (a : Agent) (r : Except Http.Fault Request) :
    Fails E (transmit a r) := by
  intro w
  have hrun : ((transmit a r).run w).1 = ((a.send r).run w).1.mapError .transport := rfl
  rw [hrun]
  exact blames_mapError h _

/-! What the parts of calls blame -/

abbrev BlamesNoPath (r : Except RemoteError α) : Prop := Blames (fun e => e.refusesPath = false) r

lemma blames_endpoint (c : Client) (segments : List String) :
    BlamesNoPath (c.endpoint segments) := by
  unfold endpoint
  split
  · exact blames_error rfl
  · exact blames_ok _

lemma blames_checked (resource : String) (response : Response) :
    BlamesNoPath (checked resource response) := by
  unfold checked
  split
  · exact blames_ok _
  · split <;> exact blames_error rfl

lemma blames_location (response : Response) (u : Url) : BlamesNoPath (location response u) := by
  unfold location
  split
  · exact blames_error rfl
  · apply blames_mapError
    exact fun _ => rfl

/-! Calls -/

section

variable (c : Client) (r : RepoName)

lemma admits_request {segments : List String} {source : Log.Source} {message : String}
    {fields : List (String × String)} {m : Method} {accept : String}
    {query : List (String × String)} {body : Option Json.Value} {f : Response → Exchange α}
    (hf : ∀ answer, Admits (f answer)) :
    Admits (do
      let u ← Exchange.of (c.endpoint segments)
      report source message fields
      let answer ← c.send m u accept query body
      f answer) := by
  refine (fails_of (blames_endpoint c segments)).bind fun u => ?_
  refine (fails_report source message fields).bind fun _ => ?_
  exact (fails_transmit (fun _ => rfl) _ _).bind hf

lemma admits_gitCall {segments : List String} {message : String}
    {fields : List (String × String)} {m : Method} {query : List (String × String)}
    {body : Option Json.Value} {resource : String} {s : Json.Shape} {ofVal : s.Val → α} :
    Admits (c.gitCall (c.gitEndpoint r segments) message fields m query body resource s ofVal) := by
  refine admits_request c fun answer => ?_
  refine (fails_of (blames_checked resource answer)).bind fun answer => ?_
  exact (fails_of (blames_decoded (by rfl) s answer)).bind fun _ => fails_pure _

lemma admits_getContents (path reference : String) : Admits (c.getContents r path reference) := by
  refine admits_request c fun answer => ?_
  refine (fails_of (blames_checked _ answer)).bind fun answer => fails_of ?_
  exact Blames.bind (blames_wholeBody (by rfl) answer)
    (blames_fileInfo (by rfl) (fun _ => by rfl) path)

lemma admits_downloadContents (path reference : String) :
    Admits (c.downloadContents r path reference) := by
  refine admits_request c fun answer => ?_
  exact (fails_of (blames_checked _ answer)).bind fun answer => fails_of <|
    blames_fileContent (by rfl) (fun _ => by rfl) path _

lemma admits_deleteFile (path : String) (d : Deletion) : Admits (c.deleteFile r path d) := by
  have hsha : Admits (c.deletionSha r path d) := by
    unfold deletionSha
    split
    · exact fails_pure _
    · exact (c.admits_getContents r path _).bind fun _ => fails_pure _
  refine hsha.bind fun sha => admits_request c fun answer => ?_
  exact (fails_of (blames_checked _ answer)).bind fun _ => fails_pure _

lemma admits_resolveLink (format : ArchiveFormat) (limit hops : Nat) (u : Url) :
    Admits (c.resolveLink r format limit hops u) := by
  induction hops using Nat.strongRecOn generalizing u with
  | _ hops ih =>
    rw [resolveLink.eq_def]
    refine (fails_report _ _ _).bind fun _ => ?_
    refine (fails_transmit (fun _ => rfl) _ _).bind fun answer => ?_
    split
    · exact fails_of (blames_location answer u)
    · split
      · cases hops with
        | zero => exact fails_throw rfl
        | succ hops =>
          exact (fails_of (blames_location answer u)).bind fun next => ih hops (by omega) next
      · exact (fails_of (blames_checked _ answer)).bind fun _ => fails_throw rfl

lemma admits_answer (x : Call) : Admits (c.answer x) := by
  cases x with
  | getContents r path reference => exact c.admits_getContents r path reference
  | downloadContents r path reference => exact c.admits_downloadContents r path reference
  | deleteFile r path d => exact c.admits_deleteFile r path d
  | archiveLink r format reference redirects =>
    refine (fails_of (blames_endpoint c _)).bind fun u => ?_
    exact c.admits_resolveLink r format redirects redirects u
  | _ => exact c.admits_gitCall _

end

lemma admits_downloadArchive (a : Agent) (link : Url) : Admits (downloadArchive a link) := by
  refine (fails_transmit (fun _ => rfl) _ _).bind fun answer => fails_of ?_
  unfold archiveContent
  split
  · exact blames_content (by rfl) answer
  · exact blames_error rfl

end Client

/-! ### Errors of operations -/

namespace Check

lemma folder_not_root {path : String} (h : folder path = .ok ()) :
    Repository.isRoot path = false := by
  rw [← Bool.not_eq_true]
  intro hroot
  unfold Repository.isRoot at hroot
  unfold folder at h
  cases hpath : path.toList with
  | nil =>
    obtain rfl : path = "" := String.toList_injective hpath
    cases h
  | cons c rest =>
    rw [hpath, List.all_cons, Bool.and_eq_true, beq_iff_eq] at hroot
    obtain ⟨⟨⟩, -, h⟩ := bind_eq_ok h
    simp [require, hpath, hroot.1] at h

lemma find?_isRoot_of_folders {paths : List String} (h : folders paths = .ok ()) :
    paths.find? Repository.isRoot = none := by
  unfold folders at h
  split at h
  · cases h
  · next hne =>
    clear hne
    induction paths with
    | nil => rfl
    | cons path paths ih =>
      obtain ⟨⟨⟩, hpath, hrest⟩ := bind_eq_ok h
      rw [List.find?_cons, folder_not_root hpath]
      exact ih hrest

end Check

namespace Client

open Repository

variable (c : Client) (a : Agent) (r : RepoName)

lemma admits_getFile (path reference : String) :
    Admits (c.perform a (getFile r path reference)) := by
  rw [perform_getFile]
  exact (c.admits_downloadContents r path reference).bind fun _ => fails_pure _

lemma admits_getArchive (reference : String) : Admits (c.perform a (getArchive r reference)) := by
  rw [perform_getArchive]
  refine (c.admits_answer (.archiveLink r .tarball reference archiveRedirects)).bind fun link => ?_
  exact (fails_lift _).bind fun _ => admits_downloadArchive a link

lemma admits_latestHash (path reference : String) :
    Admits (c.perform a (latestHash r path reference)) := by
  rw [perform_latestHash]
  exact (c.admits_getContents r path reference).bind fun _ => fails_pure _

lemma admits_call_bind {β : Type} (x : Call) {f : x.Reply → Operation β}
    (hf : ∀ reply, Admits (c.perform a (f reply))) :
    Admits (c.perform a (Operation.call x >>= f)) := by
  rw [perform_call_bind]
  exact (c.admits_answer x).bind hf

lemma admits_push (files : FileMap) (branch message : String) :
    Admits (c.perform a (push r files branch message)) := by
  refine c.admits_call_bind a _ fun found => c.admits_call_bind a _ fun base => ?_
  refine c.admits_call_bind a _ fun tree => c.admits_call_bind a _ fun commit => ?_
  exact c.admits_call_bind a _ fun _ => fails_lift _

lemma admits_deleteDir (folder : String) : Admits (c.perform a (deleteDir r folder)) := by
  unfold deleteDir
  rw [perform_bind, perform_attempt]
  refine (c.admits_answer _).lift_bind fun reply hreply => ?_
  split
  · exact fails_lift _
  · exact fails_lift _
  · next e _ => exact fails_throw (hreply e rfl)

lemma admits_deleteDirs {folders : List String} (h : folders.find? isRoot = none) :
    Admits (c.perform a (deleteDirs r folders)) := by
  unfold deleteDirs
  rw [h]
  dsimp only
  clear h
  induction folders with
  | nil => exact fails_pure ()
  | cons folder folders ih =>
    rw [perform_forM_cons]
    exact (c.admits_deleteDir a r folder).bind fun _ => ih

end Client

/-! ### Failures of commands -/

lemma Command.folders_accepted {r : RepoName} {folders : List String} {d : Files.Disk}
    (h : (Command.removeDirs r folders).firstFailure? d = none) :
    Check.folders folders = .ok () := by
  have hlast := List.findSome?_eq_none_iff.mp h (.folders folders) (by simp [Command.demands])
  cases hcheck : Check.folders folders with
  | ok u => rfl
  | error e => simp [Demand.failure?, hcheck, Except.failure?] at hlast

lemma Task.admits {x : Command} {d : Files.Disk} {t : Task} (c : Client) (a : Agent)
    (ht : x.task? d = some t) (h : x.firstFailure? d = none) :
    Client.Admits (c.perform a t.operation) := by
  cases x with
  | parseUrl url => cases ht
  | get r path reference output =>
    cases ht
    exact c.admits_getFile a r path reference
  | archive r reference output =>
    cases ht
    exact c.admits_getArchive a r reference
  | sha r path reference =>
    cases ht
    exact c.admits_latestHash a r path reference
  | push r branch message mappings =>
    obtain ⟨files, -, rfl⟩ := Option.map_eq_some_iff.mp ht
    exact c.admits_push a r files branch message
  | removeDirs r folders =>
    cases ht
    have hfolders := Command.folders_accepted h
    exact c.admits_deleteDirs a r (Check.find?_isRoot_of_folders hfolders)

namespace Command

/-- A failure of the operation of a task, as its command reports it. -/
def FailsToPerform (c : Client) (t : Task) (w : Wire) (f : Failure) : Prop :=
  ∃ e, ((c.perform c.agent t.operation).run w).1 = .error e ∧ f = .during t.activity (.remote e)

/-- A failure to write the result of a task that was performed. -/
def FailsToDeliver (c : Client) (t : Task) (output : Option String) (w : Wire) (f : Failure) :
    Prop :=
  (∃ a, ((c.perform c.agent t.operation).run w).1 = .ok a) ∧
    ∃ target, output = some target ∧ Files.FailsToWrite target f

lemma failure_cases {c : Client} {x : Command} {w : World} {t : Task} {f : Failure}
    (hmet : x.firstFailure? w.disk = none) (ht : x.task? w.disk = some t)
    (hf : ((x.execute c).run w).1 = .error f) :
    FailsToPerform c t w.wire f ∨ FailsToDeliver c t x.output? w.wire f := by
  obtain ⟨-, ⟨e, hperform, herror⟩ | ⟨a, hperform, hfails⟩⟩ := execute_performs (c := c) hmet ht
  · rw [herror] at hf
    cases hf
    exact .inl ⟨e, hperform, rfl⟩
  · obtain ⟨target, content, houtput, hwrite⟩ := hfails f hf
    refine .inr ⟨⟨a, hperform⟩, target, houtput, ?_⟩
    obtain ⟨-, ⟨f', herror, hwritten, -⟩ | ⟨hok, -⟩⟩ :=
      Files.writeOutput_written target content w.disk
    · rw [hwrite] at herror
      cases herror
      exact hwritten
    · rw [hwrite] at hok
      cases hok

end Command

lemma Demand.failure?_ne {demand : Demand} {d : Files.Disk} {f : Failure}
    (hf : (∃ a e, f = .during a (.remote e)) ∨ ∃ target, Files.FailsToWrite target f) :
    demand.failure? d ≠ some f := by
  intro h
  cases demand with
  | fresh path earlier =>
    rw [failure?] at h
    split at h
    · obtain ⟨a, e, rfl⟩ | ⟨target, ⟨fault, rfl⟩ | ⟨folder, fault, -, rfl⟩⟩ := hf <;> cases h
    · cases h
  | _ =>
    obtain ⟨cause, -, hcause⟩ := Option.map_eq_some_iff.mp h
    obtain ⟨a, e, rfl⟩ | ⟨target, ⟨fault, rfl⟩ | ⟨folder, fault, -, rfl⟩⟩ := hf <;> cases hcause

namespace Command

/-- A demand that is not met is the end of a command before it does anything. Otherwise a failure is
one of the operation or of writing its result, and no demand fails like this; and no failure refuses
a path. -/
theorem execute_checked (c : Client) {x : Command} (hx : ∀ url, x ≠ .parseUrl url) (w : World) :
    (∀ f, x.firstFailure? w.disk = some f → (x.execute c).run w = (.error f, w)) ∧
      (x.firstFailure? w.disk = none → ∃ t, x.task? w.disk = some t ∧
        ∀ f, ((x.execute c).run w).1 = .error f →
          (FailsToPerform c t w.wire f ∨ FailsToDeliver c t x.output? w.wire f) ∧
            (∀ demand d, Demand.failure? d demand ≠ some f) ∧
            ∀ path reason, f.root ≠ .remote (.invalidPath path reason)) := by
  refine ⟨fun f hf => execute_run_of_failure hf, fun hmet => ?_⟩
  obtain ⟨t, ht⟩ := exists_task hx hmet
  refine ⟨t, ht, fun f hf => ?_⟩
  have hcases := failure_cases hmet ht hf
  refine ⟨hcases, fun demand d => Demand.failure?_ne ?_, fun path reason hroot => ?_⟩
  · obtain ⟨e, -, rfl⟩ | ⟨-, target, -, hwrite⟩ := hcases
    · exact .inl ⟨t.activity, e, rfl⟩
    · exact .inr ⟨target, hwrite⟩
  · obtain ⟨e, hperform, rfl⟩ | ⟨-, target, -, ⟨fault, rfl⟩ | ⟨folder, fault, -, rfl⟩⟩ := hcases
    · have hadmits := t.admits c c.agent ht hmet w.wire e hperform
      obtain rfl : e = .invalidPath path reason := Failure.remote.inj hroot
      cases hadmits
    · cases hroot
    · cases hroot

section

/-- A world with two files, on whose wire no request is answered. -/
def unanswered : World where
  disk := { entries := [(["a"], .file [97]), (["b"], .file [98])] }
  wire := Wire.scripted "http" []

/-- Two files for one path are found before a branch without a commit is. -/
theorem execute_checked_repeated :
    let push := Command.push ⟨"o", "r"⟩ "main" "m" [⟨"a", "x"⟩, ⟨"b", "x"⟩, ⟨"c", "y"⟩]
    let remove := Command.removeDirs ⟨"o", "r"⟩ ["docs"]
    (∀ url, push ≠ .parseUrl url) ∧ (∀ url, remove ≠ .parseUrl url) ∧
      push.firstFailure? unanswered.disk = some (.repeatedPath "x") ∧
      (push.execute keyed).run unanswered = (.error (.repeatedPath "x"), unanswered) ∧
      remove.firstFailure? unanswered.disk = none ∧
      ((remove.execute keyed).run unanswered).1.isOk = false ∧
      ∃ t, remove.task? unanswered.disk = some t ∧
        ∀ f, ((remove.execute keyed).run unanswered).1 = .error f →
          (FailsToPerform keyed t unanswered.wire f ∨
            FailsToDeliver keyed t remove.output? unanswered.wire f) ∧
          (∀ demand d, Demand.failure? d demand ≠ some f) ∧
          ∀ path reason, f.root ≠ .remote (.invalidPath path reason) := by
  intro push remove
  have hpush : ∀ url, push ≠ .parseUrl url := by simp [push]
  have hremove : ∀ url, remove ≠ .parseUrl url := by simp [remove]
  have hrepeated : push.firstFailure? unanswered.disk = some (.repeatedPath "x") := by
    decide +kernel
  have hmet : remove.firstFailure? unanswered.disk = none := by decide +kernel
  exact ⟨hpush, hremove, hrepeated, (execute_checked keyed hpush unanswered).1 _ hrepeated, hmet,
    by decide +kernel, (execute_checked keyed hremove unanswered).2 hmet⟩

end

end Command

end HostedRepo
