import HostedRepo.Client.Run
import HostedRepo.Command.Execute
import HostedRepo.Proofs.StateTriples

/-!
# Operations that are performed

A client performs an operation by its exchanges: what operations are put together from is performed
one after the other.
-/

namespace HostedRepo

open Http

lemma Plan.runOn_bind {α β : Type} (c : Client) (a : Agent) (p : Plan α) (f : α → Plan β) :
    (p.bind f).runOn c a = p.runOn c a >>= fun x => (f x).runOn c a := by
  funext w
  induction p generalizing w with
  | done x => rfl
  | log e next ih => exact ih (w.report e)
  | call request next ih => exact ih _ ((c.answer request).run w).2
  | download link next ih => exact ih _ ((downloadArchive a link).run w).2

namespace Client

variable {α β : Type} (c : Client) (a : Agent)

/-- An operation as an exchange of a client; archives are downloaded by an agent. -/
def perform (op : Operation α) : Exchange α := ExceptT.mk (op.run.runOn c a)

lemma perform_bind (x : Operation α) (f : α → Operation β) :
    c.perform a (x >>= f) = c.perform a x >>= fun y => c.perform a (f y) := by
  apply ExceptT.ext
  funext w
  have hrun : (c.perform a (x >>= f)).run w =
      ((x.run.bind (ExceptT.bindCont f)).runOn c a).run w := rfl
  have hx : (c.perform a x).run w = (x.run.runOn c a).run w := rfl
  rw [hrun, Plan.runOn_bind, StateT.run_bind, ← hx]
  change _ = (c.perform a x >>= fun y => c.perform a (f y)).run w
  rw [HostedRepo.run_bind]
  rcases (c.perform a x).run w with ⟨_ | y, w'⟩ <;> rfl

lemma perform_forM_cons (f : β → Operation PUnit) (x : β) (xs : List β) :
    c.perform a ((x :: xs).forM f) = c.perform a (f x) >>= fun _ => c.perform a (xs.forM f) :=
  c.perform_bind a (f x) fun _ => xs.forM f

lemma perform_attempt (x : Call) :
    c.perform a (Operation.attempt x) = ExceptT.lift (c.answer x).run := rfl

lemma perform_call_bind (x : Call) (f : x.Reply → Operation β) :
    c.perform a (Operation.call x >>= f) = c.answer x >>= fun reply => c.perform a (f reply) :=
  c.perform_bind a (Operation.call x) f

lemma perform_getFile (r : RepoName) (path reference : String) :
    c.perform a (Repository.getFile r path reference) =
      c.downloadContents r path reference >>= fun content => pure ⟨path, content⟩ :=
  c.perform_call_bind a (.downloadContents r path reference) fun content =>
    pure (RemoteFile.mk path content)

lemma perform_latestHash (r : RepoName) (path reference : String) :
    c.perform a (Repository.latestHash r path reference) =
      c.getContents r path reference >>= fun info => pure info.sha :=
  c.perform_call_bind a (.getContents r path reference) fun info => pure (FileInfo.sha info)

/-- What is reported between the resolution of the link of an archive and its download. -/
def downloading (r : RepoName) (reference : String) (link : Url) : Log.Event :=
  ⟨.debug, .operations, "downloading archive", Repository.repoFields r ++
    [("reference", reference), ("host", Text.quoteOption link.host?)]⟩

lemma perform_getArchive (r : RepoName) (reference : String) :
    c.perform a (Repository.getArchive r reference) = (do
      let link ← c.archiveLink r .tarball reference Repository.archiveRedirects
      ExceptT.lift (modify (Wire.report (downloading r reference link)))
      downloadArchive a link) :=
  c.perform_call_bind a (.archiveLink r .tarball reference Repository.archiveRedirects)
    fun (link : Url) => do
      Operation.report .debug "downloading archive" (Repository.repoFields r ++
        [("reference", reference), ("host", Text.quoteOption link.host?)])
      Operation.download link

end Client

lemma Action.remote_run {α : Type} (c : Client) (activity : Activity) (op : Operation α)
    (w : World) : (remote c activity op).run w =
      (((c.perform c.agent op).run w.wire).1.mapError fun e => .during activity (.remote e),
        { w with wire := ((c.perform c.agent op).run w.wire).2 }) := rfl

lemma Action.onDisk_run {α : Type} (f : Files.Disk → Except Failure α × Files.Disk) (w : World) :
    (onDisk f).run w = ((f w.disk).1, { w with disk := (f w.disk).2 }) := rfl

end HostedRepo
