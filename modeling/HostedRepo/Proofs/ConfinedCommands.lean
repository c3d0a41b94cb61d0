import HostedRepo.Proofs.BranchAddresses
import HostedRepo.Proofs.CommandTasks
import HostedRepo.Proofs.History
import HostedRepo.Proofs.PlaceholderDeletion
import HostedRepo.Proofs.RequestConfinement

/-!
# Where commands send requests

A command whose demands are met runs through a history of its operation, and all calls in that are
on the repository that it names. So all its requests start below the repositories of the root, if
that repository does not climb.
-/

namespace HostedRepo

open Http

/-! ### Histories of plans that are restricted -/

/-- A call or a download that a plan may come to make. -/
def Act.Within (K : Call → Prop) (D : Url → Prop) : Act → Prop
  | .reported _ => True
  | .answered x => K x.call
  | .downloaded link _ => D link

lemma Plan.Only.within {α : Type} {K : Call → Prop} {D : Url → Prop} {p q : Plan α} {h : History}
    (hp : p.Only K D) (hl : p.Leaves h q) : ∀ act ∈ h, act.Within K D := by
  induction hl with
  | stay p => simp
  | report _ ih => exact List.forall_mem_cons.mpr ⟨trivial, ih hp⟩
  | call reply _ ih => exact List.forall_mem_cons.mpr ⟨hp.1, ih (hp.2 reply)⟩
  | download reply _ ih => exact List.forall_mem_cons.mpr ⟨hp.1, ih (hp.2 reply)⟩

lemma Through.imp {σ : Type} {step step' : σ → Act → σ → Prop} {s t : σ} {h : History}
    (ht : Through step s h t) (hstep : ∀ s t, ∀ act ∈ h, step s act t → step' s act t) :
    Through step' s h t := by
  induction ht with
  | nil s => exact .nil s
  | cons hs _ ih =>
    have hrest := ih fun s t act hact => hstep s t act (List.mem_cons_of_mem _ hact)
    exact .cons (hstep _ _ _ List.mem_cons_self hs) hrest

/-! ### The repository of an operation -/

namespace Repository

variable {r : RepoName}

lemma getFile_only (path reference : String) :
    (getFile r path reference).run.Only (·.target = r) fun _ => True :=
  Operation.only_bind ⟨rfl, fun _ => trivial⟩ fun _ => trivial

lemma getArchive_only (reference : String) :
    (getArchive r reference).run.Only (·.target = r) fun _ => True :=
  Operation.only_bind ⟨rfl, fun _ => trivial⟩ fun _ =>
    Operation.only_bind trivial fun _ => ⟨trivial, fun _ => trivial⟩

lemma latestHash_only (path reference : String) :
    (latestHash r path reference).run.Only (·.target = r) fun _ => True :=
  Operation.only_bind ⟨rfl, fun _ => trivial⟩ fun _ => trivial

lemma push_only (files : FileMap) (branch message : String) :
    (push r files branch message).run.Only (·.target = r) fun _ => True := by
  refine Operation.only_bind ⟨rfl, fun _ => trivial⟩ fun _ => ?_
  refine Operation.only_bind ⟨rfl, fun _ => trivial⟩ fun _ => ?_
  refine Operation.only_bind ⟨rfl, fun _ => trivial⟩ fun _ => ?_
  refine Operation.only_bind ⟨rfl, fun _ => trivial⟩ fun _ => ?_
  exact Operation.only_bind ⟨rfl, fun _ => trivial⟩ fun _ => trivial

lemma deleteDirs_target (folders : List String) :
    (deleteDirs r folders).run.Only (·.target = r) fun _ => True := by
  refine (deleteDirs_only r folders).imp ?_ fun _ h => h.elim
  rintro x ⟨folder, -, rfl⟩
  rfl

end Repository

/-- One act of a plan that is run on a client. A call only opens trails that start below the
repositories of the root. -/
def Client.TakesBelow (c : Client) (w : Wire) (act : Act) (w' : Wire) : Prop :=
  c.Takes c.agent w act w' ∧ ∀ x, act = .answered x → c.Opens w w'

namespace Command

open Repository

def repo? : Command → Option RepoName
  | .parseUrl _ => none
  | .get r _ _ _ => some r
  | .archive r _ _ => some r
  | .sha r _ _ => some r
  | .push r _ _ _ => some r
  | .removeDirs r _ => some r

/-- What a command on a disk runs through: a history of its operation, or nothing when one of its
demands is not met or it has no need of the repository. -/
inductive RunsThrough (x : Command) (d : Files.Disk) : History → Prop
  | performed {task : Task} {result : Except RemoteError task.Result} {h : History} :
    x.firstFailure? d = none → x.task? d = some task → task.operation.run.Yields h result →
      RunsThrough x d h
  | refused {f : Failure} : x.firstFailure? d = some f → RunsThrough x d []
  | idle {url : String} : x = .parseUrl url → RunsThrough x d []

variable {c : Client} {x : Command} {d : Files.Disk} {r : RepoName}

lemma grounded_of_met (hmet : x.firstFailure? d = none) (hr : x.repo? = some r)
    (hlevel : ¬r.Climbs) : r.Grounded := by
  have hrepo : ∀ demand ∈ Demand.ofRepo r, demand.failure? d = none := by
    intro demand hdemand
    refine List.findSome?_eq_none_iff.mp hmet demand ?_
    cases x <;> cases hr <;> simp [demands, hdemand]
  have hname : ∀ argument value, .name argument value ∈ Demand.ofRepo r →
      '/' ∉ value.toList := by
    intro argument value hmem
    have hnone := hrepo _ hmem
    cases hcheck : Check.segment argument value with
    | ok u => exact (Check.segment_eq_ok_iff.mp hcheck).2
    | error e => simp [Demand.failure?, hcheck, Except.failure?] at hnone
  exact ⟨hname "owner" r.owner (by simp [Demand.ofRepo]),
    hname "repo" r.repo (by simp [Demand.ofRepo]), hlevel⟩

lemma task_only {task : Task} (htask : x.task? d = some task) :
    ∃ r, x.repo? = some r ∧ task.operation.run.Only (·.target = r) fun _ => True := by
  cases x with
  | parseUrl url => cases htask
  | get r path reference output =>
    cases htask
    exact ⟨r, rfl, getFile_only path reference⟩
  | archive r reference output =>
    cases htask
    exact ⟨r, rfl, getArchive_only reference⟩
  | sha r path reference =>
    cases htask
    exact ⟨r, rfl, latestHash_only path reference⟩
  | push r branch message mappings =>
    obtain ⟨files, -, rfl⟩ := Option.map_eq_some_iff.mp htask
    exact ⟨r, rfl, push_only files branch message⟩
  | removeDirs r folders =>
    cases htask
    exact ⟨r, rfl, deleteDirs_target folders⟩

lemma takesBelow {w w' : Wire} {act : Act} (hform : Url.WebForm c.apiBase) (hr : r.Grounded)
    (htakes : c.Takes c.agent w act w') (hwithin : act.Within (·.target = r) fun _ => True) :
    c.TakesBelow w act w' := by
  refine ⟨htakes, ?_⟩
  rintro y rfl
  have htarget : y.call.target = r := hwithin
  have hopens := (Client.answer_opens hform (htarget ▸ hr) w trivial).1
  have hrun : ((c.answer y.call).run w).2 = w' := congrArg Prod.snd htakes
  rwa [hrun] at hopens

/-- Whatever its arguments are and whatever comes back, a command on a repository that does not
climb goes through a history of its operation, and all trails of the calls in it start at the scheme,
host and port of the root and below its repositories. -/
theorem execute_confined {s : Client.Settings} {c : Client} (hc : Client.build s = .ok c)
    (hweb : Agent.isWeb c.apiBase = true) (command : Command)
    (hlevel : ∀ r ∈ command.repo?, ¬r.Climbs) (world : World) :
    ∃ h, command.RunsThrough world.disk h ∧
      Through c.TakesBelow world.wire h ((command.execute c).run world).2.wire := by
  obtain ⟨⟨text, hparse⟩, -⟩ := Client.build_apiBase hc
  have hform : Url.WebForm c.apiBase := Url.parse_webForm hparse hweb
  cases hmet : command.firstFailure? world.disk with
  | some f =>
    rw [execute_run_of_failure hmet]
    exact ⟨[], .refused hmet, .nil _⟩
  | none =>
    by_cases hidle : ∃ url, command = .parseUrl url
    · obtain ⟨url, rfl⟩ := hidle
      have hwire : (((Command.parseUrl url).execute c).run world).2.wire = world.wire := by
        unfold execute
        rw [run_bind]
        cases BlobUrl.parse url <;> rfl
      exact ⟨[], .idle rfl, hwire ▸ .nil _⟩
    · obtain ⟨task, htask⟩ := exists_task (fun url h => hidle ⟨url, h⟩) hmet
      obtain ⟨r, hr, honly⟩ := task_only htask
      have hgrounded : r.Grounded := grounded_of_met hmet hr (hlevel r hr)
      obtain ⟨hwire, -⟩ := execute_performs (c := c) hmet htask
      obtain ⟨h, hyields, ht⟩ := runOn_history c c.agent task.operation.run world.wire
      have hwithin := honly.within hyields
      refine ⟨h, .performed hmet htask hyields, ?_⟩
      rw [hwire]
      exact ht.imp fun w act w' hact htakes => takesBelow hform hgrounded htakes (hwithin _ hact)

section

/-- A world without files, on whose wire no request is answered. -/
def silent : World where
  disk := {}
  wire := Wire.scripted "http" []

/-- A folder all of whose parts lead up once their tabs are dropped. -/
theorem execute_confined_folder :
    let command := Command.removeDirs ⟨"o", "r"⟩ [".\t./.\t./.\t./.\t./.\t."]
    Client.build { apiBase := some "http://api.test" } = .ok Client.hub ∧
      Agent.isWeb Client.hub.apiBase = true ∧ (∀ r ∈ command.repo?, ¬r.Climbs) ∧
      ∃ h, command.RunsThrough silent.disk h ∧
        Through Client.hub.TakesBelow silent.wire h
          ((command.execute Client.hub).run silent).2.wire := by
  intro command
  have hbuild : Client.build { apiBase := some "http://api.test" } = .ok Client.hub := by
    decide +kernel
  have hweb : Agent.isWeb Client.hub.apiBase = true := by decide
  have hlevel : ∀ r ∈ command.repo?, ¬r.Climbs := by decide
  exact ⟨hbuild, hweb, hlevel, execute_confined hbuild hweb command hlevel silent⟩

/-- An owner that the checks accept takes a request out of the repositories. -/
theorem execute_climbs :
    let r : RepoName := ⟨".\t.", "x"⟩
    Client.build { apiBase := some "http://api.test" } = .ok Client.hub ∧
      Check.segment "owner" r.owner = .ok () ∧ Check.segment "repo" r.repo = .ok () ∧
      (((Command.get r "a" "" none).execute Client.hub).run silent).2.wire.sent.map
        (fun q => (q.method.name, q.url.text)) = [("GET", "http://api.test/x/contents/a")] := by
  decide +kernel

end

end Command
end HostedRepo
