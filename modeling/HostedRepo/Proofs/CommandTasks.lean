import HostedRepo.Proofs.FileMapLookup
import HostedRepo.Proofs.PerformedOperations

/-!
# What commands demand and what they do

A command first makes its demands, one after the other, and ends with the first one that is not
met. When all are met, one operation on the repository follows, and what a command does with the
result of that no longer reaches the wire.
-/

namespace HostedRepo

def Except.failure? {ε α : Type} : Except ε α → Option ε
  | .ok _ => none
  | .error e => some e

/-- Something that a command asks of its arguments, or of the local files that they name. -/
inductive Demand where
  | name (argument value : String)
  | branch (value : String)
  | message (value : String)
  | someFile (mappings : List Mapping)
  | readable (path : String)
  /-- A path in the repository that no mapping in front has. -/
  | fresh (path : String) (earlier : List String)
  | folders (paths : List String)

namespace Demand

/-- How a demand is not met on a disk. -/
def failure? (d : Files.Disk) : Demand → Option Failure
  | .name argument value => (Except.failure? (Check.segment argument value)).map .rejected
  | .branch value => (Except.failure? (Check.branch value)).map .rejected
  | .message value => (Except.failure? (Check.message value)).map .rejected
  | .someFile mappings => (Except.failure? (Check.files mappings)).map .rejected
  | .readable path =>
    (Except.failure? (d.read path)).map fun f => .during (.read path) (.file f)
  | .fresh path earlier => if path ∈ earlier then some (.repeatedPath path) else none
  | .folders paths => (Except.failure? (Check.folders paths)).map .rejected

/-- How the first demand that is not met fails. -/
def first? (d : Files.Disk) (demands : List Demand) : Option Failure :=
  demands.findSome? (·.failure? d)

def ofRepo (r : RepoName) : List Demand := [.name "owner" r.owner, .name "repo" r.repo]

/-- The demands of mappings, in their order. -/
def ofMappings (earlier : List String) : List Mapping → List Demand
  | [] => []
  | m :: rest =>
    .readable m.source :: .fresh m.remote earlier :: ofMappings (m.remote :: earlier) rest

end Demand

/-- An operation on the repository and what a command is doing with it. -/
structure Task where
  {Result : Type}
  activity : Activity
  operation : Operation Result

namespace Command

open Repository

/-- The demands of a command in their order. -/
def demands : Command → List Demand
  | .parseUrl _ => []
  | .get r _ _ _ | .archive r _ _ | .sha r _ _ => Demand.ofRepo r
  | .push r branch message mappings =>
    Demand.ofRepo r ++ [.branch branch, .message message, .someFile mappings] ++
      Demand.ofMappings [] mappings
  | .removeDirs r folders => Demand.ofRepo r ++ [.folders folders]

/-- How a command fails before anything else, if its demands are not met. -/
def firstFailure? (d : Files.Disk) (x : Command) : Option Failure := Demand.first? d x.demands

/-- What a command asks of the repository once its demands are met. -/
def task? (d : Files.Disk) : Command → Option Task
  | .parseUrl _ => none
  | .get r path reference _ => some ⟨.fetch path r, getFile r path reference⟩
  | .archive r reference _ => some ⟨.archive r, getArchive r reference⟩
  | .sha r path reference => some ⟨.lookUp path r, latestHash r path reference⟩
  | .push r branch message mappings => (Mapping.collect d mappings).toOption.map fun files =>
    ⟨.push r branch, Repository.push r files branch message⟩
  | .removeDirs r folders => some ⟨.deleteFolders r, deleteDirs r folders⟩

/-- The file that a command writes its result to. -/
def output? : Command → Option String
  | .get _ _ _ output => output
  | .archive _ _ output => some output
  | _ => none

end Command

/-! ### Demands in a row -/

namespace Action

variable {α : Type} {w : World} {m k : Action α} {demands others : List Demand}

/-- From a state on, an action ends with the first of some demands that is not met, or goes on as
another one. -/
def Guarded (w : World) (demands : List Demand) (m k : Action α) : Prop :=
  m.run w = match Demand.first? w.disk demands with
    | some f => (.error f, w)
    | none => k.run w

lemma Guarded.refl (w : World) (m : Action α) : Guarded w [] m m := rfl

lemma Guarded.trans {l : Action α} (h₁ : Guarded w demands l m) (h₂ : Guarded w others m k) :
    Guarded w (demands ++ others) l k := by
  unfold Guarded at *
  rw [h₁, Demand.first?, Demand.first?, List.findSome?_append]
  cases demands.findSome? (·.failure? w.disk) with
  | some f => rfl
  | none => exact h₂

lemma guarded_check (demand : Demand) {r : Except Rejection Unit} {k : Unit → Action α}
    (h : demand.failure? w.disk = (Except.failure? r).map .rejected) :
    Guarded w [demand] (check r >>= k) (k ()) := by
  unfold Guarded
  rw [run_bind]
  rcases r with e | ⟨⟩ <;> simp [Demand.first?, h, Except.failure?] <;> rfl

lemma guarded_checkRepo (r : RepoName) (k : Unit → Action α) :
    Guarded w (Demand.ofRepo r) (Command.checkRepo r >>= k) (k ()) := by
  unfold Command.checkRepo
  rw [bind_assoc]
  exact (guarded_check (.name "owner" r.owner) rfl).trans
    (guarded_check (.name "repo" r.repo) rfl)

end Action

namespace Mapping

/-- The files with that of one more mapping. -/
def add (d : Files.Disk) (files : FileMap) (m : Mapping) : Except Failure FileMap := do
  let content ← readLocal d m.source
  if files.contains m.remote then throw (.repeatedPath m.remote)
  return files.insert m.remote content

lemma collect_eq (d : Files.Disk) (mappings : List Mapping) :
    collect d mappings = mappings.foldlM (add d) FileMap.empty := rfl

lemma add_cases (d : Files.Disk) (files : FileMap) (m : Mapping) :
    (∃ f, d.read m.source = .error f ∧
      add d files m = .error (.during (.read m.source) (.file f))) ∨
    ∃ content, d.read m.source = .ok content ∧ add d files m =
      if files.contains m.remote then .error (.repeatedPath m.remote)
      else .ok (files.insert m.remote content) := by
  unfold add readLocal
  cases hread : d.read m.source with
  | error f => exact .inl ⟨f, rfl, rfl⟩
  | ok content =>
    refine .inr ⟨content, rfl, ?_⟩
    change (do if files.contains m.remote then throw (.repeatedPath m.remote)
               return files.insert m.remote content : Except Failure FileMap) = _
    split <;> rfl

lemma contains_insert (files : FileMap) (path q : String) (content : Bytes) :
    (files.insert path content).contains q = true ↔ q = path ∨ files.contains q = true := by
  rw [FileMap.contains_iff, FileMap.contains_iff, FileMap.get?_insert]
  split
  · next h => simp [h]
  · next h => simp [h]

lemma failure?_foldlM_add (d : Files.Disk) (mappings : List Mapping) {files : FileMap}
    {earlier : List String} (h : ∀ path, files.contains path = true ↔ path ∈ earlier) :
    Except.failure? (mappings.foldlM (add d) files) =
      Demand.first? d (Demand.ofMappings earlier mappings) := by
  induction mappings generalizing files earlier with
  | nil => rfl
  | cons m rest ih =>
    rw [List.foldlM_cons]
    unfold Demand.first? Demand.ofMappings
    obtain ⟨f, hread, hadd⟩ | ⟨content, hread, hadd⟩ := add_cases d files m
    · simp only [List.findSome?_cons, Demand.failure?, hread, hadd]
      rfl
    · simp only [List.findSome?_cons, Demand.failure?, hread, hadd]
      by_cases hmem : m.remote ∈ earlier
      · rw [if_pos ((h _).mpr hmem), if_pos hmem]
        rfl
      · rw [if_neg fun hc => hmem ((h _).mp hc), if_neg hmem]
        refine ih fun path => ?_
        rw [contains_insert, h, List.mem_cons]

lemma failure?_collect (d : Files.Disk) (mappings : List Mapping) :
    Except.failure? (collect d mappings) = Demand.first? d (Demand.ofMappings [] mappings) := by
  rw [collect_eq]
  exact failure?_foldlM_add d mappings fun path => by simp [FileMap.contains, FileMap.paths,
    FileMap.empty]

end Mapping

/-! ### What is left when the demands are met -/

namespace Action

/-- An action that stays off the wire and can only fail in writing a file. -/
def Finishes (output : Option String) (m : Action Unit) : Prop :=
  ∀ w : World, (m.run w).2.wire = w.wire ∧ ∀ f, (m.run w).1 = .error f →
    ∃ target content, output = some target ∧ (Files.writeOutput target content w.disk).1 = .error f

lemma finishes_print (output : Option String) (f : Console → Console) :
    Finishes output (print f) :=
  fun _ => ⟨rfl, fun _ h => by cases h⟩

lemma finishes_write (target : String) (content : Bytes) (f : Console → Console) :
    Finishes (some target) (do
      onDisk (Files.writeOutput target content)
      print f) := by
  intro w
  rw [run_bind, onDisk_run]
  cases hwrite : (Files.writeOutput target content w.disk).1 with
  | ok u => exact ⟨rfl, fun _ h => by cases h⟩
  | error e =>
    refine ⟨rfl, fun f hf => ⟨target, content, rfl, ?_⟩⟩
    cases hf
    exact hwrite

lemma guarded_collect {α : Type} (w : World) (mappings : List Mapping) (k : FileMap → Action α) :
    Guarded w (Demand.ofMappings [] mappings)
      (onDisk (fun d => (Mapping.collect d mappings, d)) >>= k)
      (of (Mapping.collect w.disk mappings) >>= k) := by
  unfold Guarded
  rw [← Mapping.failure?_collect, run_bind, onDisk_run, run_bind]
  cases Mapping.collect w.disk mappings <;> rfl

end Action

namespace Command

open HostedRepo.Action

/-- A command makes its demands, and goes on with its task when they are met. -/
lemma execute_guarded (c : Client) (x : Command) (w : World) :
    ∃ k, Guarded w x.demands (x.execute c) k ∧ ∀ t, x.task? w.disk = some t →
      ∃ finish, k = remote c t.activity t.operation >>= finish ∧
        ∀ a, Finishes x.output? (finish a) := by
  cases x with
  | parseUrl url => exact ⟨_, .refl w _, fun t ht => by cases ht⟩
  | get r path reference output =>
    refine ⟨_, guarded_checkRepo r _, fun t ht => ?_⟩
    cases ht
    refine ⟨_, rfl, fun file => ?_⟩
    cases output with
    | none => exact finishes_print _ _
    | some target => exact finishes_write _ _ _
  | archive r reference output =>
    refine ⟨_, guarded_checkRepo r _, fun t ht => ?_⟩
    cases ht
    exact ⟨_, rfl, fun archive => finishes_write _ _ _⟩
  | sha r path reference =>
    refine ⟨_, guarded_checkRepo r _, fun t ht => ?_⟩
    cases ht
    exact ⟨_, rfl, fun sha => finishes_print _ _⟩
  | push r branch message mappings =>
    have hchecks (m : Action Unit) : Guarded w
        (Demand.ofRepo r ++ [.branch branch, .message message, .someFile mappings]) (do
          checkRepo r
          check (Check.branch branch)
          check (Check.message message)
          check (Check.files mappings)
          m) m :=
      (guarded_checkRepo r _).trans <| (guarded_check (.branch branch) rfl).trans <|
        (guarded_check (.message message) rfl).trans (guarded_check (.someFile mappings) rfl)
    refine ⟨_, (hchecks _).trans (guarded_collect w mappings _), fun t ht => ?_⟩
    obtain ⟨files, hfiles, rfl⟩ := Option.map_eq_some_iff.mp ht
    rw [toOption_eq_some_iff.mp hfiles]
    exact ⟨_, rfl, fun _ => finishes_print _ _⟩
  | removeDirs r folders =>
    refine ⟨_, (guarded_checkRepo r _).trans (guarded_check (.folders folders) rfl), ?_⟩
    intro t ht
    cases ht
    exact ⟨_, rfl, fun _ => finishes_print _ _⟩

section

variable {c : Client} {x : Command} {w : World}

theorem execute_run_of_failure {f : Failure} (h : x.firstFailure? w.disk = some f) :
    (x.execute c).run w = (.error f, w) := by
  obtain ⟨k, hguarded, -⟩ := execute_guarded c x w
  rw [hguarded, ← firstFailure?, h]

/-- A command whose demands are met performs its operation, and what it does on the wire is this.
It fails with the operation, or in writing the result. -/
theorem execute_performs {t : Task} (h : x.firstFailure? w.disk = none)
    (ht : x.task? w.disk = some t) :
    let out := (x.execute c).run w
    let performed := (c.perform c.agent t.operation).run w.wire
    out.2.wire = performed.2 ∧
      ((∃ e, performed.1 = .error e ∧ out.1 = .error (.during t.activity (.remote e))) ∨
        ∃ a, performed.1 = .ok a ∧ ∀ f, out.1 = .error f → ∃ target content,
          x.output? = some target ∧ (Files.writeOutput target content w.disk).1 = .error f) := by
  intro out performed
  obtain ⟨k, hguarded, htask⟩ := execute_guarded c x w
  obtain ⟨finish, rfl, hfinish⟩ := htask t ht
  have hout : out = (remote c t.activity t.operation >>= finish).run w := by
    change (x.execute c).run w = _
    rw [hguarded, ← firstFailure?, h]
  rw [run_bind, remote_run] at hout
  rcases hperformed : (c.perform c.agent t.operation).run w.wire with ⟨e | a, wire⟩
  · rw [hperformed] at hout
    have hpair : performed = (.error e, wire) := hperformed
    rw [hout, hpair]
    exact ⟨rfl, .inl ⟨e, rfl, rfl⟩⟩
  · rw [hperformed] at hout
    have hpair : performed = (.ok a, wire) := hperformed
    obtain ⟨hwire, hfails⟩ := hfinish a { w with wire := wire }
    rw [hout, hpair]
    exact ⟨hwire, .inr ⟨a, rfl, hfails⟩⟩

lemma exists_task {d : Files.Disk} (hx : ∀ url, x ≠ .parseUrl url)
    (h : x.firstFailure? d = none) : ∃ t, x.task? d = some t := by
  cases x with
  | parseUrl url => exact absurd rfl (hx url)
  | push r branch message mappings =>
    have hmappings : Demand.first? d (Demand.ofMappings [] mappings) = none := by
      rw [firstFailure?, demands, Demand.first?, List.findSome?_append, Option.or_eq_none_iff] at h
      exact h.2
    rw [← Mapping.failure?_collect] at hmappings
    rw [task?]
    cases hcollect : Mapping.collect d mappings with
    | error f =>
      rw [hcollect] at hmappings
      cases hmappings
    | ok files => exact ⟨_, rfl⟩
  | _ => exact ⟨_, rfl⟩

end

end Command

end HostedRepo
