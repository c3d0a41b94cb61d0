import HostedRepo.Client.Run
import HostedRepo.Command.Console
import HostedRepo.Command.Mapping
import HostedRepo.Files.Output
import HostedRepo.Remote.Repository

/-!
# Commands

The commands and what each does: its checks in order, then local files, then the repository, and
last what it writes and prints.
-/

namespace HostedRepo

inductive Command where
  | parseUrl (url : String)
  | get (repo : RepoName) (path reference : String) (output : Option String)
  | archive (repo : RepoName) (reference output : String)
  | sha (repo : RepoName) (path reference : String)
  | push (repo : RepoName) (branch message : String) (mappings : List Mapping)
  | removeDirs (repo : RepoName) (folders : List String)
  deriving DecidableEq, Repr

/-- What a command works on. -/
structure World where
  disk : Files.Disk
  wire : Http.Wire
  console : Console := {}

/-- Steps of a command, up to the first failure. -/
abbrev Action := ExceptT Failure (StateM World)

namespace Action

variable {α : Type}

def of (r : Except Failure α) : Action α := ExceptT.mk (pure r)

/-- Accepts or rejects an argument. -/
def check (r : Except Rejection Unit) : Action Unit := of (r.mapError .rejected)

/-- Runs an operation on a client; archives are downloaded by the client's own agent. -/
def remote (c : Client) (a : Activity) (op : Operation α) : Action α :=
  ExceptT.mk fun w =>
    let (r, wire) := (op.run.runOn c c.agent).run w.wire
    (r.mapError fun e => .during a (.remote e), { w with wire := wire })

/-- Works on the disk. -/
def onDisk (f : Files.Disk → Except Failure α × Files.Disk) : Action α :=
  ExceptT.mk fun w =>
    let (r, disk) := f w.disk
    (r, { w with disk := disk })

def print (f : Console → Console) : Action Unit :=
  ExceptT.lift (modify fun w => { w with console := f w.console })

end Action

namespace Command

open HostedRepo.Action

/-- The line that tells what was done to a repository. -/
def report (color : Bool) (repo : RepoName) (done rest : String) : String :=
  emphasized color .boldCyan repo.text ++ " | " ++ emphasized color .green done ++ " " ++ rest

def sizeText (bytes : Bytes) : String := "(" ++ toString bytes.length ++ " bytes)"

def checkRepo (r : RepoName) : Action Unit := do
  check (Check.segment "owner" r.owner)
  check (Check.segment "repo" r.repo)

def parseUrlLines (color : Bool) (b : BlobUrl) : List String :=
  [emphasized color .bold "owner:" ++ " " ++ b.owner,
    emphasized color .bold "repo: " ++ " " ++ b.repo,
    emphasized color .bold "path: " ++ " " ++ b.path]

/-- Executes a command with a client. -/
def execute (c : Client) : Command → Action Unit
  | .parseUrl url => do
    let b ← of ((BlobUrl.parse url).mapError fun f => .remote (.ofBlobFault f))
    print fun con => (parseUrlLines con.color b).foldl (fun con l => con.printLine l) con
  | .get repo path reference output => do
    checkRepo repo
    let file ← remote c (.fetch path repo) (Repository.getFile repo path reference)
    match output with
    | some target =>
      onDisk (Files.writeOutput target file.content)
      print fun con => con.printErrorLine
        (report con.color repo "Saved" (target ++ " " ++ sizeText file.content))
    | none => print (·.print file.content)
  | .archive repo reference output => do
    checkRepo repo
    let archive ← remote c (.archive repo) (Repository.getArchive repo reference)
    onDisk (Files.writeOutput output archive)
    print fun con => con.printLine
      (report con.color repo "Archive saved to" (output ++ " " ++ sizeText archive))
  | .sha repo path reference => do
    checkRepo repo
    let sha ← remote c (.lookUp path repo) (Repository.latestHash repo path reference)
    print (·.printLine sha)
  | .push repo branch message mappings => do
    checkRepo repo
    check (Check.branch branch)
    check (Check.message message)
    check (Check.files mappings)
    let files ← onDisk fun d => (Mapping.collect d mappings, d)
    remote c (.push repo branch) (Repository.push repo files branch message)
    print fun con => con.printLine
      (report con.color repo "Pushed" (toString files.size ++ " file(s) to " ++ branch))
  | .removeDirs repo folders => do
    checkRepo repo
    check (Check.folders folders)
    remote c (.deleteFolders repo) (Repository.deleteDirs repo folders)
    print fun con => con.printLine
      (report con.color repo "Deleted" (", ".intercalate folders))

end Command
end HostedRepo
