import HostedRepo.CommandLine.Run

/-!
# The program

Copies the files that the arguments name to a disk, runs the program on it, writes back what
changed and prints.
-/

namespace HostedRepo.CommandLine

/-- The disk with what lies at a path of the machine. -/
def copyIn (disk : Files.Disk) (path : String) : IO Files.Disk := do
  try
    let content ← IO.FS.readBinFile path
    return (Files.writeOutput path content.toList disk).2
  catch
    | .inappropriateType .. => return (Files.ensureFolder path disk).2
    | _ => return disk

/-- Writes the file at a path to the machine, if a run changed it. -/
def copyOut (before after : Files.Disk) (path : String) : IO Unit := do
  match after.read path, before.read path with
  | .ok content, .ok old => if content ≠ old then store content
  | .ok content, .error _ => store content
  | .error _, _ => return
where
  store (content : Bytes) : IO Unit := do
    match Files.parent? path with
    | none | some "" => pure ()
    | some folder => IO.FS.createDirAll folder
    IO.FS.writeBinFile path ⟨content.toArray⟩

/-- The variables of the environment that a run looks at. -/
def environment : IO Environment := do
  let known ← Environment.variableNames.filterMapM fun name => do
    return (← IO.getEnv name).map fun value => (name, Text.Utf8.encode value)
  return fun name => known.lookup name

/-- The disk of the machine, as far as arguments name its files. -/
def localDisk (arguments : List String) : IO Files.Disk := do
  let home : Files.Location := ["home"]
  let start : Files.Disk := { entries := [(home, .folder)], here := home }
  match Invocation.ofArguments arguments with
  | .error _ => return start
  | .ok i => i.paths.foldlM copyIn start

end HostedRepo.CommandLine

open HostedRepo

/-- The program always runs on a wire that reaches nothing: there is no network here, so each of its
requests fails as one to a host that cannot be reached. -/
def main (arguments : List String) : IO UInt32 := do
  let disk ← CommandLine.localDisk arguments
  let out ← IO.getStdout
  let exit := CommandLine.run (← CommandLine.environment) arguments (← out.isTty) disk
    (Http.Wire.cut [])
  if let .ok i := CommandLine.Invocation.ofArguments arguments then
    i.paths.forM (CommandLine.copyOut disk exit.world.disk)
  out.write ⟨exit.world.console.out.toArray⟩
  (← IO.getStderr).write ⟨exit.world.console.err.toArray⟩
  return UInt32.ofNat exit.code
