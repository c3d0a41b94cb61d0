import HostedRepo.Failure
import HostedRepo.Files.Disk

/-!
# Writing results to files
-/

namespace HostedRepo.Files

/-- Makes a folder and those above it. -/
def ensureFolder (path : String) (d : Disk) : Except Failure Unit × Disk :=
  if path.isEmpty then (.ok (), d)
  else
    let (r, d) := d.makeFolders path.length path
    (r.mapError fun f => .during (.makeFolder path) (.file f), d)

/-- Writes a content to a path, whose folders are made. -/
def writeOutput (path : String) (content : Bytes) (d : Disk) : Except Failure Unit × Disk :=
  let (made, d) : Except Failure Unit × Disk := match parent? path with
    | none => (.ok (), d)
    | some folder => ensureFolder folder d
  match made with
  | .error f => (.error f, d)
  | .ok () =>
    match d.store path content with
    | .ok d => (.ok (), d)
    | .error f => (.error (.during (.write path) (.file f)), d)

end HostedRepo.Files
