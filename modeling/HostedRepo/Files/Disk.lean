import HostedRepo.Files.Route

/-!
# A disk of files and folders

A disk binds locations to files and folders; the root is a folder. Reading, writing and making
folders take a path, which is followed name by name from the root or from the current folder. A disk
never fills up, and there are no links and no permissions.
-/

namespace HostedRepo.Files

/-- Where something lies: the names from the root on. -/
abbrev Location := List String

inductive Entry where
  | file (content : Bytes)
  | folder
  deriving DecidableEq, Repr

structure Disk where
  entries : List (Location × Entry) := []
  here : Location := []
  deriving DecidableEq, Repr

namespace Disk

/-- What lies at a location. -/
def get? (d : Disk) (loc : Location) : Option Entry :=
  if loc = [] then some .folder else (d.entries.find? (·.1 = loc)).map (·.2)

/-- The disk with an entry at a location, in place of the one there. -/
def set (d : Disk) (loc : Location) (e : Entry) : Disk :=
  { d with entries := (loc, e) :: d.entries.filter (·.1 ≠ loc) }

/-- One step from a location to a name in it. -/
def step (d : Disk) (loc : Location) (name : String) : Except Fault Location :=
  match d.get? loc with
  | none => .error .notFound
  | some (.file _) => .error .notFolder
  | some .folder =>
    if name = "." then .ok loc
    else if name = ".." then .ok loc.dropLast
    else if Route.tooLong name then .error .nameTooLong
    else match d.get? (loc ++ [name]) with
      | none => .error .notFound
      | some _ => .ok (loc ++ [name])

/-- The location at the end of names. -/
def walk (d : Disk) (names : List String) (loc : Location) : Except Fault Location :=
  names.foldlM d.step loc

def startOf (d : Disk) (r : Route) : Location := if r.absolute then [] else d.here

/-- What a path leads to. -/
def find (d : Disk) (path : String) : Except Fault (Location × Entry) := do
  let r ← Route.parse path
  let loc ← d.walk r.names (d.startOf r)
  match d.get? loc with
  | none => throw .notFound
  | some (.file content) => if r.slashed then throw .notFolder else return (loc, .file content)
  | some .folder => return (loc, .folder)

def isThere (d : Disk) (path : String) : Bool := (d.find path).isOk

def isFolder (d : Disk) (path : String) : Bool :=
  match d.find path with
  | .ok (_, .folder) => true
  | _ => false

/-- The bytes of the file at a path. -/
def read (d : Disk) (path : String) : Except Fault Bytes := do
  match ← d.find path with
  | (_, .file content) => return content
  | (_, .folder) => throw .isFolder

/-- Where a new entry goes: the folder that the path leads to, and the last name. There is no last
name to give when the path ends in the root, `.` or `..`. -/
def place (d : Disk) (r : Route) : Except Fault (Location × Option String) := do
  let folder ← d.walk r.names.dropLast (d.startOf r)
  match d.get? folder with
  | none => throw .notFound
  | some (.file _) => throw .notFolder
  | some .folder =>
    match r.names.getLast? with
    | none | some "." | some ".." => return (folder, none)
    | some name => return (folder, some name)

/-- Puts a content into the file at a path, which is made if there is none. -/
def store (d : Disk) (path : String) (content : Bytes) : Except Fault Disk := do
  let r ← Route.parse path
  match ← d.place r with
  | (_, none) => throw .isFolder
  | (folder, some name) =>
    if r.slashed then throw .isFolder
    else if Route.tooLong name then throw .nameTooLong
    else match d.get? (folder ++ [name]) with
      | some .folder => throw .isFolder
      | _ => return d.set (folder ++ [name]) (.file content)

/-- Makes the folder at a path, in a folder that is there. -/
def makeFolder (d : Disk) (path : String) : Except Fault Disk := do
  let r ← Route.parse path
  match ← d.place r with
  | (_, none) => throw .exists
  | (folder, some name) =>
    if Route.tooLong name then throw .nameTooLong
    else match d.get? (folder ++ [name]) with
      | some _ => throw .exists
      | none => return d.set (folder ++ [name]) .folder

/-- Makes the folder at a path, unless it is there already. -/
def makeMissing (d : Disk) (path : String) : Except Fault Disk :=
  match d.makeFolder path with
  | .error .exists => if d.isFolder path then .ok d else .error .exists
  | r => r

/-- Makes the folder at a path with all folders above it. Returns the disk also when it fails, as
some folders may have been made. -/
def makeFolders (d : Disk) (fuel : Nat) (path : String) : Except Fault Unit × Disk :=
  match d.makeMissing path with
  | .ok d => (.ok (), d)
  | .error .notFound =>
    match fuel, parent? path with
    | fuel + 1, some above =>
      match (if above.isEmpty then (.ok (), d) else d.makeFolders fuel above) with
      | (.ok (), d) =>
        match d.makeMissing path with
        | .ok d => (.ok (), d)
        | .error f => (.error f, d)
      | failed => failed
    | _, _ => (.error .notFound, d)
  | .error f => (.error f, d)

/-- The files below the current folder that were not there or had another content on the disk
before, by path. -/
def changes (before after : Disk) : List (String × Bytes) :=
  after.entries.filterMap fun (loc, e) =>
    match e with
    | .folder => none
    | .file content =>
      if before.get? loc = some (.file content) then none
      else match after.here.isPrefixOf loc with
        | true => some ("/".intercalate (loc.drop after.here.length), content)
        | false => none

end Disk
end HostedRepo.Files
