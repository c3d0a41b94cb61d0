import HostedRepo.Text.Utf8

/-!
# Objects of a hosted repository

References, trees, commits and files as the remote side describes them, and the new entries and
commits that it is asked to make.
-/

namespace HostedRepo

/-- What a reference points at. -/
structure GitObject where
  sha : String
  kind : String
  deriving DecidableEq, Repr

structure Reference where
  name : String
  object : GitObject
  deriving DecidableEq, Repr

structure TreeEntry where
  path : String
  mode : String
  kind : String
  sha : Option String := none
  size : Option Nat := none
  deriving DecidableEq, Repr

structure Tree where
  sha : String
  entries : List TreeEntry
  truncated : Bool := false
  deriving DecidableEq, Repr

structure Commit where
  sha : String
  tree : String
  message : Option String := none
  parents : List String := []
  deriving DecidableEq, Repr

/-- What the remote side says about a single file. -/
structure FileInfo where
  name : String
  path : String
  sha : String
  kind : String
  size : Option Nat := none
  downloadUrl : Option String := none
  deriving DecidableEq, Repr

/-- An entry for a new tree: given by its content or by the object that is there already. -/
structure NewEntry where
  path : String
  mode : String
  kind : String
  sha : Option String := none
  content : Option String := none
  deriving DecidableEq, Repr

namespace NewEntry

/-- The mode of a regular file that is not executable. -/
def regularMode : String := "100644"

/-- A regular file with a content. -/
def blob (path content : String) : NewEntry :=
  ⟨path, regularMode, "blob", none, some content⟩

/-- An entry of a tree, unchanged. -/
def existing (e : TreeEntry) : NewEntry :=
  ⟨e.path, e.mode, e.kind, e.sha, none⟩

end NewEntry

structure NewCommit where
  message : String
  tree : String
  parents : List String
  deriving DecidableEq, Repr

/-- How a file is deleted; without `sha`, the object at `branch` is looked up first. -/
structure Deletion where
  message : String
  sha : Option String := none
  branch : Option String := none
  deriving DecidableEq, Repr

inductive ArchiveFormat where
  | tarball
  | zipball
  deriving DecidableEq, Repr

def ArchiveFormat.name : ArchiveFormat → String
  | .tarball => "tarball"
  | .zipball => "zipball"

/-- A file that was downloaded, with the path it was asked for at. -/
structure RemoteFile where
  name : String
  content : Bytes
  deriving DecidableEq, Repr

end HostedRepo
