import HostedRepo.Remote.FileMap
import HostedRepo.Remote.Plan

/-!
# Repository operations

The operations on a hosted repository, as plans of remote calls: reading a file, an archive or an
object id, committing files to a branch, and deleting folders by their placeholders.
-/

namespace HostedRepo.Repository

open Operation

/-- How often a moved archive link is followed. -/
def archiveRedirects : Nat := 3

/-- The branch that folder deletions are committed to. -/
def deletionBranch : String := "main"

/-- The file that keeps an otherwise empty folder. -/
def placeholder : String := ".gitkeep"

/-- The repository in log events. -/
def repoFields (r : RepoName) : List (String × String) :=
  [("owner", r.owner), ("repo", r.repo)]

/-- Reads one file; an empty reference means the default branch. -/
def getFile (r : RepoName) (path reference : String) : Operation RemoteFile := do
  let content ← call (.downloadContents r path reference)
  return ⟨path, content⟩

/-- Fetches the archive of the repository. -/
def getArchive (r : RepoName) (reference : String) : Operation Bytes := do
  let link : Url ← call (.archiveLink r .tarball reference archiveRedirects)
  report .debug "downloading archive"
    (repoFields r ++ [("reference", reference), ("host", Text.quoteOption link.host?)])
  download link

/-- The object id of a file. -/
def latestHash (r : RepoName) (path reference : String) : Operation String := do
  let info : FileInfo ← call (.getContents r path reference)
  return info.sha

/-- The full name of a branch. -/
def branchRef (branch : String) : String := "refs/heads/" ++ branch

/-- The entries of the new tree: the files, then the entries of the old tree that no file
replaces. -/
def treeEntries (files : FileMap) (base : List TreeEntry) : List NewEntry :=
  files.entries.map (fun (path, content) => .blob path (Text.Utf8.decodeLossy content)) ++
    (base.filter fun e => !files.contains e.path).map .existing

/-- Commits files to a branch. The branch moves in the last call and only there. -/
def push (r : RepoName) (files : FileMap) (branch message : String) : Operation Unit := do
  let reference := branchRef branch
  let found : Reference ← call (.getRef r reference)
  let tip := found.object.sha
  let base : Tree ← call (.getTree r tip false)
  let tree : Tree ← call (.createTree r tip (treeEntries files base.entries))
  let commit : Commit ← call (.createCommit r ⟨message, tree.sha, [tip]⟩)
  let _ ← call (.updateRef r reference commit.sha true)
  report .info "pushed files" (repoFields r ++ [("branch", branch), ("parent", tip),
    ("commit", commit.sha), ("files", toString files.size)])

/-- Whether a folder name has nothing but slashes. -/
def isRoot (folder : String) : Bool := folder.toList.all (· == '/')

/-- The placeholder of a folder. -/
def placeholderPath (folder : String) : String := folder ++ "/" ++ placeholder

/-- How the placeholder of a folder is deleted. -/
def deletion (folder : String) : Deletion :=
  ⟨"Delete folder " ++ folder, none, some deletionBranch⟩

/-- Deletes one folder; one that is gone already counts as deleted. -/
def deleteDir (r : RepoName) (folder : String) : Operation Unit := do
  let fields := repoFields r ++ [("folder", folder)]
  match ← attempt (.deleteFile r (placeholderPath folder) (deletion folder)) with
  | .ok _ => report .info "deleted folder" fields
  | .error (.notFound _) => report .debug "placeholder already absent" fields
  | .error e => throw e

/-- Deletes folders one after the other. A name without a folder fails before anything is
deleted. -/
def deleteDirs (r : RepoName) (folders : List String) : Operation Unit :=
  match folders.find? isRoot with
  | some folder => throw (.invalidPath folder "folder name is empty")
  | none => folders.forM (deleteDir r)

end HostedRepo.Repository
