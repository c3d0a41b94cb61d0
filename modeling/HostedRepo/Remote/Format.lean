import HostedRepo.Json.Shape
import HostedRepo.Json.Value
import HostedRepo.Remote.Object

/-!
# The JSON form of remote objects

The shape of each object in responses, and the JSON values of what requests carry. Members with a
missing text are left out of requests.
-/

namespace HostedRepo

open Json

namespace GitObject

def shape : Shape :=
  .record "GitObject" (.cons "sha" .text false (.cons "type" .text false .nil))

end GitObject

namespace Reference

def shape : Shape :=
  .record "Reference" (.cons "ref" .text false (.cons "object" GitObject.shape false .nil))

def ofVal : shape.Val → Reference
  | (name, (sha, kind, ()), ()) => ⟨name, sha, kind⟩

end Reference

namespace TreeEntry

def shape : Shape :=
  .record "TreeEntry" (.cons "path" .text false (.cons "mode" .text false
    (.cons "type" .text false (.cons "sha" (.option .text) false
      (.cons "size" (.option .count) false .nil)))))

def ofVal : shape.Val → TreeEntry
  | (path, mode, kind, sha, size, ()) => ⟨path, mode, kind, sha, size⟩

end TreeEntry

namespace Tree

def shape : Shape :=
  .record "Tree" (.cons "sha" .text false (.cons "tree" (.list TreeEntry.shape) false
    (.cons "truncated" .flag true .nil)))

def ofVal : shape.Val → Tree
  | (sha, entries, truncated, ()) => ⟨sha, List.map TreeEntry.ofVal entries, truncated⟩

end Tree

namespace Commit

/-- A record that holds nothing but an object id. -/
def idShape (title : String) : Shape := .record title (.cons "sha" .text false .nil)

def shape : Shape :=
  .record "Commit" (.cons "sha" .text false (.cons "tree" (idShape "CommitTree") false
    (.cons "message" (.option .text) true
      (.cons "parents" (.list (idShape "CommitParent")) true .nil))))

def ofVal : shape.Val → Commit
  | (sha, (tree, ()), message, parents, ()) =>
    ⟨sha, tree, message, List.map (fun p : String × Unit => p.1) parents⟩

end Commit

namespace FileInfo

def shape : Shape :=
  .record "RepositoryContent" (.cons "name" .text false (.cons "path" .text false
    (.cons "sha" .text false (.cons "type" .text false (.cons "size" (.option .count) true
      (.cons "download_url" (.option .text) true .nil))))))

def ofVal : shape.Val → FileInfo
  | (name, path, sha, kind, size, url, ()) => ⟨name, path, sha, kind, size, url⟩

end FileInfo

namespace NewEntry

def toValue (e : NewEntry) : Value :=
  .object ([("path", .text e.path), ("mode", .text e.mode), ("type", .text e.kind)] ++
    Value.optionalText "sha" e.sha ++ Value.optionalText "content" e.content)

end NewEntry

namespace NewCommit

def toValue (c : NewCommit) : Value :=
  .object [("message", .text c.message), ("tree", .text c.tree),
    ("parents", .list (c.parents.map .text))]

end NewCommit

namespace Deletion

def toValue (d : Deletion) : Value :=
  .object ([("message", .text d.message)] ++ Value.optionalText "sha" d.sha ++
    Value.optionalText "branch" d.branch)

end Deletion

/-- What a new tree is made from. -/
def newTreeValue (baseTree : String) (entries : List NewEntry) : Json.Value :=
  .object [("base_tree", .text baseTree), ("tree", .list (entries.map NewEntry.toValue))]

/-- Where a reference is moved to. -/
def moveValue (sha : String) (force : Bool) : Json.Value :=
  .object [("sha", .text sha), ("force", .flag force)]

/-- The message of an error answer. -/
def refusalShape : Json.Shape := .record "ApiErrorBody" (.cons "message" .text false .nil)

end HostedRepo
