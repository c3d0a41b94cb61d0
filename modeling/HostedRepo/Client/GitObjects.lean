import HostedRepo.Client.Basic
import HostedRepo.Text.Search

/-!
# References, trees and commits

The calls on the objects below a repository's `git` endpoint.
-/

namespace HostedRepo.Client

/-- A full reference without its first part, as endpoints take it. -/
def shortRef (reference : String) : String :=
  match Text.stripStart "refs/".toList reference.toList with
  | some rest => String.ofList rest
  | none => reference

def nameFields (r : RepoName) : List (String × String) :=
  [("owner", r.owner), ("repo", r.repo)]

/-- The endpoint below the `git` endpoint of a repository. -/
def gitEndpoint (c : Client) (r : RepoName) (segments : List String) : Except RemoteError Url :=
  c.endpoint (["repos", r.owner, r.repo, "git"] ++ segments)

/-- Resolves a full reference. -/
def getRef (c : Client) (r : RepoName) (reference : String) : Exchange Reference := do
  let u ← Exchange.of (c.gitEndpoint r ["ref", shortRef reference])
  report .gitObjects "fetching reference" (nameFields r ++ [("reference", reference)])
  let answer ← c.send .get u acceptJson [] none
  let answer ← Exchange.of (checked (r.text ++ " " ++ reference) answer)
  return Reference.ofVal (← Exchange.of (decoded Reference.shape answer))

/-- Points a reference at an object. -/
def updateRef (c : Client) (r : RepoName) (reference sha : String) (force : Bool) :
    Exchange Reference := do
  let u ← Exchange.of (c.gitEndpoint r ["refs", shortRef reference])
  report .gitObjects "updating reference" (nameFields r ++
    [("reference", reference), ("sha", sha), ("force", Log.flag force)])
  let answer ← c.send .patch u acceptJson [] (some (moveValue sha force))
  let answer ← Exchange.of (checked (r.text ++ " " ++ reference) answer)
  return Reference.ofVal (← Exchange.of (decoded Reference.shape answer))

/-- Reads a tree; the id of a commit stands for the tree of the commit. -/
def getTree (c : Client) (r : RepoName) (sha : String) (recursive : Bool) : Exchange Tree := do
  let u ← Exchange.of (c.gitEndpoint r ["trees", sha])
  report .gitObjects "fetching tree" (nameFields r ++
    [("sha", sha), ("recursive", Log.flag recursive)])
  let answer ← c.send .get u acceptJson (if recursive then [("recursive", "1")] else []) none
  let answer ← Exchange.of (checked (r.text ++ " tree " ++ sha) answer)
  return Tree.ofVal (← Exchange.of (decoded Tree.shape answer))

/-- Makes a tree from a base and entries. -/
def createTree (c : Client) (r : RepoName) (baseTree : String) (entries : List NewEntry) :
    Exchange Tree := do
  let u ← Exchange.of (c.gitEndpoint r ["trees"])
  report .gitObjects "creating tree" (nameFields r ++
    [("base_tree", baseTree), ("entries", toString entries.length)])
  let answer ← c.send .post u acceptJson [] (some (newTreeValue baseTree entries))
  let answer ← Exchange.of (checked (r.text ++ " trees") answer)
  return Tree.ofVal (← Exchange.of (decoded Tree.shape answer))

/-- Makes a commit. -/
def createCommit (c : Client) (r : RepoName) (commit : NewCommit) : Exchange Commit := do
  let u ← Exchange.of (c.gitEndpoint r ["commits"])
  report .gitObjects "creating commit" (nameFields r ++
    [("tree", commit.tree), ("parents", Text.quoteList commit.parents)])
  let answer ← c.send .post u acceptJson [] (some commit.toValue)
  let answer ← Exchange.of (checked (r.text ++ " commits") answer)
  return Commit.ofVal (← Exchange.of (decoded Commit.shape answer))

end HostedRepo.Client
