import HostedRepo.Log.Event
import HostedRepo.Remote.Error
import HostedRepo.Remote.Object
import HostedRepo.Url.Basic

/-!
# Plans of remote calls

The calls that the remote side answers, each with the type of its reply, and plans: trees of
calls, downloads and log events in which what comes next hangs on the reply. Who answers the calls
is left open.
-/

namespace HostedRepo

/-- The repository that a call is about. -/
structure RepoName where
  owner : String
  repo : String
  deriving DecidableEq, Repr

def RepoName.text (r : RepoName) : String := r.owner ++ "/" ++ r.repo

inductive Call where
  | getRef (target : RepoName) (reference : String)
  | updateRef (target : RepoName) (reference sha : String) (force : Bool)
  | getTree (target : RepoName) (sha : String) (recursive : Bool)
  | createTree (target : RepoName) (baseTree : String) (entries : List NewEntry)
  | createCommit (target : RepoName) (commit : NewCommit)
  | getContents (target : RepoName) (path reference : String)
  | downloadContents (target : RepoName) (path reference : String)
  | deleteFile (target : RepoName) (path : String) (options : Deletion)
  | archiveLink (target : RepoName) (format : ArchiveFormat) (reference : String) (redirects : Nat)
  deriving DecidableEq, Repr

/-- What a call is answered with. -/
def Call.Reply : Call → Type
  | .getRef .. => Reference
  | .updateRef .. => Reference
  | .getTree .. => Tree
  | .createTree .. => Tree
  | .createCommit .. => Commit
  | .getContents .. => FileInfo
  | .downloadContents .. => Bytes
  | .deleteFile .. => Unit
  | .archiveLink .. => Url

inductive Plan (α : Type) where
  | done (a : α)
  | log (e : Log.Event) (next : Plan α)
  | call (c : Call) (next : Except RemoteError c.Reply → Plan α)
  /-- Fetches an archive from a link, outside the calls of the remote side. -/
  | download (link : Url) (next : Except RemoteError Bytes → Plan α)

namespace Plan

variable {α β : Type}

def bind : Plan α → (α → Plan β) → Plan β
  | .done a, f => f a
  | .log e next, f => .log e (next.bind f)
  | .call c next, f => .call c fun r => (next r).bind f
  | .download link next, f => .download link fun r => (next r).bind f

instance : Monad Plan where
  pure := .done
  bind := bind

end Plan

/-- A plan that stops at its first error. -/
abbrev Operation := ExceptT RemoteError Plan

namespace Operation

/-- Makes one call. -/
def call (c : Call) : Operation c.Reply :=
  ExceptT.mk (.call c .done)

/-- Makes one call and hands its error on as a value. -/
def attempt (c : Call) : Operation (Except RemoteError c.Reply) :=
  ExceptT.lift (.call c .done)

def download (link : Url) : Operation Bytes :=
  ExceptT.mk (.download link .done)

/-- Reports an event of the operations. -/
def report (level : Log.Level) (message : String) (fields : List (String × String)) :
    Operation Unit :=
  ExceptT.lift (.log ⟨level, .operations, message, fields⟩ (.done ()))

end Operation
end HostedRepo
