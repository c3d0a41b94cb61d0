import HostedRepo.Proofs.GitExchanges

/-!
# How calls open and end

Every call but the resolution of archive links, and but a deletion that has to look its file up,
hands one request to the transport. The response that comes back is checked for its status, and only
a success is read.
-/

namespace HostedRepo

open Http

/-- The request that a call hands to the transport. -/
structure Opening where
  segments : List String
  method : Method
  accept : String := Client.acceptJson
  query : List (String × String) := []
  body : Option Json.Value := none

namespace Call

/-- The request of a call that makes one. -/
def opening? : Call → Option Opening
  | .getRef r reference =>
    some { segments := ["repos", r.owner, r.repo, "git", "ref", Client.shortRef reference]
           method := .get }
  | .updateRef r reference sha force =>
    some { segments := ["repos", r.owner, r.repo, "git", "refs", Client.shortRef reference]
           method := .patch, body := some (moveValue sha force) }
  | .getTree r sha recursive =>
    some { segments := ["repos", r.owner, r.repo, "git", "trees", sha]
           method := .get, query := if recursive then [("recursive", "1")] else [] }
  | .createTree r base entries =>
    some { segments := ["repos", r.owner, r.repo, "git", "trees"]
           method := .post, body := some (newTreeValue base entries) }
  | .createCommit r commit =>
    some { segments := ["repos", r.owner, r.repo, "git", "commits"]
           method := .post, body := some commit.toValue }
  | .getContents r path reference =>
    some { segments := ["repos", r.owner, r.repo, "contents", path]
           method := .get, query := Client.refQuery reference }
  | .downloadContents r path reference =>
    some { segments := ["repos", r.owner, r.repo, "contents", path]
           method := .get, accept := Client.acceptRaw, query := Client.refQuery reference }
  | .deleteFile r path d =>
    d.sha.map fun _ =>
      { segments := ["repos", r.owner, r.repo, "contents", path]
        method := .delete, body := some d.toValue }
  | .archiveLink .. => none

/-- What a call is about, as messages name it. -/
def resource : Call → String
  | .getRef r reference | .updateRef r reference _ _ => r.text ++ " " ++ reference
  | .getTree r sha _ => r.text ++ " tree " ++ sha
  | .createTree r _ _ => r.text ++ " trees"
  | .createCommit r _ => r.text ++ " commits"
  | .getContents r path _ | .downloadContents r path _ | .deleteFile r path _ =>
    Client.fileResource r path
  | .archiveLink r format _ _ => r.text ++ " " ++ format.name

end Call

namespace Client

variable {α : Type} {c : Client}

/-- An exchange hands a request to the transport, checks the response that comes back and reads it
if it is a success. -/
def Concludes (c : Client) (o : Opening) (resource : String)
    (read : Response → Except RemoteError α) (x : Exchange α) : Prop :=
  ∀ (u : Url) (w : Wire), c.endpoint o.segments = .ok u → ∃ e : Log.Event,
    let sent := (c.send o.method u o.accept o.query o.body).run (w.report e)
    x.run w = (sent.1 >>= checked resource >>= read, sent.2)

lemma concludes_of {o : Opening} {resource : String} {read : Response → Except RemoteError α}
    {f : Response → Exchange α} (source : Log.Source) (message : String)
    (fields : List (String × String))
    (hf : ∀ response w, (f response).run w = (checked resource response >>= read, w)) :
    c.Concludes o resource read (do
      let u ← Exchange.of (c.endpoint o.segments)
      report source message fields
      let answer ← c.send o.method u o.accept o.query o.body
      f answer) := by
  intro u w hu
  refine ⟨⟨.debug, source, message, fields⟩, ?_⟩
  rw [run_bind, hu]
  change (c.send o.method u o.accept o.query o.body >>= f).run (w.report _) = _
  rw [run_bind]
  rcases (c.send o.method u o.accept o.query o.body).run (w.report _) with ⟨_ | response, w'⟩
  · rfl
  · exact hf response w'

lemma run_of_checked {resource : String} {response : Response} {f : Response → Exchange α}
    {read : Response → Except RemoteError α} {w : Wire}
    (hf : ∀ response, (f response).run w = (read response, w)) :
    (Exchange.of (checked resource response) >>= f).run w =
      (checked resource response >>= read, w) := by
  rw [run_bind]
  cases checked resource response with
  | error e => rfl
  | ok response => exact hf response

/-! ### Calls -/

section

variable (c : Client) (r : RepoName)

lemma gitCall_concludes {o : Opening} {segments : List String} (message : String)
    (fields : List (String × String)) {resource : String} {s : Json.Shape} {ofVal : s.Val → α}
    (hsegments : o.segments = ["repos", r.owner, r.repo, "git"] ++ segments)
    (haccept : o.accept = acceptJson) :
    c.Concludes o resource (fun response => (decoded s response).map ofVal)
      (c.gitCall (c.gitEndpoint r segments) message fields o.method o.query o.body resource s
        ofVal) := by
  unfold gitCall gitEndpoint
  rw [← hsegments, ← haccept]
  refine concludes_of .gitObjects message fields fun response w => run_of_checked fun response => ?_
  rw [run_bind]
  cases decoded s response <;> rfl

lemma getContents_concludes (path reference : String) :
    c.Concludes { segments := ["repos", r.owner, r.repo, "contents", path], method := .get,
                  query := refQuery reference }
      (fileResource r path) (fun response => wholeBody response >>= fileInfo path)
      (c.getContents r path reference) :=
  concludes_of _ _ _ fun _ _ => run_of_checked fun _ => rfl

lemma downloadContents_concludes (path reference : String) :
    c.Concludes { segments := ["repos", r.owner, r.repo, "contents", path], method := .get,
                  accept := acceptRaw, query := refQuery reference }
      (fileResource r path) (fileContent path) (c.downloadContents r path reference) :=
  concludes_of _ _ _ fun _ _ => run_of_checked fun _ => rfl

lemma deleteFile_concludes (path message sha : String) (branch : Option String) :
    c.Concludes { segments := ["repos", r.owner, r.repo, "contents", path], method := .delete,
                  body := some (Deletion.toValue ⟨message, some sha, branch⟩) }
      (fileResource r path) (fun _ => .ok ()) (c.deleteFile r path ⟨message, some sha, branch⟩) :=
  concludes_of _ _ _ fun _ _ => run_of_checked fun _ => rfl

end

end Client
end HostedRepo
