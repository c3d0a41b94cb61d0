import HostedRepo.Client.GitObjects

/-!
# Contents and archives

The calls on files of a repository, and the resolution of archive links.
-/

namespace HostedRepo.Client

/-- The query that names a reference; an empty one means the default branch. -/
def refQuery (reference : String) : List (String × String) :=
  if reference.isEmpty then [] else [("ref", reference)]

/-- The endpoint of a file. -/
def contentsEndpoint (c : Client) (r : RepoName) (path : String) : Except RemoteError Url :=
  c.endpoint ["repos", r.owner, r.repo, "contents", path]

/-- A file as error messages name it. -/
def fileResource (r : RepoName) (path : String) : String := r.text ++ "/" ++ path

def directoryError (path : String) : RemoteError :=
  .unexpected (path ++ " is a directory, not a file")

/-- A JSON body as a whole, without regard to what it should hold. -/
def wholeBody (r : Http.Response) : Except RemoteError Json.Node := do
  let bs ← content r
  (Json.Node.whole bs).mapError fun _ => .transport .unreadableBody

/-- What a JSON body says about a file. -/
def fileInfo (path : String) (body : Json.Node) : Except RemoteError FileInfo :=
  match body with
  | .array _ _ => .error (directoryError path)
  | body =>
    match FileInfo.shape.decode body.sorted with
    | .ok v => .ok (FileInfo.ofVal v)
    | .error (.mismatch m) =>
      .error (.unexpected ("invalid contents response for " ++ path ++ ": " ++ m.message))
    | .error (.fault _) => .error (.transport .unreadableBody)

/-- Describes a single file. -/
def getContents (c : Client) (r : RepoName) (path reference : String) : Exchange FileInfo := do
  let u ← Exchange.of (c.contentsEndpoint r path)
  report .contents "fetching contents" (nameFields r ++
    [("path", path), ("reference", reference)])
  let answer ← c.send .get u acceptJson (refQuery reference) none
  let answer ← Exchange.of (checked (fileResource r path) answer)
  Exchange.of (wholeBody answer >>= fileInfo path)

/-- Whether a response says that its body is JSON. -/
def saysJson (r : Http.Response) : Bool :=
  match r.visible? "content-type" with
  | none => false
  | some t => "application/json".toList.isPrefixOf t.toList

/-- Whether bytes are a JSON array as a whole. -/
def isListing (bs : Bytes) : Bool := (Json.Node.items? bs).isSome

/-- The bytes of a response that is a file. A directory answers with a JSON array instead. -/
def fileContent (path : String) (r : Http.Response) : Except RemoteError Bytes := do
  let bs ← content r
  if saysJson r && isListing bs then throw (directoryError path)
  return bs

/-- Reads the bytes of a single file. -/
def downloadContents (c : Client) (r : RepoName) (path reference : String) : Exchange Bytes := do
  let u ← Exchange.of (c.contentsEndpoint r path)
  report .contents "downloading contents" (nameFields r ++
    [("path", path), ("reference", reference)])
  let answer ← c.send .get u acceptRaw (refQuery reference) none
  let answer ← Exchange.of (checked (fileResource r path) answer)
  Exchange.of (fileContent path answer)

/-- The object id that a deletion names: the given one, or the one found at its branch. -/
def deletionSha (c : Client) (r : RepoName) (path : String) (d : Deletion) : Exchange String :=
  match d.sha with
  | some sha => return sha
  | none => do
    let info ← c.getContents r path (d.branch.getD "")
    return info.sha

/-- Deletes a file in a commit of its own. -/
def deleteFile (c : Client) (r : RepoName) (path : String) (d : Deletion) : Exchange Unit := do
  let sha ← c.deletionSha r path d
  let u ← Exchange.of (c.contentsEndpoint r path)
  report .contents "deleting file" (nameFields r ++
    [("path", path), ("sha", sha), ("branch", Text.quoteOption d.branch)])
  let answer ← c.send .delete u acceptJson [] (some { d with sha := some sha }.toValue)
  let _ ← Exchange.of (checked (fileResource r path) answer)
  return ()

/-- Where a response sends on to. -/
def location (r : Http.Response) (source : Url) : Except RemoteError Url :=
  match r.visible? "location" with
  | none => .error (.unexpected
      (r.status.text ++ " redirect from " ++ source.text ++ " without a Location header"))
  | some reference => (Url.join source reference).mapError .url

/-- Resolves an archive link from a URL on; `hops` more moves are followed. -/
def resolveLink (c : Client) (r : RepoName) (format : ArchiveFormat) (limit hops : Nat)
    (u : Url) : Exchange Url := do
  report .contents "resolving archive link" (nameFields r ++
    [("format", format.name), ("url", u.text)])
  let answer ← transmit c.stayingAgent
    (Http.Agent.prepare .get u [] (c.headers acceptJson) none)
  if answer.status = 302 then Exchange.of (location answer u)
  else if answer.status = 301 then
    match hops with
    | 0 => throw (.unexpected ("exceeded " ++ toString limit ++ " redirects resolving " ++
        format.name ++ " link for " ++ r.text))
    | hops + 1 => do
      let next ← Exchange.of (location answer u)
      resolveLink c r format limit hops next
  else do
    let answer ← Exchange.of (checked (r.text ++ " " ++ format.name) answer)
    throw (.unexpected ("expected a redirect resolving " ++ format.name ++ " link for " ++
      r.text ++ ", got " ++ answer.status.text))

/-- The link under which an archive can be downloaded. A moved repository is followed. -/
def archiveLink (c : Client) (r : RepoName) (format : ArchiveFormat) (reference : String)
    (redirects : Nat) : Exchange Url := do
  let u ← Exchange.of (c.endpoint ["repos", r.owner, r.repo, format.name, reference])
  c.resolveLink r format redirects redirects u

end HostedRepo.Client
