import HostedRepo.Client.Contents

/-!
# Running plans on a client

A client answers the calls of a plan one after the other; archives are downloaded by an agent of
their own, which sends neither token nor API headers.
-/

namespace HostedRepo

namespace Client

/-- Answers a call. -/
def answer (c : Client) : (call : Call) → Exchange call.Reply
  | .getRef r reference => c.getRef r reference
  | .updateRef r reference sha force => c.updateRef r reference sha force
  | .getTree r sha recursive => c.getTree r sha recursive
  | .createTree r base entries => c.createTree r base entries
  | .createCommit r commit => c.createCommit r commit
  | .getContents r path reference => c.getContents r path reference
  | .downloadContents r path reference => c.downloadContents r path reference
  | .deleteFile r path options => c.deleteFile r path options
  | .archiveLink r format reference redirects => c.archiveLink r format reference redirects

end Client

/-- The archive in a response that has to have the status 200. -/
def archiveContent (r : Http.Response) : Except RemoteError Bytes :=
  if r.status = 200 then Client.content r else .error (.archive r.status)

/-- Downloads an archive from a link. -/
def downloadArchive (a : Http.Agent) (link : Url) : Exchange Bytes := do
  let answer ← Client.transmit a (Http.Agent.prepare .get link [] [] none)
  Client.Exchange.of (archiveContent answer)

/-- Runs a plan: calls go to the client and downloads to the agent. -/
def Plan.runOn {α : Type} (c : Client) (a : Http.Agent) : Plan α → StateM Http.Wire α
  | .done x => return x
  | .log e next => do
    modify (Http.Wire.report e)
    next.runOn c a
  | .call request next => do
    let reply ← (c.answer request).run
    (next reply).runOn c a
  | .download link next => do
    let reply ← (downloadArchive a link).run
    (next reply).runOn c a

end HostedRepo
