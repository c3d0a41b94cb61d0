import HostedRepo.Http.Fault
import HostedRepo.Http.Message
import HostedRepo.Log.Event

/-!
# The wire

What a program meets when it sends requests: which URLs can be reached, and the responses that come
back one after the other. The wire keeps what was sent and what was reported on the way.
-/

namespace HostedRepo.Http

structure Wire where
  reaches : Url → Bool
  responses : List Response
  sent : List Request := []
  log : List Log.Event := []

namespace Wire

/-- A wire on which requests of one scheme are answered. -/
def scripted (scheme : String) (responses : List Response) : Wire :=
  { reaches := fun u => u.scheme = scheme, responses := responses }

/-- A wire that reaches nothing. -/
def cut (responses : List Response) : Wire :=
  { reaches := fun _ => false, responses := responses }

/-- The wire with an event reported. -/
def report (e : Log.Event) (w : Wire) : Wire :=
  { w with log := w.log ++ [e] }

/-- What becomes of a request that is put on the wire. -/
inductive Outcome where
  | unreachable
  | dropped
  | answered (r : Response)

/-- Puts one request on the wire. One that reaches its target is kept, answered or not; without a
response left the connection is dropped. -/
def exchange (r : Request) (w : Wire) : Outcome × Wire :=
  if w.reaches r.url then
    let w := { w with sent := w.sent ++ [{ r with url := r.url.target }] }
    match w.responses with
    | [] => (.dropped, w)
    | response :: rest => (.answered response, { w with responses := rest })
  else (.unreachable, w)

end Wire
end HostedRepo.Http
