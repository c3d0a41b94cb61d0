import HostedRepo.Remote.Plan

/-!
# Scripted replies

A stand-in for the remote side that answers calls from a list of prepared replies and keeps the
calls that were made.
-/

namespace HostedRepo

/-- A prepared reply: an error, or a value of every type that a call may ask for. -/
structure Script.Reply where
  answer : (c : Call) → Except RemoteError c.Reply

structure Script where
  replies : List Script.Reply
  calls : List Call := []
  log : List Log.Event := []

namespace Script

/-- Answers a call with the next reply. -/
def answer (c : Call) (s : Script) : Except RemoteError c.Reply × Script :=
  let s := { s with calls := s.calls ++ [c] }
  match s.replies with
  | [] => (.error (.unexpected "no reply scripted"), s)
  | reply :: rest => (reply.answer c, { s with replies := rest })

end Script

/-- Runs a plan on a script; `fetch` downloads archives. -/
def Plan.runScript {α : Type} {σ : Type} (fetch : Url → σ → Except RemoteError Bytes × σ) :
    Plan α → Script → σ → α × Script × σ
  | .done a, s, w => (a, s, w)
  | .log e next, s, w => next.runScript fetch { s with log := s.log ++ [e] } w
  | .call c next, s, w =>
    let (reply, s) := s.answer c
    (next reply).runScript fetch s w
  | .download link next, s, w =>
    let (reply, w) := fetch link w
    (next reply).runScript fetch s w

end HostedRepo
