import HostedRepo.Url.Basic

/-!
# Faults of the transport

Why a request was not sent or not answered, with the messages that are shown for each.
-/

namespace HostedRepo.Http

inductive Fault where
  /-- A header value has a control character. -/
  | headerValue
  /-- The URL has no host to connect to. -/
  | noHost (url : Url)
  /-- The URL is of a scheme that cannot be sent to. -/
  | scheme (url : Url)
  | unreachable (url : Url)
  | dropped (url : Url)
  | redirectLimit (url : Url)
  | unreadableBody
  deriving DecidableEq, Repr

namespace Fault

def atUrl (what : String) (u : Url) : String := what ++ " for url (" ++ u.text ++ ")"

def message : Fault → String
  | .headerValue => "builder error"
  | .noHost u => atUrl "builder error" u
  | .scheme u => atUrl "builder error" u
  | .unreachable u => atUrl "error sending request" u
  | .dropped u => atUrl "error sending request" u
  | .redirectLimit u => atUrl "error following redirect" u
  | .unreadableBody => "error decoding response body"

/-- The messages below the first one. -/
def causes : Fault → List String
  | .headerValue => ["failed to parse header value"]
  | .noHost _ | .scheme _ => ["URL scheme is not allowed"]
  | .unreachable _ =>
    ["client error (Connect)", "tcp connect error", "Network is unreachable (os error 101)"]
  | .dropped _ =>
    ["client error (SendRequest)", "connection closed before message completed"]
  | .redirectLimit _ => ["too many redirects"]
  | .unreadableBody => []

end Fault
end HostedRepo.Http
