import HostedRepo.Client.Token
import HostedRepo.Http.Agent
import HostedRepo.Json.Shape
import HostedRepo.Remote.Error
import HostedRepo.Remote.Format
import HostedRepo.Remote.Plan
import HostedRepo.Url.Segments

/-!
# The client of the REST API

A client knows the root of the API, a user agent and perhaps a token. Its requests go to endpoints
below the root, and every response that is not a success becomes an error.
-/

namespace HostedRepo

/-- A client. The host of its root is an address or a name in ASCII, as `Url.Host.readSpecial`
accepts it. -/
structure Client where
  apiBase : Url
  token : Option Token := none
  userAgent : String
  deriving DecidableEq

/-- Requests on a wire, up to the first error. -/
abbrev Exchange := ExceptT RemoteError (StateM Http.Wire)

namespace Client

/-- The root of the public API. -/
def publicBase : String := "https://api.github.com"

def defaultUserAgent : String := "ghrepo/0.1.0"

/-- The media type of JSON answers. -/
def acceptJson : String := "application/vnd.github+json"

/-- The media type that asks for the bytes of a file. -/
def acceptRaw : String := "application/vnd.github.raw"

def apiVersion : String := "2022-11-28"

/-- What a client is made from; what is missing has a default. -/
structure Settings where
  apiBase : Option String := none
  token : Option String := none
  userAgent : Option String := none
  deriving DecidableEq, Repr

/-- Makes a client. Its root must be a URL to whose path something can be added. A root with an
international host name has to be given in the ASCII form of that. -/
def build (s : Settings) : Except RemoteError Client := do
  let base ← (Url.parse (s.apiBase.getD publicBase)).mapError .url
  if base.isOpaque then throw (.url .opaqueBase)
  let agent := s.userAgent.getD defaultUserAgent
  if !Http.isHeaderValue agent then throw (.transport .headerValue)
  return ⟨base, s.token.map Token.mk, agent⟩

def isAuthenticated (c : Client) : Bool := c.token.isSome

/-- The headers of every request to the API. -/
def headers (c : Client) (accept : String) : Http.Headers :=
  [("user-agent", c.userAgent), ("accept", accept), ("x-github-api-version", apiVersion)] ++
    (match c.token with
      | none => []
      | some t => [("authorization", t.headerValue)])

/-- The agent for requests whose redirects are followed. -/
def agent (c : Client) : Http.Agent := { userAgent := some c.userAgent }

/-- The agent for requests whose redirects are answers. -/
def stayingAgent (c : Client) : Http.Agent := { userAgent := some c.userAgent, follows := false }

/-- The URL below the root that segments name. -/
def endpoint (c : Client) (segments : List String) : Except RemoteError Url :=
  match c.apiBase.extend? segments with
  | none => .error (.url .opaqueBase)
  | some u => .ok u

/-- Lifts a result into an exchange. -/
def Exchange.of {α : Type} (r : Except RemoteError α) : Exchange α := ExceptT.mk (pure r)

/-- Reports an event in the course of an exchange. -/
def report (source : Log.Source) (message : String) (fields : List (String × String)) :
    Exchange Unit :=
  ExceptT.lift (modify (Http.Wire.report ⟨.debug, source, message, fields⟩))

/-- Sends a prepared request. -/
def transmit (a : Http.Agent) (r : Except Http.Fault Http.Request) : Exchange Http.Response :=
  ExceptT.mk do return (← a.send r).mapError .transport

/-- Sends a request to the API that follows redirects. -/
def send (c : Client) (method : Http.Method) (u : Url) (accept : String)
    (query : List (String × String)) (body : Option Json.Value) : Exchange Http.Response :=
  transmit c.agent (Http.Agent.prepare method u query (c.headers accept) body)

/-- The text of a body that is an error message. -/
def errorText (r : Http.Response) : String := r.text?.getD "Unknown error"

/-- The message of an error answer: its `message` member, or all of its text. -/
def refusal (r : Http.Response) : String :=
  let text := errorText r
  match refusalShape.ofBytes (Text.Utf8.encode text) with
  | .ok (message, ()) => message
  | .error _ => text

/-- A response that is a success, or the error that it stands for. -/
def checked (resource : String) (r : Http.Response) : Except RemoteError Http.Response :=
  if r.status.isSuccess then .ok r
  else if r.status = 404 then .error (.notFound resource)
  else .error (.refused r.status (refusal r))

/-- The bytes of a body that arrived as a whole. -/
def content (r : Http.Response) : Except RemoteError Bytes :=
  match r.content? with
  | none => .error (.transport .unreadableBody)
  | some bs => .ok bs

/-- The value of a body that has a shape. -/
def decoded (s : Json.Shape) (r : Http.Response) : Except RemoteError s.Val := do
  let bs ← content r
  (s.ofBytes bs).mapError fun _ => .transport .unreadableBody

end Client
end HostedRepo
