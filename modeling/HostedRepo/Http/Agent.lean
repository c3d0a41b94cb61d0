import HostedRepo.Http.Wire
import HostedRepo.Text.Base64
import HostedRepo.Url.Parser
import HostedRepo.Url.Percent
import HostedRepo.Url.Query

/-!
# Agents

An agent sends requests on a wire and, if it is one that does, follows redirects. User and
password of a URL are sent as a header. Credentials do not cross to another host or port.
-/

namespace HostedRepo.Http

structure Agent where
  userAgent : Option String := none
  follows : Bool := true
  deriving DecidableEq, Repr

namespace Agent

/-- How many redirects are followed. -/
def redirectLimit : Nat := 10

/-- The value that carries user and password. -/
def basicValue (user password : Bytes) : String :=
  "Basic " ++ String.ofList (Text.Base64.encode (user ++ 58 :: password))

/-- The header for the user and password of a URL. -/
def basicHeader (u : Url) : Headers :=
  match u.authority with
  | none => []
  | some a =>
    if a.user.isEmpty && a.password.isNone then []
    else
      let decoded (s : String) : Bytes := Url.Percent.decode (Text.Utf8.encode s)
      [("authorization", basicValue (decoded a.user) (decoded (a.password.getD "")))]

/-- A request to a URL with pairs added to its query. The URL needs a host and the header values
must be valid. -/
def prepare (method : Method) (u : Url) (query : List (String × String)) (headers : Headers)
    (body : Option Json.Value) : Except Fault Request :=
  if u.host?.isNone then .error (.noHost u)
  else if !headers.all (isHeaderValue ·.2) then .error .headerValue
  else .ok
    { method := method
      url := query.foldl (fun u (name, value) => u.withPair name value) u.withoutUserinfo
      headers := basicHeader u ++ headers ++
        (if body.isSome then [("content-type", "application/json")] else [])
      body := body }

/-- The headers with those added that are not given. -/
def withDefaults (a : Agent) (headers : Headers) : Headers :=
  let missing (name : String) : Bool := !headers.any (·.1 == name)
  headers ++ (if missing "accept" then [("accept", "*/*")] else []) ++
    (match a.userAgent with
      | some v => if missing "user-agent" then [("user-agent", v)] else []
      | none => [])

/-- Where a response sends on to, seen from the URL that it answered. -/
def target? (u : Url) (r : Response) : Option Url :=
  if r.status.isRedirect then
    match (r.header? "location").bind Text.Utf8.decode? with
    | none => none
    | some reference => (Url.join u reference).toOption
  else none

/-- The method after a redirect. -/
def redirectedMethod (status : Status) (m : Method) : Method :=
  if status = 303 ∨ ((status = 301 ∨ status = 302) ∧ m = .post) then .get else m

/-- The request after a redirect to a URL: a change to a plain read drops body and content type,
and a change of host or port drops authorization. -/
def redirected (r : Request) (status : Status) (u : Url) : Request :=
  let method := redirectedMethod status r.method
  let emptied := method ≠ r.method
  let kept (name : String) : Bool :=
    !(emptied && name == "content-type") &&
      !(r.url.origin ≠ u.origin && name == "authorization")
  { method := method
    url := u
    headers := r.headers.filter (kept ·.1)
    body := if emptied then none else r.body }

def isWeb (u : Url) : Bool := u.scheme = "http" ∨ u.scheme = "https"

/-- Sends a request and follows redirects; `first` is the URL that failures name. -/
def follow (a : Agent) (first : Url) (hops : Nat) (r : Request) :
    StateM Wire (Except Fault Response) := do
  match ← (fun w => pure (w.exchange r)) with
  | .unreachable => return .error (.unreachable first)
  | .dropped => return .error (.dropped first)
  | .answered response =>
    if !a.follows then return .ok response
    else match target? r.url response with
      | none => return .ok response
      | some u =>
        match hops with
        | 0 => return .error (.redirectLimit r.url)
        | hops + 1 =>
          if isWeb u then follow a first hops (redirected r response.status u)
          else return .error (.scheme u)

/-- Sends a request, if it could be prepared and its scheme is one of the web. -/
def send (a : Agent) (prepared : Except Fault Request) : StateM Wire (Except Fault Response) :=
  match prepared with
  | .error f => return .error f
  | .ok r =>
    if isWeb r.url then
      follow a r.url redirectLimit { r with headers := a.withDefaults r.headers }
    else return .error (.scheme r.url)

end Agent
end HostedRepo.Http
