import HostedRepo.Url.Host

/-!
# URLs

A URL has a scheme, an authority or none, a path, and perhaps a query and a fragment. A path is
opaque or a list of segments, each of which a slash precedes in the written form.
-/

namespace HostedRepo

namespace Url

/-- User, password, host and port; the port is `none` when it is the scheme's default one. -/
structure Authority where
  user : String := ""
  password : Option String := none
  host : Host
  port : Option Nat := none
  deriving DecidableEq, Repr

inductive Path where
  | opaqueText (text : String)
  | segments (parts : List String)
  deriving DecidableEq, Repr

end Url

structure Url where
  scheme : String
  authority : Option Url.Authority
  path : Url.Path
  query : Option String := none
  fragment : Option String := none
  deriving DecidableEq, Repr

namespace Url

/-- The port that a scheme stands for; only special schemes have one. -/
def defaultPort (scheme : String) : Option Nat :=
  if scheme = "http" ∨ scheme = "ws" then some 80
  else if scheme = "https" ∨ scheme = "wss" then some 443
  else if scheme = "ftp" then some 21
  else none

/-- The schemes whose URLs have a host, a path that is not empty and backslashes for slashes. -/
def isSpecial (scheme : String) : Bool :=
  (defaultPort scheme).isSome || scheme == "file"

/-- The written form of a list of segments. -/
def segmentsText (parts : List String) : String :=
  String.join (parts.map ("/" ++ ·))

/-- The written form of user and password, with the sign that ends them. -/
def Authority.userinfoText (a : Authority) : String :=
  match a.password with
  | none => if a.user.isEmpty then "" else a.user ++ "@"
  | some p => a.user ++ ":" ++ p ++ "@"

/-- The written form of an authority. -/
def Authority.text (a : Authority) : String :=
  a.userinfoText ++ a.host.text ++ (match a.port with | none => "" | some p => ":" ++ toString p)

/-- The written form of a path. One that starts with two slashes keeps apart from an authority by
a dot segment. -/
def Path.text (hasAuthority : Bool) : Path → String
  | .opaqueText t => t
  | .segments ps =>
    (if !hasAuthority && ps.length ≥ 2 && ps.head? == some "" then "/." else "") ++ segmentsText ps

/-- The written form of a URL. -/
def text (u : Url) : String :=
  u.scheme ++ ":" ++ (match u.authority with | none => "" | some a => "//" ++ a.text) ++
    u.path.text u.authority.isSome ++
    (match u.query with | none => "" | some q => "?" ++ q) ++
    (match u.fragment with | none => "" | some f => "#" ++ f)

/-- The text of the host, if the URL has one that is not empty. -/
def host? (u : Url) : Option String :=
  match u.authority with
  | none => none
  | some a => if a.host.text.isEmpty then none else some a.host.text

/-- The port that a connection uses. -/
def effectivePort (u : Url) : Option Nat :=
  match u.authority.bind Authority.port with
  | some p => some p
  | none => defaultPort u.scheme

/-- Where a connection goes. -/
def origin (u : Url) : Option String × Option Nat := (u.host?, u.effectivePort)

/-- Whether the path is opaque, so that nothing can be added to it. -/
def isOpaque (u : Url) : Bool :=
  match u.path with
  | .opaqueText _ => true
  | .segments _ => false

/-- The URL without user and password. -/
def withoutUserinfo (u : Url) : Url :=
  { u with authority := u.authority.map fun a => { a with user := "", password := none } }

/-- The URL as a request line names it: without user, password and fragment. -/
def target (u : Url) : Url :=
  { u.withoutUserinfo with fragment := none }

end Url
end HostedRepo
