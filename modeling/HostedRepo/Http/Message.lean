import HostedRepo.Http.Status
import HostedRepo.Json.Value
import HostedRepo.Text.Utf16
import HostedRepo.Url.Basic

/-!
# Requests and responses

What is sent and what comes back. Header names are in lower case; a name may stand more than once.
Of the encodings of a body UTF-8 and UTF-16 are known here. Where a content type names another one,
the response comes with what its body says in that.
-/

namespace HostedRepo.Http

inductive Method where
  | get
  | post
  | patch
  | delete
  deriving DecidableEq, Repr

def Method.name : Method → String
  | .get => "GET"
  | .post => "POST"
  | .patch => "PATCH"
  | .delete => "DELETE"

abbrev Headers := List (String × String)

structure Request where
  method : Method
  url : Url
  headers : Headers := []
  body : Option Json.Value := none

/-- A response; one that is truncated breaks off before its promised length. Its body has a text of
its own in the charset that its content type names, if it names one that is known. -/
structure Response where
  status : Status
  headers : List (String × Bytes) := []
  body : Bytes := []
  truncated : Bool := false
  charsetText : Option String := none
  deriving DecidableEq, Repr

namespace Response

/-- The first value of a header. -/
def header? (r : Response) (name : String) : Option Bytes :=
  (r.headers.find? (·.1 = name)).map (·.2)

/-- The first value of a header if it is visible ASCII. -/
def visible? (r : Response) (name : String) : Option String :=
  match r.header? name with
  | none => none
  | some bs =>
    if bs.all fun b => b == 9 || (32 ≤ b && b < 127) then
      some (String.ofList (bs.map fun b => Char.ofNat b.toNat))
    else none

/-- The bytes of the body; `none` when it breaks off. Two statuses have no body. -/
def content? (r : Response) : Option Bytes :=
  if r.status = 204 ∨ r.status = 304 then some []
  else if r.truncated then none
  else some r.body

/-- The text of the body. A byte order mark at the front tells the encoding, whatever the content
type says, and is no part of the text. -/
def text? (r : Response) : Option String :=
  r.content?.map fun
    | 0xef :: 0xbb :: 0xbf :: rest => Text.Utf8.decodeLossy rest
    | 0xff :: 0xfe :: rest => Text.Utf16.decodeLossy .little rest
    | 0xfe :: 0xff :: rest => Text.Utf16.decodeLossy .big rest
    | body => r.charsetText.getD (Text.Utf8.decodeLossy body)

end Response

/-- Whether a text can be the value of a header: no controls but the tab. -/
def isHeaderValue (s : String) : Bool :=
  s.toList.all fun c => c == '\t' || (' ' ≤ c && c ≠ '\x7f')

end HostedRepo.Http
