import HostedRepo.Url.Basic

/-!
# Queries

A query is a list of pairs in form encoding: pairs are joined by `&`, name and value by `=`, a
space is `+`, and bytes other than letters, digits and `*-._` are percent-encoded.
-/

namespace HostedRepo.Url

namespace Query

def isPlain (b : UInt8) : Bool :=
  (48 ≤ b && b ≤ 57) || (65 ≤ b && b ≤ 90) || (97 ≤ b && b ≤ 122) ||
    b == 42 || b == 45 || b == 46 || b == 95

/-- A byte in form encoding. -/
def encodeByte (b : UInt8) : List Char :=
  if isPlain b then [Char.ofNat b.toNat] else if b == 32 then ['+'] else Percent.byte b

/-- A text in form encoding. -/
def encode (s : String) : String :=
  String.ofList ((Text.Utf8.encode s).flatMap encodeByte)

/-- Reads a text in form encoding. -/
def decode (s : List Char) : String :=
  Text.Utf8.decodeLossy
    (Percent.decode (Text.Utf8.encode (String.ofList (s.map fun c => if c = '+' then ' ' else c))))

/-- The pairs of a query. Empty parts do not count, and a part without `=` has an empty value. -/
def pairs (query : Option String) : List (String × String) :=
  match query with
  | none => []
  | some q =>
    ((Text.splitAt '&' q.toList).filter (· ≠ [])).map fun part =>
      match Text.splitOnce '=' part with
      | none => (decode part, "")
      | some (name, value) => (decode name, decode value)

/-- Adds a pair to a query; an empty query gets no separator. -/
def append (query : Option String) (name value : String) : String :=
  let pair := encode name ++ "=" ++ encode value
  match query with
  | none => pair
  | some q => if q.isEmpty then pair else q ++ "&" ++ pair

end Query

/-- The URL with a pair added to its query. -/
def withPair (u : Url) (name value : String) : Url :=
  { u with query := some (Query.append u.query name value) }

end HostedRepo.Url
