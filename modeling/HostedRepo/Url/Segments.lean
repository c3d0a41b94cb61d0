import HostedRepo.Url.Parser

/-!
# Putting segments into a path

A text with slashes goes into the path of a URL part by part. Empty parts and the parts `.` and
`..` are left out; every other part is encoded, so that it cannot end the path or the URL. Line
breaks and tabs of a part are dropped first, and a part that is a dot segment after that is
resolved.
-/

namespace HostedRepo.Url

/-- The segments without the empty one that a last slash leaves, unless it stands alone. -/
def dropLastEmpty (parts : List String) : List String :=
  if 2 ≤ parts.length ∧ parts.getLast? = some "" then parts.dropLast else parts

/-- The parts of a text between slashes that count as segments. -/
def segmentParts (s : String) : List (List Char) :=
  (Text.splitAt '/' s.toList).filter fun p => p ≠ [] ∧ p ≠ ['.'] ∧ p ≠ ['.', '.']

/-- The characters of a part that reach the URL. -/
def segmentText (special : Bool) (part : List Char) : List Char :=
  Percent.encode (if special then Percent.specialSegment else Percent.segment)
    (part.filter fun c => c ≠ '\t' ∧ c ≠ '\n' ∧ c ≠ '\r')

/-- The segments with one part added; a path of one empty segment has none yet. -/
def pushPart (special : Bool) (parts : List String) (part : List Char) : List String :=
  let text := segmentText special part
  let before := if parts = [""] then [] else parts
  if text = ['.', '.'] then before.dropLast ++ [""]
  else if text = ['.'] then before ++ [""]
  else before ++ [String.ofList text]

/-- The segments with the parts of several texts added. -/
def pushAll (special : Bool) (parts : List String) (texts : List String) : List String :=
  (texts.flatMap segmentParts).foldl (pushPart special) parts

/-- The URL with the parts of several texts added to its path; `none` when the path is opaque. -/
def extend? (u : Url) (texts : List String) : Option Url :=
  match u.path with
  | .opaqueText _ => none
  | .segments parts =>
    some { u with path := .segments (pushAll (isSpecial u.scheme) (dropLastEmpty parts) texts) }

end HostedRepo.Url
