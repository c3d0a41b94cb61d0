/-!
# Places and faults in a YAML text
-/

namespace HostedRepo.Yaml

/-- A place in a text, counted in characters from zero. -/
structure Mark where
  index : Nat := 0
  line : Nat := 0
  column : Nat := 0
  deriving DecidableEq, Repr

/-- The place as messages show it, counted from one. -/
def Mark.text (m : Mark) : String :=
  "line " ++ toString (m.line + 1) ++ " column " ++ toString (m.column + 1)

/-- The end of a message that names a place; the very first one is not named. -/
def Mark.suffix (m : Mark) : String :=
  if m.line = 0 ∧ m.column = 0 then "" else " at " ++ m.text

/-- What is wrong with a YAML text. -/
inductive Problem where
  | control
  | startsNoToken
  | entryNotAllowed
  | keyNotAllowed
  | valueNotAllowed
  | noColon
  | directiveName
  | directiveCharacter
  | unknownDirective
  | versionNumber
  | longVersion
  | versionPoint
  | noBlank
  | noLineEnd
  | anchorName
  | noBlankOrLineEnd
  | tagHandle
  | tagUri
  | tagClose
  | uriEscape
  | zeroIndentation
  | tabIndentation
  | documentIndicator
  | endOfText
  | unknownEscape
  | hexDigits
  | characterCode
  | colon
  | tab
  | noDocumentStart
  | version
  | repeatedVersion
  | repeatedTag
  | undefinedTag
  | noContent
  | noDash
  | noKey
  | noCommaOrBracket
  | noCommaOrBrace
  | unknownAnchor
  | severalDocuments
  deriving DecidableEq, Repr

def Problem.message : Problem → String
  | .control => "control characters are not allowed"
  | .startsNoToken => "found character that cannot start any token"
  | .entryNotAllowed => "block sequence entries are not allowed in this context"
  | .keyNotAllowed => "mapping keys are not allowed in this context"
  | .valueNotAllowed => "mapping values are not allowed in this context"
  | .noColon => "could not find expected ':'"
  | .directiveName => "could not find expected directive name"
  | .directiveCharacter => "found unexpected non-alphabetical character"
  | .unknownDirective => "found unknown directive name"
  | .versionNumber => "did not find expected version number"
  | .longVersion => "found extremely long version number"
  | .versionPoint => "did not find expected digit or '.' character"
  | .noBlank => "did not find expected whitespace"
  | .noLineEnd => "did not find expected comment or line break"
  | .anchorName => "did not find expected alphabetic or numeric character"
  | .noBlankOrLineEnd => "did not find expected whitespace or line break"
  | .tagHandle => "did not find expected '!'"
  | .tagUri => "did not find expected tag URI"
  | .tagClose => "did not find the expected '>'"
  | .uriEscape => "did not find URI escaped octet"
  | .zeroIndentation => "found an indentation indicator equal to 0"
  | .tabIndentation => "found a tab character where an indentation space is expected"
  | .documentIndicator => "found unexpected document indicator"
  | .endOfText => "found unexpected end of stream"
  | .unknownEscape => "found unknown escape character"
  | .hexDigits => "did not find expected hexdecimal number"
  | .characterCode => "found invalid Unicode character escape code"
  | .colon => "found unexpected ':'"
  | .tab => "found a tab character that violates indentation"
  | .noDocumentStart => "did not find expected <document start>"
  | .version => "found incompatible YAML document"
  | .repeatedVersion => "found duplicate %YAML directive"
  | .repeatedTag => "found duplicate %TAG directive"
  | .undefinedTag => "found undefined tag handle"
  | .noContent => "did not find expected node content"
  | .noDash => "did not find expected '-' indicator"
  | .noKey => "did not find expected key"
  | .noCommaOrBracket => "did not find expected ',' or ']'"
  | .noCommaOrBrace => "did not find expected ',' or '\x7d'"
  | .unknownAnchor => "unknown anchor"
  | .severalDocuments =>
    "deserializing from YAML containing more than one document is not supported"

structure Fault where
  problem : Problem
  mark : Mark
  deriving DecidableEq, Repr

def Fault.message (f : Fault) : String := f.problem.message ++ f.mark.suffix

end HostedRepo.Yaml
