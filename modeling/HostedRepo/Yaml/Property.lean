import HostedRepo.Yaml.Token
import HostedRepo.Text.Utf8

/-!
# Directives, anchors and tags
-/

namespace HostedRepo.Yaml

/-- Reads an anchor or alias after its sign. -/
def readName : Reading String := do
  Reading.skip 1
  let name ← Reading.chars isWordChar
  let rest := (← get).rest
  let ended := endsWord rest || (rest.head?.map ("?:,]\x7d%@\x60".toList.contains ·)).getD false
  if name.isEmpty || !ended then Reading.fail .anchorName
  return String.ofList name

/-- The value of two hexadecimal digits after a percent sign, at the front of a text. -/
def escapedOctet : List Char → Option Nat
  | '%' :: a :: b :: _ =>
    let value (c : Char) : Option Nat :=
      if '0' ≤ c && c ≤ '9' then some (c.toNat - 48)
      else if 'a' ≤ c && c ≤ 'f' then some (c.toNat - 87)
      else if 'A' ≤ c && c ≤ 'F' then some (c.toNat - 55)
      else none
    match value a, value b with
    | some x, some y => some (x * 16 + y)
    | _, _ => none
  | _ => none

/-- Reads the octets of an escaped character that follow the first one. -/
def readOctets (count : Nat) : Reading Bytes := do
  match count with
  | 0 => return []
  | count + 1 =>
    match escapedOctet (← get).rest with
    | none => Reading.fail .uriEscape
    | some n =>
      if n / 64 ≠ 2 then Reading.fail .uriEscape
      Reading.skip 3
      return UInt8.ofNat n :: (← readOctets count)

/-- Reads an escaped character of a tag. -/
def readUriEscape : Reading Bytes := do
  match escapedOctet (← get).rest with
  | none => Reading.fail .uriEscape
  | some n =>
    let more : Option Nat :=
      if n < 0x80 then some 0
      else if n / 32 = 6 then some 1
      else if n / 16 = 14 then some 2
      else if n / 8 = 30 then some 3
      else none
    match more with
    | none => Reading.fail .uriEscape
    | some more =>
      Reading.skip 3
      return UInt8.ofNat n :: (← readOctets more)

/-- Reads the characters of a tag; `wide` admits commas and brackets. -/
def readUri (wide : Bool) (fuel : Nat) (bytes : Bytes) : Reading Bytes := do
  match fuel with
  | 0 => return bytes
  | fuel + 1 =>
    match (← get).rest with
    | '%' :: _ =>
      let octets ← readUriEscape
      readUri wide fuel (bytes ++ octets)
    | c :: _ =>
      if isWordChar c || ";/?:@&=+$.!~*'()".toList.contains c ||
          (wide && ",[]".toList.contains c) then
        Reading.skip 1
        readUri wide fuel (bytes ++ Text.Utf8.encode c.toString)
      else return bytes
    | [] => return bytes

/-- Reads a tag text that starts with the characters after the first one of `head`. -/
def readUriText (wide : Bool) (head : List Char) : Reading String := do
  let start := Text.Utf8.encode (String.ofList (head.drop 1))
  let bytes ← readUri wide (← get).rest.length start
  if head.isEmpty && bytes.isEmpty then Reading.fail .tagUri
  return Text.Utf8.decodeLossy bytes

/-- Reads a tag handle; in a directive it has to end in an exclamation mark. -/
def readHandle (directive : Bool) : Reading (List Char) := do
  if (← get).rest.head? ≠ some '!' then Reading.fail .tagHandle
  Reading.skip 1
  let name ← Reading.chars isWordChar
  if (← get).rest.head? == some '!' then
    Reading.skip 1
    return '!' :: name ++ ['!']
  if directive && !name.isEmpty then Reading.fail .tagHandle
  return '!' :: name

/-- Reads a tag. -/
def tagToken (flow : Bool) : Reading TokenKind := do
  let kind ← match (← get).rest with
    | _ :: '<' :: _ => do
      Reading.skip 2
      let suffix ← readUriText true []
      if (← get).rest.head? ≠ some '>' then Reading.fail .tagClose
      Reading.skip 1
      pure (TokenKind.tag "" suffix)
    | _ => do
      let handle ← readHandle false
      if handle.length > 1 && handle.getLast? == some '!' then
        let suffix ← readUriText false []
        pure (TokenKind.tag (String.ofList handle) suffix)
      else
        let suffix ← readUriText false handle
        pure (if suffix.isEmpty then TokenKind.tag "" "!" else TokenKind.tag "!" suffix)
  let rest := (← get).rest
  if !(flow && rest.head? == some ',') && !endsWord rest then Reading.fail .noBlankOrLineEnd
  return kind

/-- Reads a number of a version. -/
def readVersionNumber : Reading Nat := do
  let digits ← Reading.chars Char.isDigit
  if 9 < digits.length then Reading.fail .longVersion
  if digits.isEmpty then Reading.fail .versionNumber
  return digits.foldl (fun n d => n * 10 + (d.toNat - 48)) 0

/-- Reads a directive with its line. -/
def directiveToken : Reading TokenKind := do
  Reading.skip 1
  let name ← Reading.chars isWordChar
  if name.isEmpty then Reading.fail .directiveName
  if !endsWord (← get).rest then Reading.fail .directiveCharacter
  let kind ←
    if name == "YAML".toList then do
      let _ ← Reading.chars isGap
      let major ← readVersionNumber
      if (← get).rest.head? ≠ some '.' then Reading.fail .versionPoint
      Reading.skip 1
      let minor ← readVersionNumber
      pure (TokenKind.version major minor)
    else if name == "TAG".toList then do
      let _ ← Reading.chars isGap
      let handle ← readHandle true
      if !((← get).rest.head?.map isGap).getD false then Reading.fail .noBlank
      let _ ← Reading.chars isGap
      let start ← readUriText true []
      if !endsWord (← get).rest then Reading.fail .noBlankOrLineEnd
      pure (TokenKind.tagDirective (String.ofList handle) start)
    else Reading.fail .unknownDirective
  let _ ← Reading.chars isGap
  if (← get).rest.head? == some '#' then
    let _ ← Reading.chars fun _ => true
  if !endsLine (← get).rest then Reading.fail .noLineEnd
  if !(← get).rest.isEmpty then
    let _ ← Reading.newline
  return kind

end HostedRepo.Yaml
