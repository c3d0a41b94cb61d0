import HostedRepo.Text.Search
import HostedRepo.Text.Quoted
import HostedRepo.Url.Percent

/-!
# Hosts

A host is a domain, an IPv4 address or an IPv6 address. The domains of special schemes are read
with percent decoding and in lower case, and one that ends in a number is an IPv4 address.
International names are left out: domains beyond ASCII are refused instead of mapped.
-/

namespace HostedRepo.Url

/-- Why a text is not a URL. -/
inductive Fault where
  | noBase
  | opaqueBase
  | emptyHost
  | invalidDomain
  | invalidHostCharacter
  | invalidPort
  | invalidIpv4
  | invalidIpv6
  deriving DecidableEq, Repr

/-- The message of each fault. -/
def Fault.message : Fault → String
  | .noBase => "relative URL without a base"
  | .opaqueBase => "relative URL with a cannot-be-a-base base"
  | .emptyHost => "empty host"
  | .invalidDomain => "invalid international domain name"
  | .invalidHostCharacter => "invalid domain character"
  | .invalidPort => "invalid port number"
  | .invalidIpv4 => "invalid IPv4 address"
  | .invalidIpv6 => "invalid IPv6 address"

inductive Host where
  | domain (name : String)
  | ipv4 (address : Nat)
  | ipv6 (pieces : List Nat)
  deriving DecidableEq, Repr

namespace Host

/-- The value of a digit in a base of at most 16, either case. -/
def digitValue (base : Nat) (c : Char) : Option Nat :=
  let v :=
    if '0' ≤ c && c ≤ '9' then c.toNat - 48
    else if 'a' ≤ c && c ≤ 'f' then c.toNat - 87
    else if 'A' ≤ c && c ≤ 'F' then c.toNat - 55
    else 16
  if v < base then some v else none

/-- Reads digits in a base; no digits read as zero. -/
def readDigits (base : Nat) (s : List Char) : Option Nat :=
  s.foldlM (fun n c => (digitValue base c).map (n * base + ·)) 0

/-- A number of an IPv4 address: decimal, octal after `0`, hexadecimal after `0x`. -/
def readIpv4Number : List Char → Option Nat
  | [] => none
  | '0' :: 'x' :: s | '0' :: 'X' :: s => readDigits 16 s
  | '0' :: c :: s => readDigits 8 (c :: s)
  | s => readDigits 10 s

/-- The parts of a dotted name without the empty part after a last dot. -/
def dottedParts (s : List Char) : List (List Char) :=
  let parts := Text.splitAt '.' s
  if parts.length ≥ 2 && parts.getLast? == some [] then parts.dropLast else parts

/-- Whether a domain has to be read as an IPv4 address. -/
def endsInNumber (s : List Char) : Bool :=
  let parts := Text.splitAt '.' s
  if parts == [[]] then false
  else match (dottedParts s).getLast? with
    | none => false
    | some last =>
      (!last.isEmpty && last.all Char.isDigit) ||
        (match last with
          | '0' :: 'x' :: r | '0' :: 'X' :: r => (readDigits 16 r).isSome
          | _ => false)

/-- Reads an IPv4 address: one to four numbers, all but the last below 256, the last filling the
bytes that are left. -/
def readIpv4 (s : List Char) : Except Fault Nat :=
  let parts := dottedParts s
  if parts.length > 4 then .error .invalidIpv4
  else match parts.mapM readIpv4Number with
    | none => .error .invalidIpv4
    | some numbers =>
      match numbers.getLast? with
      | none => .error .invalidIpv4
      | some last =>
        let front := numbers.dropLast
        if front.any (255 < ·) || Nat.pow 256 (5 - numbers.length) ≤ last then .error .invalidIpv4
        else .ok (front.foldl (· * 256 + ·) 0 * Nat.pow 256 (4 - front.length) + last)

/-- Up to four hexadecimal digits, and the rest. -/
def readPiece (s : List Char) : Option (Nat × List Char) :=
  let digits := s.takeWhile fun c => (digitValue 16 c).isSome
  let digits := digits.take 4
  if digits.isEmpty then none else (readDigits 16 digits).map (·, s.drop digits.length)

/-- The two pieces of an IPv4 address at the end of an IPv6 address. -/
def readEmbedded (s : List Char) : Option (List Nat) :=
  let parts := Text.splitAt '.' s
  let number (p : List Char) : Option Nat :=
    if p.isEmpty || !p.all Char.isDigit || (p.length > 1 && p.head? == some '0') then none
    else (readDigits 10 p).filter (· < 256)
  match parts.mapM number with
  | some [a, b, c, d] => some [a * 256 + b, c * 256 + d]
  | _ => none

/-- Pieces separated by colons; the last may be an embedded IPv4 address. -/
def readPieces (fuel : Nat) (s : List Char) : Option (List Nat) :=
  match fuel with
  | 0 => none
  | fuel + 1 =>
    match readPiece s with
    | none => none
    | some (n, []) => some [n]
    | some (n, ':' :: rest) => (readPieces fuel rest).map (n :: ·)
    | some (_, '.' :: _) => readEmbedded s
    | some _ => none

/-- Pieces separated by colons, or nothing. -/
def readSide (s : List Char) : Option (List Nat) :=
  if s.isEmpty then some [] else readPieces (s.length + 1) s

/-- Cuts at the first `::`. -/
def cutDouble : List Char → Option (List Char × List Char)
  | ':' :: ':' :: rest => some ([], rest)
  | c :: rest => (cutDouble rest).map fun (a, b) => (c :: a, b)
  | [] => none

/-- Reads the eight pieces of an IPv6 address; `::` stands for as many zeros as are missing, at
least one, and an embedded IPv4 address stands at the very end. -/
def readIpv6 (s : List Char) : Except Fault (List Nat) :=
  let found : Option (List Nat) :=
    match cutDouble s with
    | none => (readSide s).filter (·.length = 8)
    | some (left, right) =>
      if left.contains '.' then none
      else match readSide left, readSide right with
        | some l, some r =>
          if l.length + r.length < 8 then
            some (l ++ List.replicate (8 - l.length - r.length) 0 ++ r)
          else none
        | _, _ => none
  match found with
  | some pieces => .ok pieces
  | none => .error .invalidIpv6

/-- The length of the run of zeros at the front. -/
def zeroRun (pieces : List Nat) : Nat :=
  (pieces.takeWhile (· = 0)).length

/-- The start and length of the first longest run of zeros. -/
def longestZeros (pieces : List Nat) : Nat × Nat :=
  (List.range pieces.length).foldl (fun best i =>
    let n := zeroRun (pieces.drop i)
    if best.2 < n then (i, n) else best) (0, 0)

/-- The written form of an IPv6 address, with `::` for its first longest run of two or more
zeros. -/
def ipv6Text (pieces : List Nat) : String :=
  let (i, n) := longestZeros pieces
  let part (ps : List Nat) : String := ":".intercalate (ps.map Text.hex)
  if n < 2 then part pieces else part (pieces.take i) ++ "::" ++ part (pieces.drop (i + n))

/-- The written form of an IPv4 address. -/
def ipv4Text (n : Nat) : String :=
  ".".intercalate ([n / 16777216, n / 65536 % 256, n / 256 % 256, n % 256].map toString)

/-- The written form of a host. -/
def text : Host → String
  | .domain name => name
  | .ipv4 n => ipv4Text n
  | .ipv6 ps => "[" ++ ipv6Text ps ++ "]"

/-- A character that no domain may have. -/
def forbiddenInDomain (c : Char) : Bool :=
  c ≤ ' ' || '~' < c || "#%/:<>?@[\\]^|".toList.contains c

/-- A character that no host of any scheme may have. -/
def forbiddenInHost (c : Char) : Bool :=
  "\x00\t\n\r #/:<>?@[\\]^|".toList.contains c

/-- Between brackets stands an IPv6 address. -/
def readBracketed (s : List Char) : Except Fault Host :=
  if s.getLast? = some ']' then (readIpv6 s.dropLast).map .ipv6 else .error .invalidIpv6

/-- Reads the host of a special scheme. No name beyond ASCII is accepted, and a label in its ASCII
form, which starts with `xn--`, is not checked. -/
def readSpecial (s : List Char) : Except Fault Host :=
  match s with
  | '[' :: rest => readBracketed rest
  | _ =>
    let bytes := Percent.decode (Text.Utf8.encode (String.ofList s))
    let name := (Text.Utf8.decodeLossy bytes).toList
    if name.any forbiddenInDomain then .error .invalidDomain
    else if name.isEmpty then .error .emptyHost
    else
      let name := name.map Char.toLower
      if endsInNumber name then (readIpv4 name).map .ipv4
      else .ok (.domain (String.ofList name))

/-- Reads the host of another scheme, which is kept as it is but for controls. -/
def readOpaque (s : List Char) : Except Fault Host :=
  match s with
  | '[' :: rest => readBracketed rest
  | _ =>
    if s.any forbiddenInHost then .error .invalidHostCharacter
    else .ok (.domain (String.ofList (Percent.encode Percent.controls s)))

end Host
end HostedRepo.Url
