import HostedRepo.Decimal.Shortest
import HostedRepo.Text.Quoted
import HostedRepo.Yaml.Node

/-!
# What scalars mean

A plain scalar without a tag is null, a truth value, a number or a text, by its spelling; with a
tag of the core types it has to be readable as that type.
-/

namespace HostedRepo.Yaml

inductive Meaning where
  | null
  | flag (b : Bool)
  | natural (n : Nat)
  | minus (n : Nat)
  | float (negative : Bool) (x : Decimal.Binary64)
  | infinite (negative : Bool)
  | notNumber
  | text (s : String)
  deriving DecidableEq, Repr

namespace Meaning

def isNull (s : String) : Bool := s = "null" ∨ s = "Null" ∨ s = "NULL" ∨ s = "~"

def flag? (s : String) : Option Bool :=
  if s = "true" ∨ s = "True" ∨ s = "TRUE" then some true
  else if s = "false" ∨ s = "False" ∨ s = "FALSE" then some false
  else none

/-- Without a sign of one kind at the front. -/
def dropSign (sign : Char) : List Char → List Char
  | c :: s => if c = sign then s else c :: s
  | [] => []

def startsWithSign : List Char → Bool
  | c :: _ => c == '+' || c == '-'
  | [] => false

/-- A number with a zero in front, which is a text. -/
def isPadded (s : List Char) : Bool :=
  let s := match s with
    | '-' :: r | '+' :: r => r
    | r => r
  1 < s.length && s.head? == some '0' && s.all Char.isDigit

/-- Reads at least one digit in a base. -/
def digits? (base : Nat) (s : List Char) : Option Nat :=
  if s.isEmpty then none
  else s.foldlM (fun n c => ((hexValue c).filter (· < base)).map (n * base + ·)) 0

/-- A number without sign: decimal, or in base 16, 8 or 2 after its sign. -/
def magnitude? (padded : Bool) (s : List Char) : Option Nat :=
  match s with
  | '0' :: 'x' :: r => digits? 16 r
  | '0' :: 'o' :: r => digits? 8 r
  | '0' :: 'b' :: r => digits? 2 r
  | s => if padded then none else digits? 10 s

/-- A natural number below a limit. -/
def natural? (limit : Nat) (s : List Char) : Option Nat :=
  (magnitude? (isPadded s) (dropSign '+' s)).filter (· < limit)

/-- The magnitude of a number after a minus sign, up to a limit. -/
def negative? (limit : Nat) (s : List Char) : Option Nat :=
  match s with
  | '-' :: r => (magnitude? (isPadded s) r).filter (· ≤ limit)
  | _ => none

/-- An integer of at most 128 bits. -/
def integer? (s : List Char) : Option Meaning :=
  match natural? (Nat.pow 2 128) s with
  | some n => some (.natural n)
  | none => (negative? (Nat.pow 2 127) s).map .minus

/-- A decimal number with point and exponent, as digits and a power of ten. -/
def decimal? (s : List Char) : Option (Nat × Int) := do
  let whole := s.takeWhile Char.isDigit
  let rest := s.dropWhile Char.isDigit
  let (fraction, rest) := match rest with
    | '.' :: r => (r.takeWhile Char.isDigit, r.dropWhile Char.isDigit)
    | r => ([], r)
  if whole.isEmpty && fraction.isEmpty then none
  let value (ds : List Char) : Nat := ds.foldl (fun n d => n * 10 + (d.toNat - 48)) 0
  let places : Int := fraction.length
  match rest with
  | [] => some (value (whole ++ fraction), -places)
  | e :: r =>
    if e ≠ 'e' && e ≠ 'E' then none
    let (down, ds) := match r with
      | '-' :: ds => (true, ds)
      | '+' :: ds => (false, ds)
      | ds => (false, ds)
    if ds.isEmpty || !ds.all Char.isDigit then none
    let size : Int := value ds
    some (value (whole ++ fraction), (if down then -size else size) - places)

/-- A floating point number. -/
def float? (s : String) : Option Meaning :=
  let unsigned := dropSign '+' s.toList
  if unsigned.length < s.length ∧ startsWithSign unsigned then none
  else if [".inf", ".Inf", ".INF"].contains (String.ofList unsigned) then some (.infinite false)
  else if ["-.inf", "-.Inf", "-.INF"].contains s then some (.infinite true)
  else if [".nan", ".NaN", ".NAN"].contains s then some .notNumber
  else do
    let negative := unsigned.head? == some '-'
    let (n, e) ← decimal? (dropSign '-' unsigned)
    return .float negative (← Decimal.Binary64.ofDecimal n e)

/-- The meaning of a plain scalar without a tag. -/
def ofPlain (s : String) : Meaning :=
  if s.isEmpty || isNull s then .null
  else match flag? s with
    | some b => .flag b
    | none =>
      ((integer? s.toList).or (if isPadded s.toList then none else float? s)).getD (.text s)

/-- A meaning in messages. -/
def describe : Meaning → String
  | .null => "unit value"
  | .flag b => "boolean \x60" ++ (if b then "true" else "false") ++ "\x60"
  | .natural n =>
    "integer \x60" ++ toString n ++ "\x60" ++ (if n < Nat.pow 2 64 then "" else " as u128")
  | .minus n =>
    "integer \x60" ++ (if n = 0 then "" else "-") ++ toString n ++ "\x60" ++
      (if n ≤ Nat.pow 2 63 then "" else " as i128")
  | .float negative x =>
    "floating point \x60" ++ (if negative then "-" else "") ++
      (Decimal.Shortest.of x).positional ++ "\x60"
  | .infinite negative => "floating point \x60" ++ (if negative then "-inf" else "inf") ++ "\x60"
  | .notNumber => "floating point \x60NaN\x60"
  | .text s => "string " ++ Text.quote s

/-- The full name of a core type. -/
def coreTag (name : String) : String := "tag:yaml.org,2002:" ++ name

end Meaning

namespace Scalar

/-- The meaning of a scalar; where it is not readable as its tag says, what it should have been. -/
def meaning (s : Scalar) : Except String Meaning :=
  let untagged : Meaning := if s.style = .plain then .ofPlain s.text else .text s.text
  let orElse (m : Option Meaning) (expected : String) : Except String Meaning :=
    match m with
    | some m => .ok m
    | none => .error expected
  match s.tag with
  | none => .ok untagged
  | some tag =>
    if tag = Meaning.coreTag "bool" then orElse ((Meaning.flag? s.text).map .flag) "a boolean"
    else if tag = Meaning.coreTag "int" then orElse (Meaning.integer? s.text.toList) "an integer"
    else if tag = Meaning.coreTag "float" then orElse (Meaning.float? s.text) "a float"
    else if tag = Meaning.coreTag "null" then
      orElse (if Meaning.isNull s.text then some .null else none) "null"
    else if tag.toList.head? = some '!' ∧ s.style = .plain then .ok (.ofPlain s.text)
    else .ok (.text s.text)

end Scalar
end HostedRepo.Yaml
