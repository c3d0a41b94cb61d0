import HostedRepo.Text.Utf8

/-!
# UTF-16

The lossy reading of a byte string as code units of two bytes, in either order of the two.
-/

namespace HostedRepo.Text.Utf16

/-- Which byte of a code unit comes first. -/
inductive Order where
  | little
  | big
  deriving DecidableEq, Repr

/-- The code unit that two bytes are. -/
def Order.unit : Order → UInt8 → UInt8 → Nat
  | .little, a, b => b.toNat * 256 + a.toNat
  | .big, a, b => a.toNat * 256 + b.toNat

/-- Whether a code unit is the first half of a character. -/
def isHigh (unit : Nat) : Bool := 0xd800 ≤ unit && unit < 0xdc00

/-- Whether a code unit is the second half of a character. -/
def isLow (unit : Nat) : Bool := 0xdc00 ≤ unit && unit < 0xe000

/-- The character of two halves. -/
def paired (high low : Nat) : Char :=
  Char.ofNat (0x10000 + (high - 0xd800) * 0x400 + (low - 0xdc00))

/-- The characters of a byte string; `none` stands for a half without the other one and for a
single byte. What is left behind a first half at the end is part of it. -/
def scan (o : Order) : Bytes → List (Option Char)
  | [] => []
  | [_] => [none]
  | a :: b :: rest =>
    let unit := o.unit a b
    if isHigh unit then
      match rest with
      | c :: d :: later =>
        if isLow (o.unit c d) then some (paired unit (o.unit c d)) :: scan o later
        else none :: scan o (c :: d :: later)
      | _ => [none]
    else if isLow unit then none :: scan o rest
    else some (Char.ofNat unit) :: scan o rest

/-- The text of a byte string, with U+FFFD for each part that is no character. -/
def decodeLossy (o : Order) (bs : Bytes) : String :=
  String.ofList ((scan o bs).map (·.getD '\ufffd'))

end HostedRepo.Text.Utf16
