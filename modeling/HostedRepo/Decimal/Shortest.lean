import HostedRepo.Decimal.Binary64

/-!
# The fewest digits that read back

Of the decimals that lie in the interval of numbers rounding to a value, the one with the fewest
digits, and of those the nearest one.
-/

namespace HostedRepo.Decimal

/-- A magnitude `digits * 10 ^ exponent`. -/
structure Shortest where
  digits : Nat
  exponent : Int
  deriving DecidableEq, Repr

namespace Shortest

def digitCount (n : Nat) : Nat := (Nat.toDigits 10 n).length

/-- The exponent of the first digit of `num / den`. -/
def leading (num den : Nat) : Int :=
  if den ≤ num then (digitCount (num / den) : Int) - 1
  else -(digitCount ((den + num - 1) / num - 1) : Int)

/-- The ends of the interval that rounds to a value, in quarters of its last place. -/
def ends (x : Binary64) : Nat × Nat :=
  let low := if x.mantissa = Nat.pow 2 52 ∧ -1074 < x.exponent then 4 * x.mantissa - 1
    else 4 * x.mantissa - 2
  (low, 4 * x.mantissa + 2)

/-- Without zeros at the end. -/
def trimmed (fuel : Nat) (s : Shortest) : Shortest :=
  match fuel with
  | 0 => s
  | fuel + 1 =>
    if s.digits ≠ 0 ∧ s.digits % 10 = 0 then trimmed fuel ⟨s.digits / 10, s.exponent + 1⟩ else s

/-- The decimal with `n` digits that reads back as `x`, if there is one. -/
def withDigits? (x : Binary64) (n : Nat) : Option Shortest :=
  let (num, den) := x.ratio
  let e := leading num den + 1 - n
  let (up, down) := if 0 ≤ e then (1, Nat.pow 10 e.toNat) else (Nat.pow 10 (-e).toNat, 1)
  -- In units of the grid, `x` is `a / b`, and a quarter of its last place is `c / b`.
  let a := num * up
  let b := den * down
  let (low, high) := ends x
  let inside (d : Nat) : Bool :=
    let left := 4 * x.mantissa * d * b
    if x.mantissa % 2 = 0 then low * a ≤ left && left ≤ high * a
    else low * a < left && left < high * a
  let d := a / b
  let below := inside d
  let above := inside (d + 1)
  let closer : Nat := if 2 * a < (2 * d + 1) * b ∨ (2 * a = (2 * d + 1) * b ∧ d % 2 = 0)
    then d else d + 1
  if below && above then some ⟨closer, e⟩
  else if below then some ⟨d, e⟩
  else if above then some ⟨d + 1, e⟩
  else none

/-- The fewest digits that read back. -/
def of (x : Binary64) : Shortest :=
  if x.mantissa = 0 then ⟨0, 0⟩
  else trimmed 20 (((List.range 17).findSome? fun n => withDigits? x (n + 1)).getD ⟨0, 0⟩)

/-- The digits with a point, never an exponent, and at least one digit on either side. -/
def positional (s : Shortest) : String :=
  let ds := toString s.digits
  if 0 ≤ s.exponent then ds ++ String.ofList (List.replicate s.exponent.toNat '0') ++ ".0"
  else
    let places := (-s.exponent).toNat
    let padded := List.replicate (places + 1 - ds.length) '0' ++ ds.toList
    String.ofList (padded.take (padded.length - places)) ++ "." ++
      String.ofList (padded.drop (padded.length - places))

/-- One digit before the point and an exponent with a sign and at least two digits. -/
def scientific (s : Shortest) : String :=
  let ds := (toString s.digits).toList
  let e : Int := s.exponent + ds.length - 1
  let size := toString e.natAbs
  String.ofList (ds.take 1) ++ (if ds.length > 1 then "." ++ String.ofList (ds.drop 1) else "") ++
    "e" ++ (if 0 ≤ e then "+" else "-") ++ (if size.length < 2 then "0" else "") ++ size

/-- Positional notation for first digits from `10 ^ -5` to `10 ^ 15`, scientific beyond. -/
def text (s : Shortest) : String :=
  let e : Int := s.exponent + (toString s.digits).length - 1
  if s.digits = 0 ∨ (-5 ≤ e ∧ e ≤ 15) then s.positional else s.scientific

end Shortest
end HostedRepo.Decimal
