import HostedRepo.Decimal.Shortest

/-!
# Numbers in JSON texts

A number without fraction and exponent that fits 64 bits is exact; every other one is a binary
floating point number, got from the first digits that fit 64 bits by one product with, or one
quotient by, a power of ten.
-/

namespace HostedRepo.Json

/-- The parts of a number as they are written. -/
structure Literal where
  negative : Bool
  whole : List Nat
  fraction : List Nat := []
  exponent : Option (Bool × List Nat) := none
  deriving DecidableEq, Repr

inductive Number where
  | natural (n : Nat)
  | minus (n : Nat)
  | float (negative : Bool) (magnitude : Decimal.Binary64)
  deriving DecidableEq, Repr

namespace Number

open Decimal

/-- Whether a number fits 64 bits. -/
def fits (n : Nat) : Bool := n < Nat.pow 2 64

/-- Appends digits as long as the number fits 64 bits; returns also the digits left over. -/
def gather (n : Nat) : List Nat → Nat × List Nat
  | [] => (n, [])
  | d :: ds => if fits (n * 10 + d) then gather (n * 10 + d) ds else (n, d :: ds)

/-- Divides by a power of ten in steps of at most `10 ^ 308`. -/
def shrink (fuel : Nat) (x : Binary64) (e : Nat) : Option Binary64 :=
  match fuel with
  | 0 => some Binary64.zero
  | fuel + 1 => do
    if e ≤ 308 then x.div (← Binary64.ofDecimal 1 e)
    else if x.mantissa = 0 then return x
    else shrink fuel (← x.div (← Binary64.ofDecimal 1 308)) (e - 308)

/-- A number scaled by a power of ten; `none` when it is out of range. -/
def scale (significand : Nat) (e : Int) : Option Binary64 := do
  let x ← Binary64.ofRatio significand 1
  if 0 ≤ e then
    if e ≤ 308 then x.mul (← Binary64.ofDecimal 1 e)
    else if significand = 0 then return x
    else none
  else shrink 4 x (-e).toNat

/-- The number that a literal stands for; `none` when it is out of range. -/
def ofLiteral (l : Literal) : Option Number :=
  let (n, excess) := gather 0 l.whole
  match l.fraction, l.exponent, excess with
  | [], none, [] =>
    if !l.negative then some (.natural n)
    else if 1 ≤ n ∧ n ≤ Nat.pow 2 63 then some (.minus n)
    else (scale n 0).map (.float true)
  | fraction, exponent, excess =>
    let (n, unread) := gather n fraction
    let start : Int := (excess.length : Int) - (fraction.length - unread.length : Nat)
    let e : Int := match exponent with
      | none => start
      | some (down, ds) =>
        let size : Nat := ds.foldl (fun e d => e * 10 + d) 0
        if down then start - size else start + size
    let tooLong := match exponent with
      | none => false
      | some (_, ds) => Nat.pow 2 31 ≤ ds.foldl (fun e d => e * 10 + d) 0
    if tooLong then
      if 0 < e ∧ n ≠ 0 then none else some (.float l.negative Binary64.zero)
    else (scale n e).map (.float l.negative)

/-- The number in messages. -/
def describe : Number → String
  | .natural n => "integer \x60" ++ toString n ++ "\x60"
  | .minus n => "integer \x60-" ++ toString n ++ "\x60"
  | .float negative x =>
    "floating point \x60" ++ (if negative then "-" else "") ++ (Shortest.of x).text ++ "\x60"

end Number
end HostedRepo.Json
