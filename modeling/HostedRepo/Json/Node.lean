import HostedRepo.Json.Number
import HostedRepo.Text.Utf8

/-!
# JSON texts as trees

The tree of a JSON text goes as far as the text is well formed: where reading has to stop, the tree
has a fault. A string or number that is kept and one that is passed over may stop for different
reasons, so a leaf holds both outcomes.
-/

namespace HostedRepo.Json

/-- Why a text is not JSON: it ended too early, or something stands where it may not stand. -/
inductive Fault where
  | ended
  | malformed
  deriving DecidableEq, Repr

/-- What keeping a leaf gives, and where passing over it stops. -/
structure Leaf (α : Type) where
  kept : Except Fault α
  passed : Option Fault := none

inductive Node where
  | null
  | flag (value : Bool)
  | number (value : Leaf Number)
  | string (value : Leaf String)
  /-- The items, and the fault behind the last one if the bracket does not close. -/
  | array (items : List Node) (stop : Option Fault)
  /-- The members, and the fault behind the last one if the brace does not close. -/
  | object (members : List (Leaf String × Node)) (stop : Option Fault)
  | fault (f : Fault)

namespace Node

/-- A byte that may stand between the parts of a text. -/
def isSpace (b : UInt8) : Bool := b == 32 || b == 9 || b == 10 || b == 13

def skipSpace (bs : Bytes) : Bytes := bs.dropWhile isSpace

def isDigit (b : UInt8) : Bool := 48 ≤ b && b ≤ 57

def digits (bs : Bytes) : List Nat := (bs.takeWhile isDigit).map fun b => b.toNat - 48

/-- A piece of a string: a byte of its text, or the number of an escape with four digits. -/
inductive Piece where
  | byte (b : UInt8)
  | escape (n : Nat)

/-- The value of a hexadecimal digit, given by its byte. -/
def hexDigit (b : UInt8) : Option Nat :=
  if 48 ≤ b && b ≤ 57 then some (b.toNat - 48)
  else if 65 ≤ b && b ≤ 70 then some (b.toNat - 55)
  else if 97 ≤ b && b ≤ 102 then some (b.toNat - 87)
  else none

/-- The byte that an escape with one letter stands for. -/
def shortEscape (b : UInt8) : Option UInt8 :=
  if b == 34 || b == 92 || b == 47 then some b
  else if b == 98 then some 8
  else if b == 102 then some 12
  else if b == 110 then some 10
  else if b == 114 then some 13
  else if b == 116 then some 9
  else none

/-- The pieces of a string up to its closing quote, and what follows it or the fault. -/
def pieces : Bytes → List Piece × Except Fault Bytes
  | [] => ([], .error .ended)
  | 34 :: rest => ([], .ok rest)
  | [92] => ([], .error .ended)
  | 92 :: 117 :: a :: b :: c :: d :: rest =>
    match hexDigit a, hexDigit b, hexDigit c, hexDigit d with
    | some a, some b, some c, some d =>
      let (ps, r) := pieces rest
      (.escape (a * 4096 + b * 256 + c * 16 + d) :: ps, r)
    | _, _, _, _ => ([], .error .malformed)
  | 92 :: 117 :: _ => ([], .error .ended)
  | 92 :: b :: rest =>
    match shortEscape b with
    | some x =>
      let (ps, r) := pieces rest
      (.byte x :: ps, r)
    | none => ([], .error .malformed)
  | b :: rest =>
    if b < 32 then ([], .error .malformed)
    else
      let (ps, r) := pieces rest
      (.byte b :: ps, r)

/-- The bytes of pieces; `none` when half of a surrogate pair stands alone. The result for a half
at the very end is `some none`, as the text may have gone on. -/
def joined : List Piece → Option (Option Bytes)
  | [] => some (some [])
  | .byte b :: ps => (joined ps).map fun r => r.map (b :: ·)
  | [.escape n] =>
    if 0xd800 ≤ n ∧ n < 0xdc00 then some none
    else if 0xdc00 ≤ n ∧ n < 0xe000 then none
    else some (some (String.utf8EncodeChar (Char.ofNat n)))
  | .escape n :: p :: ps =>
    if 0xd800 ≤ n ∧ n < 0xdc00 then
      match p with
      | .byte _ => none
      | .escape m =>
        if 0xdc00 ≤ m ∧ m < 0xe000 then
          let c := Char.ofNat (0x10000 + (n - 0xd800) * 0x400 + (m - 0xdc00))
          (joined ps).map fun r => r.map (String.utf8EncodeChar c ++ ·)
        else none
    else if 0xdc00 ≤ n ∧ n < 0xe000 then none
    else (joined (p :: ps)).map fun r => r.map (String.utf8EncodeChar (Char.ofNat n) ++ ·)

/-- Reads a string after its opening quote. -/
def readString (bs : Bytes) : Leaf String × Option Bytes :=
  let (ps, rest) := pieces bs
  match joined ps, rest with
  | none, .ok rest => (⟨.error .malformed, none⟩, some rest)
  | none, .error f => (⟨.error .malformed, some f⟩, none)
  | some none, .ok rest => (⟨.error .malformed, none⟩, some rest)
  | some _, .error f => (⟨.error f, some f⟩, none)
  | some (some text), .ok rest =>
    match Text.Utf8.decode? text with
    | some s => (⟨.ok s, none⟩, some rest)
    | none => (⟨.error .malformed, none⟩, some rest)

/-- The fraction and exponent after the digits `whole`; on failure, whether the text ended. -/
def readExponent (l : Literal) (bs : Bytes) : Except Bool (Literal × Bytes) :=
  match bs with
  | e :: rest =>
    if e == 101 || e == 69 then
      let (down, rest) := match rest with
        | 43 :: r => (false, r)
        | 45 :: r => (true, r)
        | r => (false, r)
      match rest with
      | [] => .error true
      | b :: _ =>
        if isDigit b then
          .ok ({ l with exponent := some (down, digits rest) }, rest.dropWhile isDigit)
        else .error false
    else .ok (l, bs)
  | [] => .ok (l, [])

/-- Reads a number after its sign; on failure, whether the text ended. -/
def readLiteral (negative : Bool) (bs : Bytes) : Except Bool (Literal × Bytes) :=
  let whole := digits bs
  let rest := bs.dropWhile isDigit
  match bs with
  | [] => .error true
  | b :: _ =>
    if !isDigit b then .error false
    else if b == 48 && whole.length > 1 then .error false
    else match rest with
      | 46 :: rest =>
        let fraction := digits rest
        if fraction.isEmpty then .error rest.isEmpty
        else readExponent { negative := negative, whole := whole, fraction := fraction }
          (rest.dropWhile isDigit)
      | rest => readExponent { negative := negative, whole := whole } rest

/-- Reads a number. -/
def readNumber (bs : Bytes) : Leaf Number × Option Bytes :=
  let parsed := match bs with
    | 45 :: rest => readLiteral true rest
    | _ => readLiteral false bs
  match parsed with
  | .error ended => (⟨.error (if ended then .ended else .malformed), some .malformed⟩, none)
  | .ok (l, rest) =>
    match Number.ofLiteral l with
    | some n => (⟨.ok n, none⟩, some rest)
    | none => (⟨.error .malformed, none⟩, some rest)

/-- The rest after a word, or why it does not stand there. -/
def readWord : List UInt8 → Bytes → Except Fault Bytes
  | [], bs => .ok bs
  | _ :: _, [] => .error .ended
  | w :: ws, b :: bs => if w == b then readWord ws bs else .error .malformed

/-- A tree, and what follows its text unless reading stopped within it. -/
abbrev Step := Node × Option Bytes

def word (n : Node) (w : List UInt8) (bs : Bytes) : Step :=
  match readWord w bs with
  | .ok rest => (n, some rest)
  | .error f => (.fault f, none)

mutual

/-- Reads a value. -/
def read (fuel : Nat) (bs : Bytes) : Step :=
  match fuel with
  | 0 => (.fault .ended, none)
  | fuel + 1 =>
    match skipSpace bs with
    | [] => (.fault .ended, none)
    | 110 :: rest => word .null [117, 108, 108] rest
    | 116 :: rest => word (.flag true) [114, 117, 101] rest
    | 102 :: rest => word (.flag false) [97, 108, 115, 101] rest
    | 34 :: rest =>
      let (leaf, rest) := readString rest
      (.string leaf, rest)
    | 91 :: rest =>
      match skipSpace rest with
      | [] => (.array [] (some .ended), none)
      | 93 :: rest => (.array [] none, some rest)
      | rest =>
        let (items, stop, rest) := readItems fuel rest
        (.array items stop, rest)
    | 123 :: rest =>
      match skipSpace rest with
      | [] => (.object [] (some .ended), none)
      | 125 :: rest => (.object [] none, some rest)
      | rest =>
        let (members, stop, rest) := readMembers fuel rest
        (.object members stop, rest)
    | b :: rest =>
      if b == 45 || isDigit b then
        let (leaf, rest) := readNumber (b :: rest)
        (.number leaf, rest)
      else (.fault .malformed, none)

/-- Reads the items of an array from the first one on. -/
def readItems (fuel : Nat) (bs : Bytes) : List Node × Option Fault × Option Bytes :=
  match fuel with
  | 0 => ([], some .ended, none)
  | fuel + 1 =>
    let (item, rest) := read fuel bs
    match rest with
    | none => ([item], none, none)
    | some rest =>
      match skipSpace rest with
      | [] => ([item], some .ended, none)
      | 93 :: rest => ([item], none, some rest)
      | 44 :: rest =>
        let (items, stop, rest) := readItems fuel rest
        (item :: items, stop, rest)
      | _ => ([item], some .malformed, none)

/-- Reads the members of an object from the first one on. -/
def readMembers (fuel : Nat) (bs : Bytes) :
    List (Leaf String × Node) × Option Fault × Option Bytes :=
  match fuel with
  | 0 => ([], some .ended, none)
  | fuel + 1 =>
    match skipSpace bs with
    | [] => ([], some .ended, none)
    | 34 :: rest =>
      let (key, rest) := readString rest
      match rest.map skipSpace with
      | none => ([(key, .fault .malformed)], none, none)
      | some [] => ([(key, .fault .ended)], none, none)
      | some (58 :: rest) =>
        let (value, rest) := read fuel rest
        match rest.map skipSpace with
        | none => ([(key, value)], none, none)
        | some [] => ([(key, value)], some .ended, none)
        | some (125 :: rest) => ([(key, value)], none, some rest)
        | some (44 :: rest) =>
          let (members, stop, rest) := readMembers fuel rest
          ((key, value) :: members, stop, rest)
        | some _ => ([(key, value)], some .malformed, none)
      | some _ => ([(key, .fault .malformed)], none, none)
    | _ => ([], some .malformed, none)

end

/-- The tree of a text. What follows the value is a fault of its own. -/
def ofBytes (bs : Bytes) : Node × Option Fault :=
  let (n, rest) := read (2 * bs.length + 2) bs
  match rest with
  | none => (n, none)
  | some rest => (n, if (skipSpace rest).isEmpty then none else some .malformed)

mutual

/-- Where passing over a tree stops. -/
def passed : Node → Option Fault
  | .null | .flag _ => none
  | .number l => l.passed
  | .string l => l.passed
  | .array items stop => (passedItems items).or stop
  | .object members stop => (passedMembers members).or stop
  | .fault f => some f

def passedItems : List Node → Option Fault
  | [] => none
  | n :: ns => n.passed.or (passedItems ns)

def passedMembers : List (Leaf String × Node) → Option Fault
  | [] => none
  | (k, n) :: ms => (k.passed.or n.passed).or (passedMembers ms)

end

end Node
end HostedRepo.Json
