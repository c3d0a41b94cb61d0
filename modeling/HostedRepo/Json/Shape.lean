import HostedRepo.Json.Node
import HostedRepo.Text.Quoted

/-!
# Shapes of JSON texts

A shape says what a JSON text has to hold: a string, a number, a record of named fields. Decoding
by a shape takes the members of an object in any order, or the items of an array one for each
field; it passes over members that the shape does not name, and takes no member twice. Reading
stops at the first place, in the order of the text, where text and shape disagree.
-/

namespace HostedRepo.Json

mutual

inductive Shape where
  | text
  | flag
  | count
  | option (s : Shape)
  | list (s : Shape)
  | record (title : String) (fields : Fields)

/-- The fields of a record in order; the flag says that a missing one has a default value. -/
inductive Fields where
  | nil
  | cons (name : String) (s : Shape) (defaulted : Bool) (rest : Fields)

end

mutual

/-- The values of a shape. -/
def Shape.Val : Shape → Type
  | .text => String
  | .flag => Bool
  | .count => Nat
  | .option s => Option s.Val
  | .list s => List s.Val
  | .record _ fields => fields.Row

/-- One value for each field. -/
def Fields.Row : Fields → Type
  | .nil => Unit
  | .cons _ s _ rest => s.Val × rest.Row

end

/-- The values that have been read so far. -/
def Fields.Slots : Fields → Type
  | .nil => Unit
  | .cons _ s _ rest => Option s.Val × rest.Slots

/-- How text and shape disagree. -/
inductive Mismatch where
  | wrongType (found expected : String)
  | wrongValue (found expected : String)
  | wrongLength (length : Nat) (expected : String)
  | missing (field : String)
  | duplicate (field : String)
  deriving DecidableEq, Repr

def Mismatch.message : Mismatch → String
  | .wrongType found expected => "invalid type: " ++ found ++ ", expected " ++ expected
  | .wrongValue found expected => "invalid value: " ++ found ++ ", expected " ++ expected
  | .wrongLength n expected => "invalid length " ++ toString n ++ ", expected " ++ expected
  | .missing field => "missing field \x60" ++ field ++ "\x60"
  | .duplicate field => "duplicate field \x60" ++ field ++ "\x60"

/-- Why a text has not the shape that is asked for. -/
inductive DecodeError where
  | fault (f : Fault)
  | mismatch (m : Mismatch)
  deriving DecidableEq, Repr

/-- A kept leaf, or the fault of keeping it. -/
def Leaf.get {α : Type} (l : Leaf α) : Except DecodeError α :=
  l.kept.mapError .fault

/-- The end of a list of items or members: the fault behind the last one, if there is one. -/
def finish : Option Fault → Except DecodeError Unit
  | none => .ok ()
  | some f => .error (.fault f)

/-- What a tree is, in messages. -/
def Node.describe : Node → Except DecodeError String
  | .null => .ok "null"
  | .flag b => .ok ("boolean \x60" ++ (if b then "true" else "false") ++ "\x60")
  | .number l => l.get.map Number.describe
  | .string l => l.get.map fun s => "string " ++ Text.quote s
  | .array _ _ => .ok "sequence"
  | .object _ _ => .ok "map"
  | .fault f => .error (.fault f)

/-- The error of a tree that has another type. -/
def Node.wrongType {α : Type} (n : Node) (expected : String) : Except DecodeError α :=
  n.describe.bind fun found => .error (.mismatch (.wrongType found expected))

namespace Fields

def size : Fields → Nat
  | .nil => 0
  | .cons _ _ _ rest => rest.size + 1

/-- No value read yet. -/
def empty : (fs : Fields) → fs.Slots
  | .nil => ()
  | .cons _ _ _ rest => (none, rest.empty)

end Fields

mutual

/-- The value that stands in for a missing member. -/
def Shape.default : (s : Shape) → s.Val
  | .text => ""
  | .flag => false
  | .count => (0 : Nat)
  | .option s => (none : Option s.Val)
  | .list s => ([] : List s.Val)
  | .record _ fields => fields.default

def Fields.default : (fs : Fields) → fs.Row
  | .nil => ()
  | .cons _ s _ rest => (s.default, rest.default)

end

/-- The value of a member that is left out, unless the member is needed. -/
def Shape.absent? : (s : Shape) → (defaulted : Bool) → Option s.Val
  | .option s, _ => some (none : Option s.Val)
  | s, true => some s.default
  | _, false => none

/-- A record as messages name it. -/
def recordTitle (title : String) : String := "struct " ++ title

/-- A record read from an array as messages name it. -/
def rowTitle (title : String) (size : Nat) : String :=
  recordTitle title ++ " with " ++ toString size ++ (if size = 1 then " element" else " elements")

/-- The row of the values read; a missing member is an error if it is needed. -/
def Fields.complete : (fs : Fields) → fs.Slots → Except DecodeError fs.Row
  | .nil, _ => .ok ()
  | .cons name s defaulted rest, (slot, slots) =>
    match slot.or (s.absent? defaulted) with
    | none => .error (.mismatch (.missing name))
    | some v => (rest.complete slots).map (v, ·)

/-- A natural number of 64 bits. -/
def decodeCount (n : Node) : Except DecodeError Nat :=
  match n with
  | .number l =>
    l.get.bind fun x => match x with
      | .natural k => .ok k
      | .minus _ => .error (.mismatch (.wrongValue x.describe "u64"))
      | .float _ _ => .error (.mismatch (.wrongType x.describe "u64"))
  | n => n.wrongType "u64"

mutual

/-- Reads a tree by a shape. -/
def Shape.decode : (s : Shape) → Node → Except DecodeError s.Val
  | .text, n =>
    match n with
    | .string l => l.get
    | n => n.wrongType "a string"
  | .flag, n =>
    match n with
    | .flag b => .ok b
    | n => n.wrongType "a boolean"
  | .count, n => decodeCount n
  | .option s, n =>
    match n with
    | .null => .ok none
    | n => (s.decode n).map some
  | .list s, n =>
    match n with
    | .array items stop => do
      let values ← items.mapM s.decode
      finish stop
      return values
    | n => n.wrongType "a sequence"
  | .record title fields, n =>
    match n with
    | .object members stop => do
      let slots ← members.foldlM (fun slots (key, value) => do
        fields.put slots (← key.get) value) fields.empty
      finish stop
      fields.complete slots
    | .array items stop => do
      let (row, rest) ← fields.decodeRow (rowTitle title fields.size) 0 items stop
      if rest.isEmpty then finish stop else .error (.fault .malformed)
      return row
    | n => n.wrongType (recordTitle title)

/-- Reads a member: into its slot, or past it when no field has its name. -/
def Fields.put : (fs : Fields) → fs.Slots → String → Node → Except DecodeError fs.Slots
  | .nil, _, _, n => finish n.passed
  | .cons name s _ rest, (slot, slots), key, n =>
    if key = name then
      match slot with
      | some _ => .error (.mismatch (.duplicate name))
      | none => (s.decode n).map fun v => (some v, slots)
    else (rest.put slots key n).map (slot, ·)

/-- Reads one item for each field, and returns the items that are left. -/
def Fields.decodeRow : (fs : Fields) → String → Nat → List Node → Option Fault →
    Except DecodeError (fs.Row × List Node)
  | .nil, _, _, items, _ => .ok ((), items)
  | .cons _ s defaulted rest, title, i, items, stop =>
    match items with
    | item :: items => do
      let v ← s.decode item
      let (row, left) ← rest.decodeRow title (i + 1) items stop
      return ((v, row), left)
    | [] => do
      finish stop
      if defaulted then
        let (row, left) ← rest.decodeRow title (i + 1) [] stop
        return ((s.default, row), left)
      else .error (.mismatch (.wrongLength i title))

end

/-- Reads a text by a shape. -/
def Shape.ofBytes (s : Shape) (bs : Bytes) : Except DecodeError s.Val := do
  let (n, trailing) := Node.ofBytes bs
  let v ← s.decode n
  finish trailing
  return v

namespace Node

/-- How deep arrays and objects may stand within each other when a whole tree is kept. -/
def depthLimit : Nat := 127

mutual

/-- Checks that a whole tree can be kept. -/
def keep (depth : Nat) : Node → Except Fault Unit
  | .null | .flag _ => .ok ()
  | .number l => l.kept.map fun _ => ()
  | .string l => l.kept.map fun _ => ()
  | .array items stop =>
    match depth with
    | 0 => .error .malformed
    | depth + 1 =>
      (keepItems depth items).bind fun _ => match stop with
        | none => .ok ()
        | some f => .error f
  | .object members stop =>
    match depth with
    | 0 => .error .malformed
    | depth + 1 =>
      (keepMembers depth members).bind fun _ => match stop with
        | none => .ok ()
        | some f => .error f
  | .fault f => .error f

def keepItems (depth : Nat) : List Node → Except Fault Unit
  | [] => .ok ()
  | n :: ns => (keep depth n).bind fun _ => keepItems depth ns

def keepMembers (depth : Nat) : List (Leaf String × Node) → Except Fault Unit
  | [] => .ok ()
  | (k, n) :: ms =>
    (k.kept.bind fun _ => keep depth n).bind fun _ => keepMembers depth ms

end

/-- The tree of a text that can be kept as a whole. -/
def whole (bs : Bytes) : Except Fault Node := do
  let (n, trailing) := ofBytes bs
  keep depthLimit n
  match trailing with
  | none => return n
  | some f => throw f

/-- The items of a text that is an array as a whole, with items that can be kept. Each of them stands
within the array already. -/
def items? (bs : Bytes) : Option (List Node) :=
  match ofBytes bs with
  | (.array items none, none) =>
    match keepItems (depthLimit - 1) items with
    | .ok _ => some items
    | .error _ => none
  | _ => none

/-- The key of a member in a tree that can be kept. -/
def keyText (k : Leaf String) : String :=
  match k.kept with
  | .ok s => s
  | .error _ => ""

/-- The members sorted by key; of several with one key the last. -/
def sortedMembers (members : List (Leaf String × Node)) : List (Leaf String × Node) :=
  let last := members.foldr (fun m ms =>
    if ms.any fun k => keyText k.1 = keyText m.1 then ms else m :: ms) []
  last.mergeSort fun a b => keyText a.1 ≤ keyText b.1

/-- The tree with the members of the outermost object sorted. -/
def sorted : Node → Node
  | .object members stop => .object (sortedMembers members) stop
  | n => n

end Node
end HostedRepo.Json
