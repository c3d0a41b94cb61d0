import HostedRepo.Config.Basic
import HostedRepo.Yaml.Meaning

/-!
# The file form of a configuration

A configuration file is a YAML mapping of known fields, each at most once; other fields are passed
over and missing ones have their defaults.
-/

namespace HostedRepo.Config

open Yaml

/-- How a file and the form of a configuration disagree. -/
inductive Mismatch where
  | wrongType (found expected : String)
  | wrongValue (found expected : String)
  | duplicate (field : String)
  deriving DecidableEq, Repr

def Mismatch.message : Mismatch → String
  | .wrongType found expected => "invalid type: " ++ found ++ ", expected " ++ expected
  | .wrongValue found expected => "invalid value: " ++ found ++ ", expected " ++ expected
  | .duplicate field => "duplicate field \x60" ++ field ++ "\x60"

/-- Why a file is not a configuration. -/
inductive FormatError where
  | fault (f : Fault)
  | mismatch (field : Option String) (m : Mismatch) (mark : Mark)
  deriving DecidableEq, Repr

def FormatError.message : FormatError → String
  | .fault f => f.message
  | .mismatch field m mark =>
    (match field with | none => "" | some f => f ++ ": ") ++ m.message ++ mark.suffix

abbrev Reading := Except FormatError

/-- What a node is. -/
def headOf : Node → Reading Head
  | .scalar s mark => .ok ⟨.scalar s, mark⟩
  | .sequence mark _ _ => .ok ⟨.sequence, mark⟩
  | .mapping mark _ _ => .ok ⟨.mapping, mark⟩
  | .alias target => .ok target
  | .fault f => .error (.fault f)

/-- The error of a node that has another type. -/
def wrongType {α : Type} (field : Option String) (expected : String) (h : Head) : Reading α :=
  let m : Mismatch := match h.kind with
    | .sequence => .wrongType "sequence" expected
    | .mapping => .wrongType "map" expected
    | .scalar s =>
      match s.meaning with
      | .ok m => .wrongType m.describe expected
      | .error readable => .wrongValue ("string " ++ Text.quote s.text) readable
  .error (.mismatch field m h.mark)

/-- Reads a text: any scalar is one. -/
def readText (field : String) (h : Head) : Reading String :=
  match h.kind with
  | .scalar s => .ok s.text
  | _ => wrongType field "a string" h

/-- Whether a value is left out; `mark` is the place of the mapping that it is in. -/
def isAbsent (mark : Mark) (h : Head) : Reading Bool :=
  match h.kind with
  | .scalar ⟨text, .plain, tag⟩ =>
    match tag with
    | none => .ok (text.isEmpty || Meaning.isNull text)
    | some tag =>
      if tag ≠ Meaning.coreTag "null" then .ok false
      else if Meaning.isNull text then .ok true
      else .error (.mismatch none (.wrongValue ("string " ++ Text.quote text) "null") mark)
  | _ => .ok false

/-- Reads a natural number of 64 bits from a plain scalar, or from a literal one tagged so. -/
def readCount (field : String) (h : Head) : Reading Nat :=
  match h.kind with
  | .scalar s =>
    let readable := s.style = .plain ∨ (s.style = .literal ∧ s.tag = some (Meaning.coreTag "int"))
    match (if readable then Meaning.natural? (Nat.pow 2 64) s.text.toList else none) with
    | some n => .ok n
    | none => wrongType field "u64" h
  | _ => wrongType field "u64" h

/-- Reads a value that may be left out. -/
def readOption {α : Type} (mark : Mark) (read : Head → Reading α) (h : Head) :
    Reading (Option α) := do
  if ← isAbsent mark h then return none
  return some (← read h)

/-- The fields as far as they have been read. -/
structure Fields where
  apiBase : Option String := none
  userAgent : Option String := none
  token : Option (Option String) := none
  timeout : Option (Option Nat) := none

mutual

/-- Where passing over a tree stops. -/
def passed : Node → Option Fault
  | .scalar _ _ | .alias _ => none
  | .sequence _ items stop => (passedItems items).or stop
  | .mapping _ entries stop => (passedEntries entries).or stop
  | .fault f => some f

def passedItems : List Node → Option Fault
  | [] => none
  | n :: ns => (passed n).or (passedItems ns)

def passedEntries : List (Node × Node) → Option Fault
  | [] => none
  | (k, v) :: es => ((passed k).or (passed v)).or (passedEntries es)

end

/-- Fails when a field has a value already. -/
def once {α : Type} (mark : Mark) (name : String) : Option α → Reading Unit
  | none => .ok ()
  | some _ => .error (.mismatch none (.duplicate name) mark)

/-- Reads one entry of the mapping that starts at `mark`. -/
def readEntry (mark : Mark) (fs : Fields) (entry : Node × Node) : Reading Fields := do
  let (keyNode, value) := entry
  let key ← headOf keyNode
  let name ← match key.kind with
    | .scalar s => pure s.text
    | _ => wrongType none "field identifier" key
  let field := match keyNode with
    | .alias _ => "?"
    | _ => name
  if name = "api_base" then
    once mark name fs.apiBase
    return { fs with apiBase := some (← readText field (← headOf value)) }
  else if name = "user_agent" then
    once mark name fs.userAgent
    return { fs with userAgent := some (← readText field (← headOf value)) }
  else if name = "token" then
    once mark name fs.token
    return { fs with token := some (← readOption mark (readText field) (← headOf value)) }
  else if name = "timeout_secs" then
    once mark name fs.timeout
    return { fs with timeout := some (← readOption mark (readCount field) (← headOf value)) }
  else match passed value with
    | none => return fs
    | some f => throw (.fault f)

/-- The configuration with the fields read. -/
def Fields.toConfig (fs : Fields) : Config :=
  let base : Config := {}
  { apiBase := fs.apiBase.getD base.apiBase
    userAgent := fs.userAgent.getD base.userAgent
    token := fs.token.getD none
    timeout := fs.timeout.getD none }

def noFault : Option Fault → Reading Unit
  | none => .ok ()
  | some f => .error (.fault f)

/-- Reads the root of a document. -/
def readRoot (n : Node) : Reading Config :=
  match n with
  | .mapping mark entries stop => do
    let fs ← entries.foldlM (readEntry mark) {}
    noFault stop
    return fs.toConfig
  | .scalar ⟨"", .plain, _⟩ _ => .ok {}
  | n => do wrongType none "struct Config" (← headOf n)

/-- Reads a configuration from the text of a file. -/
def ofText (text : String) : Reading Config := do
  let d := Document.ofText text
  let c ← match d.root with
    | none => pure {}
    | some n => readRoot n
  noFault d.stop
  return c

end HostedRepo.Config
