import HostedRepo.Text.Quoted

/-!
# JSON values to be written

The values that requests carry and their compact text: no blanks, members in the order given, and
escapes only for quotes, backslashes and controls.
-/

namespace HostedRepo.Json

inductive Value where
  | flag (b : Bool)
  | text (s : String)
  | list (items : List Value)
  | object (members : List (String × Value))
  deriving Repr

namespace Value

/-- One character of a written string. -/
def escapeChar (c : Char) : String :=
  match c with
  | '"' => "\\\""
  | '\\' => "\\\\"
  | '\n' => "\\n"
  | '\r' => "\\r"
  | '\t' => "\\t"
  | '\x08' => "\\b"
  | '\x0c' => "\\f"
  | c =>
    if c < ' ' then (if c.toNat < 16 then "\\u000" else "\\u00") ++ Text.hex c.toNat
    else c.toString

/-- A string between quotes. -/
def stringText (s : String) : String :=
  "\"" ++ String.join (s.toList.map escapeChar) ++ "\""

mutual

/-- The compact text of a value. -/
def render : Value → String
  | .flag b => if b then "true" else "false"
  | .text s => stringText s
  | .list items => "[" ++ ",".intercalate (renderItems items) ++ "]"
  | .object members => "\x7b" ++ ",".intercalate (renderMembers members) ++ "\x7d"

def renderItems : List Value → List String
  | [] => []
  | v :: vs => render v :: renderItems vs

def renderMembers : List (String × Value) → List String
  | [] => []
  | (k, v) :: ms => (stringText k ++ ":" ++ render v) :: renderMembers ms

end

/-- A member that is left out when there is no text for it. -/
def optionalText (name : String) : Option String → List (String × Value)
  | none => []
  | some s => [(name, .text s)]

end Value
end HostedRepo.Json
