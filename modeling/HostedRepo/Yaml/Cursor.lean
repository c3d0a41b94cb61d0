import HostedRepo.Yaml.Fault

/-!
# Reading along a YAML text

A cursor holds the rest of a text and the place where it starts. Line breaks are line feed, carriage
return, both together, and three characters beyond ASCII.
-/

namespace HostedRepo.Yaml

structure Cursor where
  rest : List Char
  mark : Mark := {}

/-- Steps along a text, up to the first fault. -/
abbrev Reading := StateT Cursor (Except Fault)

def isBreak (c : Char) : Bool :=
  c == '\n' || c == '\r' || c == '\u0085' || c == '\u2028' || c == '\u2029'

def isGap (c : Char) : Bool := c == ' ' || c == '\t'

/-- Whether a line ends here. -/
def endsLine : List Char → Bool
  | [] => true
  | c :: _ => isBreak c

/-- Whether a word ends here. -/
def endsWord : List Char → Bool
  | [] => true
  | c :: _ => isGap c || isBreak c

def isWordChar (c : Char) : Bool := c.isAlphanum || c == '-' || c == '_'

namespace Cursor

/-- Past some characters of the line. -/
def skip (n : Nat) (c : Cursor) : Cursor :=
  ⟨c.rest.drop n, { c.mark with index := c.mark.index + n, column := c.mark.column + n }⟩

/-- Past a line break, with the break as scalars keep it. -/
def newline (c : Cursor) : Char × Cursor :=
  let after (n : Nat) (b : Char) : Char × Cursor :=
    (b, ⟨c.rest.drop n, ⟨c.mark.index + n, c.mark.line + 1, 0⟩⟩)
  match c.rest with
  | '\r' :: '\n' :: _ => after 2 '\n'
  | '\u2028' :: _ => after 1 '\u2028'
  | '\u2029' :: _ => after 1 '\u2029'
  | _ => after 1 '\n'

/-- Whether a line starts here with one of the marks between documents. -/
def atDocumentMark (c : Cursor) : Bool :=
  c.mark.column == 0 &&
    (match c.rest with
      | '-' :: '-' :: '-' :: rest | '.' :: '.' :: '.' :: rest => endsWord rest
      | _ => false)

end Cursor

namespace Reading

/-- Stops at the current place. -/
def fail {α : Type} (p : Problem) : Reading α := do throw ⟨p, (← get).mark⟩

def skip (n : Nat) : Reading Unit := modify (·.skip n)

def newline : Reading Char := do
  let (b, c) := (← get).newline
  set c
  return b

/-- The characters of the line that satisfy a condition. -/
def chars (p : Char → Bool) : Reading (List Char) := do
  let s := (← get).rest.takeWhile fun c => p c && !isBreak c
  skip s.length
  return s

end Reading

/-- The characters that may stand in a text. -/
def isAllowed (c : Char) : Bool :=
  c == '\t' || c == '\n' || c == '\r' || (' ' ≤ c && c ≤ '~') || c == '\u0085' ||
    ('\u00a0' ≤ c && c ≤ '\ufffd') || '\uffff' < c

end HostedRepo.Yaml
