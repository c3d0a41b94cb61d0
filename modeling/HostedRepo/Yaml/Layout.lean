import HostedRepo.Yaml.Property
import HostedRepo.Yaml.Scalar

/-!
# The layout of a text

Tokens are read one after the other. A token that may turn out to be a key is held back, with all
that follow it, until a colon comes or its line ends; indentation opens and closes blocks. When the
text is faulty, the tokens that were not held back come before the fault.
-/

namespace HostedRepo.Yaml

/-- A token that may turn out to be a key; one that is required has to. -/
structure PossibleKey where
  required : Bool
  number : Nat
  mark : Mark

/-- How far the tokens of a text are known, with the blocks and possible keys at this point. -/
structure Layout where
  cursor : Cursor
  ready : List Token := []
  held : List Token := []
  /-- The column of the innermost block; none outside of blocks. -/
  indent : Option Nat := none
  outer : List (Option Nat) := []
  keyAllowed : Bool := true
  /-- The possible key of each flow level, the innermost first. -/
  keys : List (Option PossibleKey) := [none]

/-- Tokens, and the fault that ended them if there is one. -/
structure Tokens where
  tokens : List Token
  fault : Option Fault
  /-- Where the text ends. -/
  stop : Mark

namespace Layout

def flow (s : Layout) : Bool := 2 ≤ s.keys.length

def here (s : Layout) : Mark := s.cursor.mark

/-- The number of the next token. -/
def next (s : Layout) : Nat := s.ready.length + s.held.length

def push (s : Layout) (kind : TokenKind) (start : Mark) : Layout :=
  { s with held := s.held ++ [⟨kind, start, s.here⟩] }

/-- Puts a token before the one with a number. -/
def insert (s : Layout) (number : Nat) (kind : TokenKind) (mark : Mark) : Layout :=
  let n := number - s.ready.length
  { s with held := s.held.take n ++ ⟨kind, mark, mark⟩ :: s.held.drop n }

/-- Gives up the possible key of the current level. -/
def dropKey (s : Layout) : Except Fault Layout :=
  match s.keys with
  | some k :: ks =>
    if k.required then .error ⟨.noColon, s.here⟩ else .ok { s with keys := none :: ks }
  | _ => .ok s

/-- Notes that the next token may be a key. -/
def noteKey (s : Layout) : Except Fault Layout := do
  if s.keyAllowed then
    let required := !s.flow && s.indent == some s.here.column
    let s ← s.dropKey
    return { s with keys := some ⟨required, s.next, s.here⟩ :: s.keys.drop 1 }
  return s

/-- Gives up the possible keys that lie on another line or too far back. -/
def dropStaleKeys (s : Layout) : Except Fault Layout := do
  let stale (k : PossibleKey) : Bool :=
    k.mark.line < s.here.line || k.mark.index + 1024 < s.here.index
  if s.keys.any fun k => (k.map fun k => stale k && k.required).getD false then
    throw ⟨.noColon, s.here⟩
  return { s with keys := s.keys.map (·.filter (!stale ·)) }

/-- Opens a block whose column is beyond the current one. -/
def openBlock (s : Layout) (column : Nat) (number : Nat) (kind : TokenKind) (mark : Mark) : Layout :=
  let deeper := match s.indent with
    | none => true
    | some n => n < column
  if !s.flow && deeper then
    { s with indent := some column, outer := s.indent :: s.outer }.insert number kind mark
  else s

/-- Closes the blocks whose column is beyond a given one; without one, all blocks. -/
def closeBeyond (column : Option Nat) (fuel : Nat) (s : Layout) : Layout :=
  match fuel, s.indent, s.outer with
  | fuel + 1, some n, before :: outer =>
    let beyond := match column with
      | none => true
      | some c => c < n
    if !s.flow && beyond then
      closeBeyond column fuel ({ s with indent := before, outer := outer }.push .blockEnd s.here)
    else s
  | _, _, _ => s

def closeBlocks (s : Layout) (column : Option Nat) : Layout :=
  closeBeyond column (s.outer.length + 1) s

/-- Steps over blanks, comments and line breaks. -/
def skipGaps (fuel : Nat) (s : Layout) : Layout :=
  match fuel with
  | 0 => s
  | fuel + 1 =>
    let blank (c : Char) : Bool := c == ' ' || ((s.flow || !s.keyAllowed) && c == '\t')
    match s.cursor.rest with
    | [] => s
    | c :: rest =>
      if blank c || (c == '\ufeff' && s.here.index == 0) then
        skipGaps fuel { s with cursor := s.cursor.skip 1 }
      else if c == '#' then
        let n := ((c :: rest).takeWhile (!isBreak ·)).length
        skipGaps fuel { s with cursor := s.cursor.skip n }
      else if isBreak c then
        skipGaps fuel { s with cursor := s.cursor.newline.2, keyAllowed := s.keyAllowed || !s.flow }
      else s

/-- Reads a token. -/
def pushRead (s : Layout) (token : Reading TokenKind) : Except Fault Layout := do
  let start := s.here
  let (kind, cursor) ← StateT.run token s.cursor
  return { s with cursor := cursor }.push kind start

/-- Reads a token of some characters of the line. -/
def pushMark (s : Layout) (size : Nat) (kind : TokenKind) : Layout :=
  { s with cursor := s.cursor.skip size }.push kind s.here

def addOpen (s : Layout) (kind : TokenKind) : Except Fault Layout := do
  let s ← s.noteKey
  return { s with keys := none :: s.keys, keyAllowed := true }.pushMark 1 kind

def addClose (s : Layout) (kind : TokenKind) : Except Fault Layout := do
  let s ← s.dropKey
  let s := if s.flow then { s with keys := s.keys.drop 1 } else s
  return { s with keyAllowed := false }.pushMark 1 kind

def addEntry (s : Layout) : Except Fault Layout := do
  if !s.flow && !s.keyAllowed then throw ⟨.entryNotAllowed, s.here⟩
  let s ← (s.openBlock s.here.column s.next .sequenceBlock s.here).dropKey
  return { s with keyAllowed := true }.pushMark 1 .entry

def addKey (s : Layout) : Except Fault Layout := do
  if !s.flow && !s.keyAllowed then throw ⟨.keyNotAllowed, s.here⟩
  let s ← (s.openBlock s.here.column s.next .mappingBlock s.here).dropKey
  return { s with keyAllowed := !s.flow }.pushMark 1 .key

def addValue (s : Layout) : Except Fault Layout := do
  match s.keys with
  | some k :: ks =>
    let s := { s with keys := none :: ks, keyAllowed := false }.insert k.number .key k.mark
    return (s.openBlock k.mark.column k.number .mappingBlock k.mark).pushMark 1 .value
  | _ =>
    if !s.flow && !s.keyAllowed then throw ⟨.valueNotAllowed, s.here⟩
    let s := s.openBlock s.here.column s.next .mappingBlock s.here
    return { s with keyAllowed := !s.flow }.pushMark 1 .value

def addPlain (s : Layout) : Except Fault Layout := do
  let s ← s.noteKey
  let start := s.here
  let indent := match s.indent with
    | none => 0
    | some n => n + 1
  let ((text, broken), cursor) ←
    StateT.run (readPlain s.flow indent (s.cursor.rest.length + 1) {} []) s.cursor
  return { s with cursor := cursor, keyAllowed := broken }.push
    (.scalar (String.ofList text) .plain) start

/-- Whether a plain scalar starts with a character, given what follows it. -/
def startsPlain (flow : Bool) (c : Char) (rest : List Char) : Bool :=
  let indicators := "-?:,[]\x7b\x7d#&*!|>'\"%@\x60".toList
  (!indicators.contains c && !isGap c) ||
    (c == '-' && !(rest.head?.map isGap).getD false) ||
    (!flow && (c == '?' || c == ':') && !endsWord rest)

/-- Reads the token that starts with a character. -/
def addToken (s : Layout) (c : Char) (rest : List Char) : Except Fault Layout := do
  if c == '%' && s.here.column == 0 then
    let s ← (s.closeBlocks none).dropKey
    { s with keyAllowed := false }.pushRead directiveToken
  else if s.cursor.atDocumentMark then
    let s ← (s.closeBlocks none).dropKey
    return { s with keyAllowed := false }.pushMark 3
      (if c == '-' then .documentStart else .documentEnd)
  else match c with
    | '[' => s.addOpen .openBracket
    | '\x7b' => s.addOpen .openBrace
    | ']' => s.addClose .closeBracket
    | '\x7d' => s.addClose .closeBrace
    | ',' =>
      let s ← s.dropKey
      return { s with keyAllowed := true }.pushMark 1 .comma
    | '*' =>
      let s ← s.noteKey
      { s with keyAllowed := false }.pushRead (return .alias (← readName))
    | '&' =>
      let s ← s.noteKey
      { s with keyAllowed := false }.pushRead (return .anchor (← readName))
    | '!' =>
      let s ← s.noteKey
      { s with keyAllowed := false }.pushRead (tagToken s.flow)
    | '\'' =>
      let s ← s.noteKey
      { s with keyAllowed := false }.pushRead (quotedScalar true)
    | '"' =>
      let s ← s.noteKey
      { s with keyAllowed := false }.pushRead (quotedScalar false)
    | _ =>
      if c == '-' && endsWord rest then s.addEntry
      else if c == '?' && (s.flow || endsWord rest) then s.addKey
      else if c == ':' && (s.flow || endsWord rest) then s.addValue
      else if (c == '|' || c == '>') && !s.flow then
        let s ← s.dropKey
        { s with keyAllowed := true }.pushRead (blockScalar (c == '>') s.indent)
      else if startsPlain s.flow c rest then s.addPlain
      else throw ⟨.startsNoToken, s.here⟩

/-- Reads the next token; `none` stands for the end of the text. -/
def addNext (s : Layout) : Except Fault (Layout × Bool) := do
  let s := s.skipGaps (s.cursor.rest.length + 1)
  let s ← s.dropStaleKeys
  let s := s.closeBlocks (some s.here.column)
  match s.cursor.rest with
  | [] =>
    let mark := if s.here.column = 0 then s.here
      else { s.here with line := s.here.line + 1, column := 0 }
    let s ← ({ s with cursor := ⟨[], mark⟩ }.closeBlocks none).dropKey
    return (s, true)
  | c :: rest => return (← s.addToken c rest, false)

/-- Releases the tokens at the front that cannot be keys. -/
def release (fuel : Nat) (s : Layout) : Except Fault Layout := do
  match fuel, s.held with
  | fuel + 1, token :: held =>
    let s ← s.dropStaleKeys
    let blocked := s.keys.any fun k => (k.map (·.number == s.ready.length)).getD false
    if blocked then return s
    release fuel { s with ready := s.ready ++ [token], held := held }
  | _, _ => return s

/-- Reads tokens to the end of the text. -/
def readAll (fuel : Nat) (s : Layout) : Tokens :=
  match fuel with
  | 0 => ⟨s.ready, none, s.here⟩
  | fuel + 1 =>
    match s.addNext with
    | .error f => ⟨s.ready, some f, f.mark⟩
    | .ok (s, finished) =>
      match s.release s.held.length with
      | .error f => ⟨s.ready, some f, f.mark⟩
      | .ok s => if finished then ⟨s.ready, none, s.here⟩ else readAll fuel s

end Layout

/-- The tokens of a text. A character that may not stand in a text is found first. -/
def Tokens.ofText (text : String) : Tokens :=
  let s := match text.toList with
    | '\ufeff' :: s => s
    | s => s
  if s.all isAllowed then Layout.readAll (s.length + 2) { cursor := ⟨s, {}⟩ }
  else ⟨[], some ⟨.control, {}⟩, {}⟩

end HostedRepo.Yaml
