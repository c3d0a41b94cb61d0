import HostedRepo.Yaml.Token
import HostedRepo.Text.Utf8

/-!
# Scalars as they are written

Plain, quoted and block scalars. A line break between two lines of text becomes a space; of more
than one the others stay. In block scalars the indentation is taken away.
-/

namespace HostedRepo.Yaml

/-- What lies between two words: blanks on the line, then line breaks. -/
structure Gap where
  blanks : List Char := []
  broken : Bool := false
  first : Option Char := none
  more : List Char := []

namespace Gap

/-- The text that stands for a gap within a flow of words. -/
def folded (g : Gap) : List Char :=
  if g.broken then
    match g.first with
    | some '\n' => if g.more.isEmpty then [' '] else g.more
    | some b => b :: g.more
    | none => g.more
  else g.blanks

/-- Reads on through blanks and line breaks. With an indentation given, a tab before it is a
fault. -/
def read (indent : Option Nat) (fuel : Nat) (g : Gap) : Reading Gap := do
  match fuel with
  | 0 => return g
  | fuel + 1 =>
    let c ← get
    match c.rest with
    | [] => return g
    | b :: _ =>
      if isGap b then
        let early := match indent with
          | none => false
          | some n => g.broken && c.mark.column < n && b == '\t'
        if early then Reading.fail .tab
        Reading.skip 1
        read indent fuel (if g.broken then g else { g with blanks := g.blanks ++ [b] })
      else if isBreak b then
        let b ← Reading.newline
        read indent fuel
          (if g.broken then { g with more := g.more ++ [b] }
          else { blanks := [], broken := true, first := some b })
      else return g

end Gap

/-- The characters of a plain word; the flag is false when it stops at a colon that may not stand
there. -/
def plainWord (flow : Bool) : List Char → List Char × Bool
  | [] => ([], true)
  | c :: s =>
    let special := ",?[]\x7b\x7d".toList
    if isGap c || isBreak c then ([], true)
    else if flow && c == ':' && (s.head?.map special.contains).getD false then ([], false)
    else if c == ':' && endsWord s then ([], true)
    else if flow && c ≠ '?' && special.contains c then ([], true)
    else
      let (word, ok) := plainWord flow s
      (c :: word, ok)

/-- Reads a plain scalar from a word on, after a gap; tells also whether the last line was left. -/
def readPlain (flow : Bool) (indent : Nat) (fuel : Nat) (g : Gap) (text : List Char) :
    Reading (List Char × Bool) := do
  match fuel with
  | 0 => return (text, g.broken)
  | fuel + 1 =>
    let c ← get
    if c.atDocumentMark || c.rest.head? == some '#' then return (text, g.broken)
    let (word, ok) := plainWord flow c.rest
    Reading.skip word.length
    if !ok then Reading.fail .colon
    let text := if word.isEmpty then text else text ++ g.folded ++ word
    let g := if word.isEmpty then g else {}
    let c ← get
    match c.rest with
    | [] => return (text, g.broken)
    | b :: _ =>
      if !(isGap b || isBreak b) then return (text, g.broken)
      let g ← g.read (some indent) c.rest.length
      if !flow && (← get).mark.column < indent then return (text, g.broken)
      readPlain flow indent fuel g text

/-- The value of a hexadecimal digit. -/
def hexValue (c : Char) : Option Nat :=
  if '0' ≤ c && c ≤ '9' then some (c.toNat - 48)
  else if 'a' ≤ c && c ≤ 'f' then some (c.toNat - 87)
  else if 'A' ≤ c && c ≤ 'F' then some (c.toNat - 55)
  else none

/-- What an escape letter stands for: a character, or how many digits follow. -/
def escapeLetter : Char → Option (Char ⊕ Nat)
  | '0' => some (.inl '\x00')
  | 'a' => some (.inl '\x07')
  | 'b' => some (.inl '\x08')
  | 't' | '\t' => some (.inl '\t')
  | 'n' => some (.inl '\n')
  | 'v' => some (.inl '\x0b')
  | 'f' => some (.inl '\x0c')
  | 'r' => some (.inl '\r')
  | 'e' => some (.inl '\x1b')
  | ' ' => some (.inl ' ')
  | '"' => some (.inl '"')
  | '/' => some (.inl '/')
  | '\\' => some (.inl '\\')
  | 'N' => some (.inl '\u0085')
  | '_' => some (.inl '\u00a0')
  | 'L' => some (.inl '\u2028')
  | 'P' => some (.inl '\u2029')
  | 'x' => some (.inr 2)
  | 'u' => some (.inr 4)
  | 'U' => some (.inr 8)
  | _ => none

/-- Reads an escape after its backslash. -/
def readEscape : Reading Char := do
  let c ← get
  match c.rest with
  | _ :: letter :: digits =>
    match escapeLetter letter with
    | none => Reading.fail .unknownEscape
    | some (.inl x) =>
      Reading.skip 2
      return x
    | some (.inr n) =>
      Reading.skip 2
      match (digits.take n).mapM hexValue with
      | none => Reading.fail .hexDigits
      | some ds =>
        if ds.length < n then Reading.fail .hexDigits
        let code : Nat := ds.foldl (fun v d => v * 16 + d) 0
        if (0xd800 ≤ code && code ≤ 0xdfff) || 0x10ffff < code then Reading.fail .characterCode
        Reading.skip n
        return Char.ofNat code
  | _ => Reading.fail .unknownEscape

/-- Reads the words of a quoted scalar up to a gap or the closing quote; tells also whether an
escaped line break ended the word. -/
def readQuotedWord (single : Bool) (fuel : Nat) (text : List Char) : Reading (List Char × Bool) := do
  match fuel with
  | 0 => return (text, false)
  | fuel + 1 =>
    let c ← get
    match c.rest with
    | [] => return (text, false)
    | b :: s =>
      if isGap b || isBreak b then return (text, false)
      else if single && b == '\'' then
        if s.head? == some '\'' then
          Reading.skip 2
          readQuotedWord single fuel (text ++ ['\''])
        else return (text, false)
      else if !single && b == '"' then return (text, false)
      else if !single && b == '\\' then
        if (s.head?.map isBreak).getD false then
          Reading.skip 1
          let _ ← Reading.newline
          return (text, true)
        else
          let x ← readEscape
          readQuotedWord single fuel (text ++ [x])
      else
        Reading.skip 1
        readQuotedWord single fuel (text ++ [b])

/-- Reads a quoted scalar after its opening quote, and the closing quote. -/
def readQuoted (single : Bool) (fuel : Nat) (text : List Char) : Reading (List Char) := do
  match fuel with
  | 0 => Reading.fail .endOfText
  | fuel + 1 =>
    let c ← get
    if c.atDocumentMark then Reading.fail .documentIndicator
    if c.rest.isEmpty then Reading.fail .endOfText
    let (text, escaped) ← readQuotedWord single c.rest.length text
    let c ← get
    if c.rest.head? == some (if single then '\'' else '"') then
      Reading.skip 1
      return text
    let g ← Gap.read none c.rest.length { broken := escaped }
    readQuoted single fuel (text ++ g.folded)

/-- Reads a quoted scalar. -/
def quotedScalar (single : Bool) : Reading TokenKind := do
  Reading.skip 1
  let text ← readQuoted single ((← get).rest.length + 1) []
  return .scalar (String.ofList text) .quoted

/-- What becomes of the line breaks at the end of a block scalar. -/
inductive Chomp where
  | strip
  | clip
  | keep
  deriving DecidableEq

/-- The indicators after the first one of a block scalar. -/
def readBlockHeader : Reading (Chomp × Nat) := do
  let chomp : Reading (Option Chomp) := do
    match (← get).rest with
    | '+' :: _ =>
      Reading.skip 1
      return some .keep
    | '-' :: _ =>
      Reading.skip 1
      return some .strip
    | _ => return none
  let digit : Reading (Option Nat) := do
    match (← get).rest with
    | '0' :: _ => Reading.fail .zeroIndentation
    | d :: _ =>
      if d.isDigit then
        Reading.skip 1
        return some (d.toNat - 48)
      else return none
    | [] => return none
  match ← chomp with
  | some c => return (c, (← digit).getD 0)
  | none =>
    match ← digit with
    | some n => return ((← chomp).getD .clip, n)
    | none => return (.clip, 0)

/-- The rest of a line that holds nothing but blanks and a comment. -/
def skipLineEnd : Reading Unit := do
  let _ ← Reading.chars isGap
  if (← get).rest.head? == some '#' then
    let _ ← Reading.chars fun _ => true
  if !endsLine (← get).rest then Reading.fail .noLineEnd
  if !(← get).rest.isEmpty then
    let _ ← Reading.newline

/-- Reads the indentation and the empty lines before a line of a block scalar. An indentation of
zero stands for one not known yet; returns the greatest column as well. -/
def readBlockBreaks (indent : Nat) (fuel : Nat) (deepest : Nat) (breaks : List Char) :
    Reading (List Char × Nat) := do
  match fuel with
  | 0 => return (breaks, deepest)
  | fuel + 1 =>
    let c ← get
    let spaces := (c.rest.takeWhile (· == ' ')).length
    let spaces := if indent = 0 then spaces else min spaces (indent - c.mark.column)
    Reading.skip spaces
    let c ← get
    let deepest := max deepest c.mark.column
    if (indent = 0 || c.mark.column < indent) && c.rest.head? == some '\t' then
      Reading.fail .tabIndentation
    match c.rest with
    | b :: _ =>
      if isBreak b then
        let b ← Reading.newline
        readBlockBreaks indent fuel deepest (breaks ++ [b])
      else return (breaks, deepest)
    | [] => return (breaks, deepest)

/-- Reads the lines of a block scalar at an indentation. `last` is the break that ended the line
before, `breaks` are those after it, and `blank` tells whether that line began with a blank. -/
def readBlockLines (folded : Bool) (indent : Nat) (fuel : Nat) (text : List Char)
    (last : Option Char) (breaks : List Char) (blank : Bool) :
    Reading (List Char × Option Char × List Char) := do
  match fuel with
  | 0 => return (text, last, breaks)
  | fuel + 1 =>
    let c ← get
    if c.mark.column ≠ indent || c.rest.isEmpty then return (text, last, breaks)
    let blankNow := (c.rest.head?.map isGap).getD false
    let between :=
      if folded && last == some '\n' && !blank && !blankNow then
        (if breaks.isEmpty then [' '] else [])
      else last.toList
    let line ← Reading.chars fun _ => true
    let text := text ++ between ++ breaks ++ line
    if (← get).rest.isEmpty then return (text, none, [])
    let b ← Reading.newline
    let (breaks, _) ← readBlockBreaks indent ((← get).rest.length + 1) 0 []
    readBlockLines folded indent fuel text (some b) breaks blankNow

/-- Reads a block scalar; `around` is the indentation of what it stands in, if any. -/
def blockScalar (folded : Bool) (around : Option Nat) : Reading TokenKind := do
  Reading.skip 1
  let (chomp, increment) ← readBlockHeader
  skipLineEnd
  let given := if increment = 0 then 0 else around.getD 0 + increment
  let (breaks, deepest) ← readBlockBreaks given ((← get).rest.length + 1) 0 []
  let least := match around with
    | some n => max (n + 1) 1
    | none => 1
  let indent := if given = 0 then max deepest least else given
  let (text, last, breaks) ←
    readBlockLines folded indent ((← get).rest.length + 1) [] none breaks false
  let ending := match chomp with
    | .strip => []
    | .clip => last.toList
    | .keep => last.toList ++ breaks
  return .scalar (String.ofList (text ++ ending)) (if folded then .folded else .literal)

end HostedRepo.Yaml
