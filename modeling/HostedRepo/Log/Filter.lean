import HostedRepo.Log.Event
import HostedRepo.Text.Blank
import HostedRepo.Text.Search
import HostedRepo.Text.Utf8

/-!
# Log filters

A filter is a list of directives `target[span{fields}]=level`. They are kept from the most
specific one on, one for each key, and the first that matches an event decides.
-/

namespace HostedRepo.Log

/-- The least severe level that passes; none when nothing passes. -/
abbrev Threshold := Option Level

def Threshold.word : Threshold → String
  | none => "off"
  | some l => l.word

structure Directive where
  target : Option String := none
  span : Option String := none
  fields : List (String × Option String) := []
  level : Threshold := some .trace
  deriving DecidableEq, Repr

namespace Directive

/-- A number given by its digits, a sign in front allowed. -/
def number? (s : List Char) : Option Nat :=
  let digits := match s with
    | '+' :: r => r
    | r => r
  if digits.isEmpty || !digits.all Char.isDigit then none
  else some (digits.foldl (fun n d => n * 10 + (d.toNat - 48)) 0)

/-- Reads a level by its number or its name in either case. -/
def level? (s : String) : Option Threshold :=
  match number? s.toList with
  | some n => [none, some .error, some .warn, some .info, some .debug, some .trace][n]?
  | none =>
    let levels : List Threshold :=
      [none, some .error, some .warn, some .info, some .debug, some .trace]
    levels.find? fun l => l.word.toList == s.toList.map Char.toLower

/-- A field value in its shortest spelling. -/
def valueText (s : String) : String :=
  match number? s.toList with
  | some n => toString n
  | none => s

/-- Reads a field with its value, if it has one. -/
def readField (s : List Char) : Option (String × Option String) :=
  if s.isEmpty then none
  else match Text.splitAt '=' s with
    | name :: value :: _ => some (String.ofList name, some (valueText (String.ofList value)))
    | name :: _ => some (String.ofList name, none)
    | [] => none

/-- How far the reading of a directive has come; the numbers say where the open part starts. -/
inductive Stage where
  | start
  | levelOrTarget (start : Nat)
  | span (start : Nat)
  | field (start : Nat)
  | fields
  | target
  | level (start : Nat)

/-- One character of a directive. Parts are cut out of `whole` by position. -/
def step (whole : List Char) (d : Directive) (stage : Stage) (i : Nat) (c : Char) :
    Option (Directive × Stage) :=
  let cut (start : Nat) : List Char := (whole.drop start).take (i - start)
  match stage with
  | .start =>
    if c == '[' then some (d, .span (i + 1))
    else if c == '-' || c == ':' || c == '_' || c.isAlphanum || '\x7f' < c then
      some (d, .levelOrTarget i)
    else none
  | .levelOrTarget s =>
    if c == '=' then some ({ d with target := some (String.ofList (cut s)) }, .level (i + 1))
    else if c == '[' then some ({ d with target := some (String.ofList (cut s)) }, .span (i + 1))
    else some (d, .levelOrTarget s)
  | .target => if c == '=' then some (d, .level (i + 1)) else none
  | .span s =>
    if c == ']' then some ({ d with span := some (String.ofList (cut s)) }, .target)
    else if c == '\x7b' then
      let name := String.ofList (cut s)
      some ({ d with span := if name.isEmpty then none else some name }, .field (i + 1))
    else some (d, .span s)
  | .field s =>
    if c == '\x7d' then
      (readField (cut s)).map fun f => ({ d with fields := d.fields ++ [f] }, .fields)
    else some (d, .field s)
  | .fields => if c == ']' then some (d, .target) else none
  | .level s => some (d, .level s)

/-- Reads the characters of a directive from a position on. -/
def steps (whole : List Char) (d : Directive) (stage : Stage) (i : Nat) :
    List Char → Option (Directive × Stage)
  | [] => some (d, stage)
  | c :: s => (step whole d stage i c).bind fun (d, stage) => steps whole d stage (i + 1) s

/-- Reads a directive. -/
def parse (text : String) : Option Directive :=
  let whole := text.toList
  let inner := ((whole.dropWhile Text.isBlank).reverse.dropWhile Text.isBlank).reverse
  match steps whole {} .start 0 inner with
  | some (d, .levelOrTarget s) =>
    let word := String.ofList (whole.drop s)
    match level? word with
    | some l => some { d with level := l }
    | none => some { d with target := some word }
  | some (d, .level s) =>
    let word := String.ofList (whole.drop s)
    if word.isEmpty then some d else (level? word).map fun l => { d with level := l }
  | some (d, .target) => some d
  | _ => none

/-- A directive about events by themselves. -/
def isStatic (d : Directive) : Bool := d.span.isNone && d.fields.all (·.2.isNone)

/-- A directive about spans or fields. -/
def isDynamic (d : Directive) : Bool := d.span.isSome || !d.fields.isEmpty

def fieldText (f : String × Option String) : String :=
  match f.2 with
  | none => f.1
  | some v => f.1 ++ "=" ++ v

/-- The text of a directive. -/
def text (d : Directive) : String :=
  let inner := d.span.getD "" ++
    (if d.fields.isEmpty then "" else "\x7b" ++ ",".intercalate (d.fields.map fieldText) ++ "\x7d")
  let about := d.target.getD "" ++ (if d.isDynamic then "[" ++ inner ++ "]" else "")
  about ++ (if d.target.isSome || d.isDynamic then "=" else "") ++ d.level.word

/-- The order of two optional texts; a missing one comes first. -/
def compareText : Option String → Option String → Ordering
  | none, none => .eq
  | none, some _ => .lt
  | some _, none => .gt
  | some a, some b => compare a b

def compareSize (a b : Option String) : Ordering :=
  let size (s : Option String) : Nat := match s with
    | none => 0
    | some s => (Text.Utf8.encode s).length + 1
  compare (size a) (size b)

def compareFields : List (String × Option String) → List (String × Option String) → Ordering
  | [], [] => .eq
  | [], _ :: _ => .lt
  | _ :: _, [] => .gt
  | a :: as, b :: bs =>
    ((compare a.1 b.1).then (compareText a.2 b.2)).then (compareFields as bs)

/-- How specific two directives are: by the length of the target, the presence of a span and the
number of fields, then by their texts. -/
def specificity (a b : Directive) : Ordering :=
  (compareSize a.target b.target).then <|
  (compare a.span.isSome.toNat b.span.isSome.toNat).then <|
  (compare a.fields.length b.fields.length).then <|
  (compareText a.target b.target).then <|
  (compareText a.span b.span).then (compareFields a.fields b.fields)

/-- Puts a directive in its place, the most specific first; one of equal key is replaced. -/
def insert (d : Directive) : List Directive → List Directive
  | [] => [d]
  | e :: es =>
    match specificity d e with
    | .gt => d :: e :: es
    | .eq => d :: es
    | .lt => e :: insert d es

end Directive

structure Filter where
  statics : List Directive
  dynamics : List Directive := []
  deriving DecidableEq, Repr

namespace Filter

/-- A filter of one level for everything. -/
def ofLevel (l : Level) : Filter := ⟨[{ level := some l }], []⟩

/-- The filter of a list of directives; an empty one passes errors. -/
def ofDirectives (ds : List Directive) : Filter :=
  let plain := ds.filter fun d => !d.isDynamic
  let dynamic := ds.filter Directive.isDynamic
  let statics := plain ++ dynamic.filter Directive.isStatic
  if statics.isEmpty && dynamic.isEmpty then ofLevel .error
  else ⟨statics.foldl (fun es d => Directive.insert d es) [],
    dynamic.foldl (fun es d => Directive.insert d es) []⟩

/-- Reads a filter; empty parts do not count, and a faulty one makes it all faulty. -/
def parse (text : String) : Option Filter :=
  let parts := (Text.splitAt ',' text.toList).filter (· ≠ [])
  (parts.mapM fun p => Directive.parse (String.ofList p)).map ofDirectives

/-- The text of a filter. -/
def text (f : Filter) : String :=
  ",".intercalate ((f.statics ++ f.dynamics).map Directive.text)

/-- Whether a directive is about an event. -/
def concerns (d : Directive) (e : Event) : Bool :=
  (match d.target with
    | none => true
    | some t => t.toList.isPrefixOf e.source.target.toList) &&
    d.fields.all fun f => f.1 == "message" || e.fields.any (·.1 == f.1)

/-- Whether an event passes the filter. -/
def passes (f : Filter) (e : Event) : Bool :=
  match f.statics.find? (concerns · e) with
  | none => false
  | some d => match d.level with
    | none => false
    | some l => e.level.rank ≤ l.rank

/-- The filter without any settings. -/
def standard : Filter := ofLevel .warn

/-- The filter that shows every request. -/
def verbose : Filter :=
  ofDirectives [{ target := some "ghrepo", level := some .debug },
    { target := some "ghrepo_github", level := some .debug }]

/-- The filter of a run: `verbose` overrides the given text, and a faulty text counts as none. -/
def select (isVerbose : Bool) (given : Option String) : Filter :=
  if isVerbose then verbose else (given.bind parse).getD standard

end Filter
end HostedRepo.Log
