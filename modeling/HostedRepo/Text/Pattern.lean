import HostedRepo.Text.Search

/-!
# Patterns

A pattern is a row of fixed texts and of groups, a group being one or more characters of a class.
A search takes the leftmost place at which the pattern stands. There the groups take as many
characters as they can, an earlier group before a later one.
-/

namespace HostedRepo.Text

/-- The characters that a group may take: all but one, or all within a line. -/
inductive CharClass where
  | except (c : Char)
  | inLine
  deriving DecidableEq, Repr

namespace CharClass

def admits : CharClass → Char → Bool
  | .except c, d => d != c
  | .inLine, d => d != '\n'

def text : CharClass → String
  | .except c => "[^" ++ c.toString ++ "]"
  | .inLine => "."

end CharClass

inductive PatternItem where
  | plain (s : String)
  | group (k : CharClass)
  deriving DecidableEq, Repr

def PatternItem.text : PatternItem → String
  | .plain s => s
  | .group k => "(" ++ k.text ++ "+)"

abbrev Pattern := List PatternItem

namespace Pattern

/-- How a pattern is written. -/
def text (p : Pattern) : String := String.join (p.map PatternItem.text)

/-- Takes one or more characters of a class: as many as leave a rest that can be read. -/
def takeGroup {α : Type} (k : CharClass) (read : List Char → Option α) :
    List Char → Option (List Char × α)
  | [] => none
  | c :: s =>
    if k.admits c then
      ((takeGroup k read s).map fun (taken, a) => (c :: taken, a)).or
        ((read s).map fun a => ([c], a))
    else none

/-- The groups of a pattern that stands at the front of a text. -/
def front? : Pattern → List Char → Option (List (List Char))
  | [], _ => some []
  | .plain t :: items, s => (stripStart t.toList s).bind (front? items)
  | .group k :: items, s =>
    (takeGroup k (front? items) s).map fun (taken, groups) => taken :: groups

/-- The groups of a pattern at the leftmost place at which it stands. -/
def search? (p : Pattern) : List Char → Option (List (List Char))
  | [] => front? p []
  | c :: s => (front? p (c :: s)).or (search? p s)

end Pattern

end HostedRepo.Text
