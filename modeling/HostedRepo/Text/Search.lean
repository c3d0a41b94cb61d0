/-!
# Parts of a text

Occurrences of one list of characters in another, cutting at a separator and at the last
occurrence of a character, and stripping repeated beginnings.
-/

namespace HostedRepo.Text

/-- Whether `part` occurs in a list of characters. -/
def occurs (part : List Char) : List Char → Bool
  | [] => part.isEmpty
  | c :: s => part.isPrefixOf (c :: s) || occurs part s

/-- The parts between the occurrences of a separator; there is one more than occurrences. -/
def splitAt (sep : Char) : List Char → List (List Char)
  | [] => [[]]
  | c :: s =>
    if c = sep then [] :: splitAt sep s
    else match splitAt sep s with
      | [] => [[c]]
      | part :: parts => (c :: part) :: parts

/-- The parts with the separator between them. -/
def joinWith (sep : Char) : List (List Char) → List Char
  | [] => []
  | [part] => part
  | part :: parts => part ++ sep :: joinWith sep parts

/-- What stands before the first occurrence of a character, and what stands after it. -/
def splitOnce (sep : Char) : List Char → Option (List Char × List Char)
  | [] => none
  | c :: s => if c = sep then some ([], s) else (splitOnce sep s).map fun (a, b) => (c :: a, b)

/-- What stands before the last occurrence of a character; all of it when there is none. -/
def beforeLast (sep : Char) (s : List Char) : List Char :=
  if sep ∈ s then ((s.reverse.dropWhile (· ≠ sep)).drop 1).reverse else s

/-- The rest after a beginning, if the list has it. -/
def stripStart : List Char → List Char → Option (List Char)
  | [], s => some s
  | _ :: _, [] => none
  | p :: ps, c :: s => if p = c then stripStart ps s else none

theorem splitAt_ne_nil (sep : Char) (s : List Char) : splitAt sep s ≠ [] := by
  cases s with
  | nil => simp [splitAt]
  | cons c s =>
    unfold splitAt
    split
    · simp
    · split <;> simp

theorem joinWith_splitAt (sep : Char) (s : List Char) : joinWith sep (splitAt sep s) = s := by
  induction s with
  | nil => rfl
  | cons c s ih =>
    unfold splitAt
    have hne := splitAt_ne_nil sep s
    split
    · next h =>
      subst h
      cases hs : splitAt c s with
      | nil => exact absurd hs hne
      | cons p ps => simp [joinWith, ← hs, ih]
    · cases hs : splitAt sep s with
      | nil => exact absurd hs hne
      | cons p ps =>
        rw [hs] at ih
        cases ps with
        | nil => simpa [joinWith] using ih
        | cons q qs => simpa [joinWith] using ih

theorem stripStart_eq_some_iff {p s r : List Char} : stripStart p s = some r ↔ s = p ++ r := by
  induction p generalizing s with
  | nil => simp [stripStart]
  | cons a p ih =>
    cases s with
    | nil => simp [stripStart]
    | cons b s =>
      simp only [stripStart, List.cons_append, List.cons.injEq]
      split
      · next h => simp [h, ih]
      · next h => simp [Ne.symm h]

end HostedRepo.Text
