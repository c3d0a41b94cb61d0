import HostedRepo.Text.Utf8

/-!
# File maps

Contents by path. The paths stand in ascending order and each stands once.
-/

namespace HostedRepo

structure FileMap where
  entries : List (String × Bytes)
  sorted : entries.Pairwise fun a b => a.1 < b.1

namespace FileMap

def empty : FileMap := ⟨[], .nil⟩

/-- Puts a content at a path into a list in order, in place of the one there. -/
def put (path : String) (content : Bytes) : List (String × Bytes) → List (String × Bytes)
  | [] => [(path, content)]
  | (p, c) :: rest =>
    if path < p then (path, content) :: (p, c) :: rest
    else if path = p then (path, content) :: rest
    else (p, c) :: put path content rest

theorem mem_put {path : String} {content : Bytes} {e : String × Bytes}
    {es : List (String × Bytes)} (h : e ∈ put path content es) : e = (path, content) ∨ e ∈ es := by
  induction es with
  | nil => simpa [put] using h
  | cons d es ih =>
    obtain ⟨p, c⟩ := d
    simp only [put] at h
    split at h
    · simpa using h
    · split at h
      · rcases List.mem_cons.1 h with h | h <;> simp [h]
      · rcases List.mem_cons.1 h with h | h
        · simp [h]
        · rcases ih h with h | h <;> simp [h]

theorem put_sorted (path : String) (content : Bytes) {es : List (String × Bytes)}
    (h : es.Pairwise fun a b => a.1 < b.1) :
    (put path content es).Pairwise fun a b => a.1 < b.1 := by
  induction es with
  | nil => simp [put]
  | cons d es ih =>
    obtain ⟨p, c⟩ := d
    obtain ⟨hd, ht⟩ := List.pairwise_cons.1 h
    simp only [put]
    split
    · next hlt =>
      refine List.pairwise_cons.2 ⟨fun e he => ?_, h⟩
      rcases List.mem_cons.1 he with rfl | he
      · exact hlt
      · exact String.lt_trans hlt (hd e he)
    · next hlt =>
      split
      · next heq =>
        subst heq
        exact List.pairwise_cons.2 ⟨hd, ht⟩
      · next hne =>
        refine List.pairwise_cons.2 ⟨fun e he => ?_, ih ht⟩
        rcases mem_put he with rfl | he
        · exact String.not_le.1 fun hle => hne (String.le_antisymm hle (String.not_lt.1 hlt))
        · exact hd e he

/-- The map with a content at a path. -/
def insert (m : FileMap) (path : String) (content : Bytes) : FileMap :=
  ⟨put path content m.entries, put_sorted path content m.sorted⟩

/-- The map of a list of entries; of several with one path the last counts. -/
def ofList (es : List (String × Bytes)) : FileMap :=
  es.foldl (fun m e => m.insert e.1 e.2) empty

def paths (m : FileMap) : List String := m.entries.map (·.1)

def contains (m : FileMap) (path : String) : Bool := m.paths.contains path

/-- The content at a path. -/
def get? (m : FileMap) (path : String) : Option Bytes :=
  (m.entries.find? (·.1 = path)).map (·.2)

def size (m : FileMap) : Nat := m.entries.length

end FileMap
end HostedRepo
