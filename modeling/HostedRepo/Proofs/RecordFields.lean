import HostedRepo.Json.Shape
import HostedRepo.Proofs.StateTriples

/-!
# The fields of records

What a record that is read out of a JSON text has in one of its fields. An object gives a field the
member of its name wherever it stands, an array the item at the place of the field, and a field that
is given nothing has to have a value of its own.
-/

namespace HostedRepo.Json

/-- The values of the members of one name. -/
def named (name : String) (members : List (Leaf String × Node)) : List Node :=
  (members.filter (·.1.kept.toOption = some name)).map (·.2)

/-- What a tree gives for a field: the members of its name, or the item at its index. -/
def Node.given (name : String) (index : Nat) : Node → List Node
  | .object members _ => named name members
  | .array items _ => items[index]?.toList
  | _ => []

lemma Node.wrongType_ne_ok {α : Type} (n : Node) (expected : String) (a : α) :
    n.wrongType expected ≠ .ok a := by
  unfold Node.wrongType
  cases n.describe with
  | error e => exact nofun
  | ok found => exact nofun

lemma finish_eq_ok {stop : Option Fault} (h : finish stop = .ok ()) : stop = none := by
  cases stop with
  | none => rfl
  | some f => cases h

lemma Shape.isSome_of_option {s : Shape} {n : Node} {v : Option s.Val}
    (h : s.option.decode n = .ok v) : v.isSome = true ↔ n ≠ .null := by
  cases n with
  | null =>
    cases h
    simp
  | _ =>
    obtain ⟨a, -, rfl⟩ := map_eq_ok h
    simp

lemma Shape.forall₂_of_list {s : Shape} {n : Node} {vs : List s.Val}
    (h : s.list.decode n = .ok vs) :
    ∃ items, n = .array items none ∧ List.Forall₂ (fun x v => s.decode x = .ok v) items vs := by
  cases n with
  | array items stop =>
    obtain ⟨vs', hvs, h⟩ := bind_eq_ok h
    obtain ⟨_, hstop, h⟩ := bind_eq_ok h
    cases h
    obtain rfl := finish_eq_ok hstop
    exact ⟨items, rfl, forall₂_of_mapM hvs⟩
  | _ => exact absurd h (Node.wrongType_ne_ok _ _ _)

/-- The fields of a record. -/
def Shape.fields : Shape → Fields
  | .record _ fields => fields
  | _ => .nil

lemma Shape.absent?_defaulted (s : Shape) : s.absent? true = some s.default := by
  cases s <;> rfl

namespace Fields

variable {name : String} {s : Shape} {defaulted : Bool}

/-- Reads a member of an object. -/
def readMember (fs : Fields) (slots : fs.Slots) (m : Leaf String × Node) :
    Except DecodeError fs.Slots := do
  fs.put slots (← m.1.get) m.2

lemma readMember_kept {fs : Fields} {key : Leaf String} (hkey : key.kept = .ok name) (n : Node)
    (slots : fs.Slots) : fs.readMember slots (key, n) = fs.put slots name n := by
  unfold readMember Leaf.get
  rw [hkey]
  rfl

lemma readMember_eq_ok {fs : Fields} {slots slots' : fs.Slots} {m : Leaf String × Node}
    (h : fs.readMember slots m = .ok slots') :
    ∃ key, m.1.kept = .ok key ∧ fs.put slots key m.2 = .ok slots' := by
  obtain ⟨key, hkey, hput⟩ := bind_eq_ok h
  exact ⟨key, mapError_eq_ok hkey, hput⟩

lemma decode_object {fs : Fields} {title : String} {members : List (Leaf String × Node)}
    {stop : Option Fault} {row : fs.Row} :
    (Shape.record title fs).decode (.object members stop) = .ok row ↔
      ∃ slots, members.foldlM fs.readMember fs.empty = .ok slots ∧ stop = none ∧
        fs.complete slots = .ok row := by
  constructor
  · intro h
    obtain ⟨slots, hslots, h⟩ := bind_eq_ok h
    obtain ⟨_, hstop, h⟩ := bind_eq_ok h
    exact ⟨slots, hslots, finish_eq_ok hstop, h⟩
  · rintro ⟨slots, hslots, rfl, hrow⟩
    change (members.foldlM fs.readMember fs.empty >>= fun slots => finish none >>= fun _ =>
      fs.complete slots) = _
    rw [hslots]
    exact hrow

/-! ### One field -/

section

variable {rest : Fields} {slot : Option s.Val} {slots : rest.Slots} {row : rest.Row} {v : s.Val}

lemma put_cons_eq_ok {slots' : (cons name s defaulted rest).Slots} {key : String} {n : Node} :
    (cons name s defaulted rest).put (slot, slots) key n = .ok slots' ↔
      (key = name ∧ slot = none ∧ ∃ v, s.decode n = .ok v ∧ slots' = (some v, slots)) ∨
        (key ≠ name ∧ ∃ left, rest.put slots key n = .ok left ∧ slots' = (slot, left)) := by
  change (if key = name then _ else _) = _ ↔ _
  constructor
  · intro h
    split at h
    · next hkey =>
      cases slot with
      | some v => cases h
      | none =>
        obtain ⟨v, hv, rfl⟩ := map_eq_ok h
        exact .inl ⟨hkey, rfl, v, hv, rfl⟩
    · next hkey =>
      obtain ⟨left, hleft, rfl⟩ := map_eq_ok h
      exact .inr ⟨hkey, left, hleft, rfl⟩
  · rintro (⟨hkey, rfl, v, hv, rfl⟩ | ⟨hkey, left, hleft, rfl⟩)
    · rw [if_pos hkey, hv]
      rfl
    · rw [if_neg hkey, hleft]
      rfl

lemma complete_cons_eq_ok
    (h : (cons name s defaulted rest).complete (slot, slots) = .ok (v, row)) :
    slot.or (s.absent? defaulted) = some v ∧ rest.complete slots = .ok row := by
  rw [complete] at h
  split at h
  · cases h
  · next hslot =>
    obtain ⟨row, hrow, heq⟩ := map_eq_ok h
    cases heq
    exact ⟨hslot, hrow⟩

lemma decodeRow_cons_eq_ok {title : String} {i : Nat} {items left : List Node}
    {stop : Option Fault}
    (h : (cons name s defaulted rest).decodeRow title i items stop = .ok ((v, row), left)) :
    (∃ item more, items = item :: more ∧ s.decode item = .ok v ∧
        rest.decodeRow title (i + 1) more stop = .ok (row, left)) ∨
      (items = [] ∧ s.absent? defaulted = some v ∧
        rest.decodeRow title (i + 1) [] stop = .ok (row, left)) := by
  cases items with
  | cons item more =>
    obtain ⟨v, hv, h⟩ := bind_eq_ok h
    obtain ⟨⟨row, left⟩, hrow, h⟩ := bind_eq_ok h
    cases h
    exact .inl ⟨item, more, rfl, hv, hrow⟩
  | nil =>
    obtain ⟨-, -, h⟩ := bind_eq_ok h
    split at h
    · next hdefaulted =>
      obtain ⟨⟨row, left⟩, hrow, h⟩ := bind_eq_ok h
      cases h
      subst hdefaulted
      exact .inr ⟨rfl, s.absent?_defaulted, hrow⟩
    · cases h

end

/-! ### Places -/

/-- Where a field stands: it is the first one of its name. -/
inductive Place (name : String) (s : Shape) (defaulted : Bool) : Fields → Type
  | first (rest : Fields) : Place name s defaulted (.cons name s defaulted rest)
  | after {other : String} {t : Shape} {d : Bool} {rest : Fields} (hne : other ≠ name)
    (p : Place name s defaulted rest) : Place name s defaulted (.cons other t d rest)

namespace Place

def index : {fs : Fields} → Place name s defaulted fs → Nat
  | _, .first _ => 0
  | _, .after _ p => p.index + 1

/-- What has been read for the field. -/
def slot : {fs : Fields} → Place name s defaulted fs → fs.Slots → Option s.Val
  | _, .first _, slots => slots.1
  | _, .after _ p, slots => p.slot slots.2

def value : {fs : Fields} → Place name s defaulted fs → fs.Row → s.Val
  | _, .first _, row => row.1
  | _, .after _ p, row => p.value row.2

section

variable {fs : Fields} (p : Place name s defaulted fs)

lemma slot_empty : p.slot fs.empty = none := by
  induction p with
  | first rest => rfl
  | after hne p ih => exact ih

lemma put_cases {slots slots' : fs.Slots} {key : String} {n : Node}
    (h : fs.put slots key n = .ok slots') :
    (key = name ∧ p.slot slots = none ∧ ∃ v, s.decode n = .ok v ∧ p.slot slots' = some v) ∨
      (key ≠ name ∧ p.slot slots' = p.slot slots) := by
  induction p with
  | first rest =>
    obtain ⟨slot, slots⟩ := slots
    obtain ⟨hkey, rfl, v, hv, rfl⟩ | ⟨hkey, left, -, rfl⟩ := put_cons_eq_ok.mp h
    · exact .inl ⟨hkey, rfl, v, hv, rfl⟩
    · exact .inr ⟨hkey, rfl⟩
  | after hne p ih =>
    obtain ⟨slot, slots⟩ := slots
    obtain ⟨hkey, rfl, v, -, rfl⟩ | ⟨-, left, hleft, rfl⟩ := put_cons_eq_ok.mp h
    · exact .inr ⟨by rwa [hkey], rfl⟩
    · exact ih hleft

/-- Of the members of an object at most one has the name of the field, and it is what is read. -/
lemma foldlM_readMember {members : List (Leaf String × Node)} {slots slots' : fs.Slots}
    (h : members.foldlM fs.readMember slots = .ok slots') :
    (p.slot slots = none ∧
      ∃ n v, named name members = [n] ∧ s.decode n = .ok v ∧ p.slot slots' = some v) ∨
    (named name members = [] ∧ p.slot slots' = p.slot slots) := by
  induction members generalizing slots with
  | nil =>
    cases h
    exact .inr ⟨rfl, rfl⟩
  | cons m members ih =>
    rw [List.foldlM_cons] at h
    obtain ⟨next, hnext, hrest⟩ := bind_eq_ok h
    obtain ⟨key, hkey, hput⟩ := readMember_eq_ok hnext
    have hkept : m.1.kept.toOption = some key := toOption_eq_some_iff.mpr hkey
    obtain ⟨hname, hempty, v, hv, hslot⟩ | ⟨hname, hslot⟩ := p.put_cases hput
    · have hfilter : named name (m :: members) = m.2 :: named name members := by
        rw [named, List.filter_cons, if_pos (by simp [hkept, hname])]
        rfl
      obtain ⟨hnone, -⟩ | ⟨hnamed, hsame⟩ := ih hrest
      · cases hslot.symm.trans hnone
      · exact .inl ⟨hempty, m.2, v, by rw [hfilter, hnamed], hv, hsame.trans hslot⟩
    · have hfilter : named name (m :: members) = named name members := by
        rw [named, List.filter_cons, if_neg (by simp [hkept, hname])]
        rfl
      rw [hfilter, ← hslot]
      exact ih hrest

lemma complete_eq_ok {slots : fs.Slots} {row : fs.Row} (h : fs.complete slots = .ok row) :
    (p.slot slots).or (s.absent? defaulted) = some (p.value row) := by
  induction p with
  | first rest => exact (complete_cons_eq_ok h).1
  | after hne p ih => exact ih (complete_cons_eq_ok h).2

lemma decodeRow_eq_ok {title : String} {i : Nat} {items left : List Node} {stop : Option Fault}
    {row : fs.Row} (h : fs.decodeRow title i items stop = .ok (row, left)) :
    (∃ n, items[p.index]?.toList = [n] ∧ s.decode n = .ok (p.value row)) ∨
      (items[p.index]?.toList = [] ∧ s.absent? defaulted = some (p.value row)) := by
  induction p generalizing i items with
  | first rest =>
    obtain ⟨item, more, rfl, hv, -⟩ | ⟨rfl, hv, -⟩ := decodeRow_cons_eq_ok h
    · exact .inl ⟨item, rfl, hv⟩
    · exact .inr ⟨rfl, hv⟩
  | after hne p ih =>
    obtain ⟨item, more, rfl, -, hrow⟩ | ⟨rfl, -, hrow⟩ := decodeRow_cons_eq_ok h
    · exact ih hrow
    · -- Behind the end of an array no field is given anything.
      exact ih hrow

/-- The value of a field is read out of the one thing that the tree gives for it, or it stands in
for nothing. -/
theorem decode_given {title : String} {n : Node} {row : fs.Row}
    (h : (Shape.record title fs).decode n = .ok row) :
    (∃ x, n.given name p.index = [x] ∧ s.decode x = .ok (p.value row)) ∨
      (n.given name p.index = [] ∧ s.absent? defaulted = some (p.value row)) := by
  cases n with
  | object members stop =>
    obtain ⟨slots, hslots, -, h⟩ := decode_object.mp h
    have hvalue := p.complete_eq_ok h
    obtain ⟨-, x, v, hgiven, hx, hslot⟩ | ⟨hgiven, hslot⟩ := p.foldlM_readMember hslots
    · rw [hslot] at hvalue
      cases hvalue
      exact .inl ⟨x, hgiven, hx⟩
    · rw [hslot, p.slot_empty] at hvalue
      exact .inr ⟨hgiven, hvalue⟩
  | array items stop =>
    obtain ⟨⟨row', left⟩, hrow, h⟩ := bind_eq_ok h
    dsimp only at h
    split at h
    · obtain ⟨-, -, h⟩ := bind_eq_ok h
      cases h
      exact p.decodeRow_eq_ok hrow
    · cases h
  | _ => exact absurd h (Node.wrongType_ne_ok _ _ _)

end

end Place
end Fields
end HostedRepo.Json
