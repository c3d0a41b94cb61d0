import HostedRepo.Proofs.JsonGrammar

/-!
# Texts of the grammar are read

A value is read up to what stands behind it, and so are the items of an array and the members of
an object, with fuel for the length of the text. So reading a text gives its tree and leaves nothing,
and no fault stands in the tree.
-/

namespace HostedRepo.Json

open Node

/-! ### One step -/

namespace Node

variable {fuel : Nat} {bs rest : Bytes}

lemma read_skipSpace (fuel : Nat) (bs : Bytes) : read fuel (skipSpace bs) = read fuel bs := by
  cases fuel with
  | zero => rw [read.eq_def, read.eq_def]
  | succ fuel =>
    rw [read.eq_def, read.eq_def (fuel + 1) bs]
    dsimp only
    rw [skipSpace_skipSpace]

lemma readItems_skipSpace (fuel : Nat) (bs : Bytes) :
    readItems fuel (skipSpace bs) = readItems fuel bs := by
  cases fuel with
  | zero => rw [readItems.eq_def, readItems.eq_def]
  | succ fuel =>
    rw [readItems.eq_def, readItems.eq_def (fuel + 1) bs]
    dsimp only
    rw [read_skipSpace]

lemma readMembers_skipSpace (fuel : Nat) (bs : Bytes) :
    readMembers fuel (skipSpace bs) = readMembers fuel bs := by
  cases fuel with
  | zero => rw [readMembers.eq_def, readMembers.eq_def]
  | succ fuel =>
    rw [readMembers.eq_def, readMembers.eq_def (fuel + 1) bs]
    dsimp only
    rw [skipSpace_skipSpace]

lemma read_blank {a : Bytes} (ha : Blank a) (fuel : Nat) (bs : Bytes) :
    read fuel (a ++ bs) = read fuel bs := by
  rw [← read_skipSpace, skipSpace_blank ha, read_skipSpace]

lemma readMembers_blank {a : Bytes} (ha : Blank a) (fuel : Nat) (bs : Bytes) :
    readMembers fuel (a ++ bs) = readMembers fuel bs := by
  rw [← readMembers_skipSpace, skipSpace_blank ha, readMembers_skipSpace]

lemma isSpace_of_number {b : UInt8} (h : (b == 45 || isDigit b) = true) : isSpace b = false := by
  by_contra hspace
  rw [Bool.not_eq_false] at hspace
  simp only [isSpace, Bool.or_eq_true, beq_iff_eq] at hspace
  obtain ((rfl | rfl) | rfl) | rfl := hspace <;> cases h

lemma read_number {b : UInt8} {leaf : Leaf Number} (hb : (b == 45 || isDigit b) = true)
    (h : readNumber (b :: bs) = (leaf, some rest)) :
    read (fuel + 1) (b :: bs) = (.number leaf, some rest) := by
  rw [read.eq_def]
  dsimp only
  rw [skipSpace_cons (isSpace_of_number hb)]
  split
  · next heq => cases heq
  iterate 6
    · next heq =>
      cases heq
      cases hb
  · next heq =>
    cases heq
    rw [if_pos hb, h]

lemma read_array {items : List Node} {stop : Option Fault}
    (hhead : ∃ b more, skipSpace bs = b :: more ∧ b ≠ 93)
    (hitems : readItems fuel bs = (items, stop, some rest)) :
    read (fuel + 1) (91 :: bs) = (.array items stop, some rest) := by
  obtain ⟨b, more, hbs, hb⟩ := hhead
  rw [← readItems_skipSpace, hbs] at hitems
  rw [read.eq_def]
  simp only [skipSpace_cons (b := 91) rfl, hbs]
  split
  · next heq => cases heq
  · next heq =>
    cases heq
    exact absurd rfl hb
  · rw [hitems]

lemma read_object {members : List (Leaf String × Node)} {stop : Option Fault}
    (hhead : ∃ more, skipSpace bs = 34 :: more)
    (hmembers : readMembers fuel bs = (members, stop, some rest)) :
    read (fuel + 1) (123 :: bs) = (.object members stop, some rest) := by
  obtain ⟨more, hbs⟩ := hhead
  rw [← readMembers_skipSpace, hbs] at hmembers
  rw [read.eq_def]
  simp only [skipSpace_cons (b := 123) rfl, hbs]
  split
  · next heq => cases heq
  · next heq => cases heq
  · rw [hmembers]

section

variable {n : Node} {more : Bytes}

lemma readItems_last (hitem : read fuel bs = (n, some more)) (hmore : skipSpace more = 93 :: rest) :
    readItems (fuel + 1) bs = ([n], none, some rest) := by
  rw [readItems.eq_def]
  simp only [hitem, hmore]

lemma readItems_more {ns : List Node} {stop : Option Fault} {left : Option Bytes}
    (hitem : read fuel bs = (n, some more)) (hmore : skipSpace more = 44 :: rest)
    (hitems : readItems fuel rest = (ns, stop, left)) :
    readItems (fuel + 1) bs = (n :: ns, stop, left) := by
  rw [readItems.eq_def]
  simp only [hitem, hmore, hitems]

variable {key : Leaf String} {colon value : Bytes}

lemma readMembers_last (hkey : readString bs = (key, some colon))
    (hcolon : skipSpace colon = 58 :: value) (hvalue : read fuel value = (n, some more))
    (hmore : skipSpace more = 125 :: rest) :
    readMembers (fuel + 1) (34 :: bs) = ([(key, n)], none, some rest) := by
  rw [readMembers.eq_def]
  simp only [skipSpace_cons (b := 34) rfl, hkey, Option.map_some, hcolon, hvalue, hmore]

lemma readMembers_more {ms : List (Leaf String × Node)} {stop : Option Fault} {left : Option Bytes}
    (hkey : readString bs = (key, some colon)) (hcolon : skipSpace colon = 58 :: value)
    (hvalue : read fuel value = (n, some more)) (hmore : skipSpace more = 44 :: rest)
    (hmembers : readMembers fuel rest = (ms, stop, left)) :
    readMembers (fuel + 1) (34 :: bs) = ((key, n) :: ms, stop, left) := by
  rw [readMembers.eq_def]
  simp only [skipSpace_cons (b := 34) rfl, hkey, Option.map_some, hcolon, hvalue, hmore, hmembers]

end

end Node

/-! ### Reading -/

/-- Bytes are read as the part up to what stands behind them: the end of a value, the bracket or the
brace. The first byte tells a value from a blank, and what is not empty from what is. -/
def Part.ReadsAs : Part → Bytes → Prop
  | .value n, w =>
    (∃ b bs, w = b :: bs ∧ isSpace b = false ∧ b ≠ 93) ∧
      ∀ fuel rest, w.length ≤ fuel → Ends rest → read fuel (w ++ rest) = (n, some rest)
  | .items ns, w =>
    (∃ b bs, skipSpace w = b :: bs ∧ b ≠ 93) ∧ ∀ fuel rest, w.length < fuel →
      readItems fuel (w ++ 93 :: rest) = (ns, none, some rest)
  | .members ms, w =>
    (∃ bs, skipSpace w = 34 :: bs) ∧ ∀ fuel rest, w.length < fuel →
      readMembers fuel (w ++ 125 :: rest) = (ms, none, some rest)

lemma skipSpace_append {w bs : Bytes} {b : UInt8} (h : skipSpace w = b :: bs) (rest : Bytes) :
    skipSpace (w ++ rest) = b :: (bs ++ rest) := by
  have hne : (w.dropWhile isSpace).isEmpty = false := by
    rw [show w.dropWhile isSpace = b :: bs from h]
    rfl
  rw [skipSpace, List.dropWhile_append, hne, show w.dropWhile isSpace = b :: bs from h]
  rfl

namespace Part.ReadsAs

variable {n : Node} {ns : List Node} {ms : List (Leaf String × Node)} {ps : List Piece}
  {a b c d k w more : Bytes}

lemma value {e : UInt8} (hspace : isSpace e = false) (hend : e ≠ 93)
    (h : ∀ fuel rest, w.length ≤ fuel → Ends rest →
      read (fuel + 1) (e :: (w ++ rest)) = (n, some rest)) : ReadsAs (.value n) (e :: w) := by
  refine ⟨⟨e, w, rfl, hspace, hend⟩, fun fuel rest hfuel hrest => ?_⟩
  obtain ⟨fuel, rfl⟩ := Nat.exists_eq_add_one_of_ne_zero (Nat.ne_zero_of_lt hfuel)
  exact h fuel rest (Nat.le_of_succ_le_succ hfuel) hrest

lemma number (h : NumberText w) : ReadsAs (.value (.number (readNumber w).1)) w := by
  obtain ⟨e, w, rfl, he⟩ := h.exists_head
  have hend : e ≠ 93 := by
    rintro rfl
    cases he
  exact value (isSpace_of_number he) hend fun fuel rest _ hrest => read_number he (h.read hrest)

lemma string (h : StringText ps w) :
    ReadsAs (.value (.string (stringLeaf ps))) (34 :: (w ++ [34])) := by
  apply value rfl (by decide)
  intro fuel rest _ _
  rw [List.append_assoc, List.singleton_append, read.eq_def]
  simp only [skipSpace_cons (b := 34) rfl, readString_append h]

lemma emptyArray (ha : Blank a) : ReadsAs (.value (.array [] none)) (91 :: (a ++ [93])) := by
  apply value rfl (by decide)
  intro fuel rest _ _
  rw [List.append_assoc, List.singleton_append, read.eq_def]
  simp only [skipSpace_cons (b := 91) rfl, skipSpace_blank ha, skipSpace_cons (b := 93) rfl]

lemma emptyObject (ha : Blank a) : ReadsAs (.value (.object [] none)) (123 :: (a ++ [125])) := by
  apply value rfl (by decide)
  intro fuel rest _ _
  rw [List.append_assoc, List.singleton_append, read.eq_def]
  simp only [skipSpace_cons (b := 123) rfl, skipSpace_blank ha, skipSpace_cons (b := 125) rfl]

lemma array (h : ReadsAs (.items ns) w) :
    ReadsAs (.value (.array ns none)) (91 :: (w ++ [93])) := by
  obtain ⟨⟨b, bs, hw, hb⟩, hread⟩ := h
  apply value rfl (by decide)
  intro fuel rest hfuel _
  rw [List.length_append, List.length_singleton] at hfuel
  rw [List.append_assoc, List.singleton_append]
  exact read_array ⟨b, _, skipSpace_append hw _, hb⟩ (hread fuel rest hfuel)

lemma object (h : ReadsAs (.members ms) w) :
    ReadsAs (.value (.object ms none)) (123 :: (w ++ [125])) := by
  obtain ⟨⟨bs, hw⟩, hread⟩ := h
  apply value rfl (by decide)
  intro fuel rest hfuel _
  rw [List.length_append, List.length_singleton] at hfuel
  rw [List.append_assoc, List.singleton_append]
  exact read_object ⟨_, skipSpace_append hw _⟩ (hread fuel rest hfuel)

lemma read_between (h : ReadsAs (.value n) w) (ha : Blank a) (hb : Blank b) (fuel : Nat)
    (hfuel : w.length ≤ fuel) {e : UInt8} (he : e = 44 ∨ e = 93 ∨ e = 125) (rest : Bytes) :
    read fuel (a ++ (w ++ (b ++ e :: rest))) = (n, some (b ++ e :: rest)) ∧
      skipSpace (b ++ e :: rest) = e :: rest := by
  have hend : Ends (e :: rest) := by
    intro e' he'
    cases he'
    exact .inr he
  have hspace : isSpace e = false := by
    obtain rfl | rfl | rfl := he <;> rfl
  constructor
  · rw [read_blank ha]
    exact h.2 fuel _ hfuel (ends_blank hb hend)
  · rw [skipSpace_blank hb, skipSpace_cons hspace]

lemma exists_head (h : ReadsAs (.value n) w) (ha : Blank a) (rest : Bytes) :
    ∃ b bs, skipSpace (a ++ (w ++ rest)) = b :: bs ∧ b ≠ 93 := by
  obtain ⟨⟨b, bs, rfl, hspace, hb⟩, -⟩ := h
  exact ⟨b, _, by rw [skipSpace_blank ha, List.cons_append, skipSpace_cons hspace], hb⟩

lemma item (ha : Blank a) (h : ReadsAs (.value n) w) (hb : Blank b) :
    ReadsAs (.items [n]) (a ++ (w ++ b)) := by
  refine ⟨h.exists_head ha b, fun fuel rest hfuel => ?_⟩
  simp only [List.length_append] at hfuel
  obtain ⟨fuel, rfl⟩ := Nat.exists_eq_add_one_of_ne_zero (Nat.ne_zero_of_lt hfuel)
  obtain ⟨hitem, hmore⟩ := h.read_between ha hb fuel (by omega) (.inr (.inl rfl)) rest
  rw [List.append_assoc, List.append_assoc]
  exact readItems_last hitem hmore

lemma items (ha : Blank a) (h : ReadsAs (.value n) w) (hb : Blank b)
    (hmore : ReadsAs (.items ns) more) :
    ReadsAs (.items (n :: ns)) (a ++ (w ++ (b ++ 44 :: more))) := by
  refine ⟨h.exists_head ha _, fun fuel rest hfuel => ?_⟩
  simp only [List.length_append, List.length_cons] at hfuel
  obtain ⟨fuel, rfl⟩ := Nat.exists_eq_add_one_of_ne_zero (Nat.ne_zero_of_lt hfuel)
  obtain ⟨hitem, hcomma⟩ := h.read_between ha hb fuel (by omega) (.inl rfl) (more ++ 93 :: rest)
  rw [List.append_assoc, List.append_assoc, List.append_assoc, List.cons_append]
  exact readItems_more hitem hcomma (hmore.2 fuel rest (by omega))

lemma member (ha : Blank a) (hk : StringText ps k) (hb : Blank b) (hc : Blank c)
    (h : ReadsAs (.value n) w) (hd : Blank d) :
    ReadsAs (.members [(stringLeaf ps, n)])
      (a ++ 34 :: (k ++ 34 :: (b ++ 58 :: (c ++ (w ++ d))))) := by
  refine ⟨⟨_, by rw [skipSpace_blank ha, skipSpace_cons rfl]⟩, fun fuel rest hfuel => ?_⟩
  simp only [List.length_append, List.length_cons] at hfuel
  obtain ⟨fuel, rfl⟩ := Nat.exists_eq_add_one_of_ne_zero (Nat.ne_zero_of_lt hfuel)
  obtain ⟨hvalue, hclose⟩ := h.read_between hc hd fuel (by omega) (.inr (.inr rfl)) rest
  simp only [List.append_assoc, List.cons_append]
  rw [readMembers_blank ha]
  exact readMembers_last (readString_append hk _) (by rw [skipSpace_blank hb, skipSpace_cons rfl])
    hvalue hclose

lemma members (ha : Blank a) (hk : StringText ps k) (hb : Blank b) (hc : Blank c)
    (h : ReadsAs (.value n) w) (hd : Blank d) (hmore : ReadsAs (.members ms) more) :
    ReadsAs (.members ((stringLeaf ps, n) :: ms))
      (a ++ 34 :: (k ++ 34 :: (b ++ 58 :: (c ++ (w ++ (d ++ 44 :: more)))))) := by
  refine ⟨⟨_, by rw [skipSpace_blank ha, skipSpace_cons rfl]⟩, fun fuel rest hfuel => ?_⟩
  simp only [List.length_append, List.length_cons] at hfuel
  obtain ⟨fuel, rfl⟩ := Nat.exists_eq_add_one_of_ne_zero (Nat.ne_zero_of_lt hfuel)
  obtain ⟨hvalue, hcomma⟩ := h.read_between hc hd fuel (by omega) (.inl rfl) (more ++ 125 :: rest)
  simp only [List.append_assoc, List.cons_append]
  rw [readMembers_blank ha]
  exact readMembers_more (readString_append hk _) (by rw [skipSpace_blank hb, skipSpace_cons rfl])
    hvalue hcomma (hmore.2 fuel rest (by omega))

end Part.ReadsAs

lemma Written.readsAs {p : Part} {w : Bytes} (h : Written p w) : p.ReadsAs w := by
  -- One induction over the grammar carries values, items and members, as each reads the others.
  induction h with
  | null | yes | no =>
    apply Part.ReadsAs.value rfl (by decide)
    intro fuel rest _ _
    rw [read.eq_def]
    rfl
  | number h => exact .number h
  | string h => exact .string h
  | emptyArray ha => exact .emptyArray ha
  | array _ ih => exact ih.array
  | emptyObject ha => exact .emptyObject ha
  | object _ ih => exact ih.object
  | item ha _ hb ih => exact .item ha ih hb
  | items ha _ hb _ ih ihmore => exact .items ha ih hb ihmore
  | member ha hk hb hc _ hd ih => exact .member ha hk hb hc ih hd
  | members ha hk hb hc _ hd _ ih ihmore => exact .members ha hk hb hc ih hd ihmore

/-- The tree of a text is read, and nothing is left of the text. -/
theorem IsText.ofBytes_eq {bs : Bytes} {n : Node} (h : IsText bs n) :
    Node.ofBytes bs = (n, none) := by
  obtain ⟨a, w, b, ha, hw, hb, rfl⟩ := h
  have hend : Ends b := by
    have hnil : Ends [] := nofun
    rw [← List.append_nil b]
    exact ends_blank hb hnil
  have hread : read (2 * (a ++ (w ++ b)).length + 2) (a ++ (w ++ b)) = (n, some b) := by
    rw [read_blank ha]
    apply hw.readsAs.2 _ b _ hend
    simp only [List.length_append]
    omega
  have hleft : skipSpace b = [] := by
    have hskip := skipSpace_blank hb []
    rwa [List.append_nil] at hskip
  unfold Node.ofBytes
  rw [hread]
  dsimp only
  rw [hleft]
  rfl

/-! ### Passing over -/

/-- No fault stands in a part. -/
def Part.Sound : Part → Prop
  | .value n => n.passed = none
  | .items ns => passedItems ns = none
  | .members ms => passedMembers ms = none

/-- Whatever a text is a text of, it is passed over as a whole. -/
lemma Written.sound {p : Part} {w : Bytes} (h : Written p w) : p.Sound := by
  induction h with
  | null => rfl
  | yes => rfl
  | no => rfl
  | number h => exact h.passed
  | string h => rfl
  | emptyArray ha => rfl
  | array _ ih => exact (Option.or_none).trans ih
  | emptyObject ha => rfl
  | object _ ih => exact (Option.or_none).trans ih
  | item _ _ _ ih => exact Option.or_eq_none_iff.mpr ⟨ih, rfl⟩
  | items _ _ _ _ ih ihmore => exact Option.or_eq_none_iff.mpr ⟨ih, ihmore⟩
  | member _ _ _ _ _ _ ih =>
    exact Option.or_eq_none_iff.mpr ⟨Option.or_eq_none_iff.mpr ⟨rfl, ih⟩, rfl⟩
  | members _ _ _ _ _ _ _ ih ihmore =>
    exact Option.or_eq_none_iff.mpr ⟨Option.or_eq_none_iff.mpr ⟨rfl, ih⟩, ihmore⟩

end HostedRepo.Json
