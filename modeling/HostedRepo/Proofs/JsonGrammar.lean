import HostedRepo.Json.Node
import Mathlib.Data.List.DropRight
import Mathlib.Tactic.Common

/-!
# The grammar of JSON texts

Which bytes are a JSON text of which tree, without regard to how they are read: blanks between the
parts, digits and escapes in all spellings, and any depth. Strings and numbers are read up to what
stands behind them.
-/

namespace HostedRepo.Json

open Node

/-! ### Blanks -/

/-- Bytes that may stand between the parts of a text. -/
def Blank (w : Bytes) : Prop := ∀ b ∈ w, isSpace b = true

/-- What may stand behind a value: nothing, or a blank, a comma or a closing bracket or brace. -/
def Ends (rest : Bytes) : Prop :=
  ∀ b ∈ rest.head?, isSpace b = true ∨ b = 44 ∨ b = 93 ∨ b = 125

lemma blank_nil : Blank [] := nofun

lemma skipSpace_blank {w : Bytes} (h : Blank w) (bs : Bytes) :
    skipSpace (w ++ bs) = skipSpace bs :=
  List.dropWhile_append_of_pos h

lemma skipSpace_cons {b : UInt8} (h : isSpace b = false) (bs : Bytes) :
    skipSpace (b :: bs) = b :: bs :=
  List.dropWhile_cons_of_neg (by rw [h]; exact Bool.false_ne_true)

lemma skipSpace_skipSpace (bs : Bytes) : skipSpace (skipSpace bs) = skipSpace bs :=
  List.dropWhile_idempotent _ bs

lemma ends_blank {w rest : Bytes} (h : Blank w) (hrest : Ends rest) : Ends (w ++ rest) := by
  cases w with
  | nil => exact hrest
  | cons b w =>
    intro b' hb'
    cases hb'
    exact .inl (h b List.mem_cons_self)

/-! ### Strings -/

/-- What stands between the quotes of a string: bytes that stand for themselves, escapes with one
letter, and escapes with four hexadecimal digits. -/
inductive StringText : List Piece → Bytes → Prop
  | nil : StringText [] []
  | plain {b : UInt8} {ps : List Piece} {w : Bytes} (hquote : b ≠ 34) (hback : b ≠ 92)
    (hcontrol : ¬b < 32) (h : StringText ps w) : StringText (.byte b :: ps) (b :: w)
  | short {b x : UInt8} {ps : List Piece} {w : Bytes} (hx : shortEscape b = some x)
    (h : StringText ps w) : StringText (.byte x :: ps) (92 :: b :: w)
  | code {a b c d : UInt8} {i j k l : Nat} {ps : List Piece} {w : Bytes} (ha : hexDigit a = some i)
    (hb : hexDigit b = some j) (hc : hexDigit c = some k) (hd : hexDigit d = some l)
    (h : StringText ps w) :
    StringText (.escape (i * 4096 + j * 256 + k * 16 + l) :: ps)
      (92 :: 117 :: a :: b :: c :: d :: w)

namespace StringText

variable {ps qs : List Piece} {v w : Bytes}

lemma append (h : StringText ps v) (h' : StringText qs w) : StringText (ps ++ qs) (v ++ w) := by
  induction h with
  | nil => exact h'
  | plain hquote hback hcontrol _ ih => exact .plain hquote hback hcontrol ih
  | short hx _ ih => exact .short hx ih
  | code ha hb hc hd _ ih => exact .code ha hb hc hd ih

lemma pieces_append (h : StringText ps w) (rest : Bytes) :
    pieces (w ++ rest) = (ps ++ (pieces rest).1, (pieces rest).2) := by
  induction h with
  | nil => rfl
  | @plain b ps w hquote hback hcontrol _ ih =>
    have hpieces := pieces.eq_7 b (w ++ rest) hquote (fun h _ => hback h)
      (fun _ _ _ _ _ h _ => hback h) (fun _ h _ => hback h) (fun _ _ h _ => hback h)
    rw [if_neg hcontrol, ih] at hpieces
    exact hpieces
  | @short b x ps w hx _ ih =>
    have hb : b ≠ 117 := by
      rintro rfl
      cases hx
    have hpieces := pieces.eq_6 b (w ++ rest) (fun _ _ _ _ _ h _ => hb h) hb
    rw [hx, ih] at hpieces
    exact hpieces
  | @code a b c d i j k l ps w ha hb hc hd _ ih =>
    have hpieces := pieces.eq_4 a b c d (w ++ rest)
    rw [ha, hb, hc, hd, ih] at hpieces
    exact hpieces

end StringText

/-- The string that pieces stand for, if they stand for one. -/
def stringLeaf (ps : List Piece) : Leaf String where
  kept := match joined ps with
    | some (some text) => match Text.Utf8.decode? text with
      | some s => .ok s
      | none => .error .malformed
    | _ => .error .malformed

lemma readString_append {ps : List Piece} {w : Bytes} (h : StringText ps w) (rest : Bytes) :
    readString (w ++ 34 :: rest) = (stringLeaf ps, some rest) := by
  have hpieces : pieces (w ++ 34 :: rest) = (ps, .ok rest) := by
    rw [h.pieces_append, pieces.eq_2, List.append_nil]
  unfold readString stringLeaf
  rw [hpieces]
  dsimp only
  rcases joined ps with _ | _ | text
  · rfl
  · rfl
  · dsimp only
    cases Text.Utf8.decode? text <;> rfl

/-! ### Numbers -/

def Digits (w : Bytes) : Prop := w ≠ [] ∧ ∀ b ∈ w, isDigit b = true

def FractionText (w : Bytes) : Prop := w = [] ∨ ∃ ds, w = 46 :: ds ∧ Digits ds

def ExponentText (w : Bytes) : Prop :=
  w = [] ∨ ∃ e sign ds, w = e :: (sign ++ ds) ∧ (e = 101 ∨ e = 69) ∧
    (sign = [] ∨ sign = [43] ∨ sign = [45]) ∧ Digits ds

/-- A number of any size, in which a zero does not stand before other digits. -/
def NumberText (w : Bytes) : Prop :=
  ∃ sign whole fraction exponent, w = sign ++ (whole ++ (fraction ++ exponent)) ∧
    (sign = [] ∨ sign = [45]) ∧ Digits whole ∧ (whole.head? = some 48 → whole = [48]) ∧
    FractionText fraction ∧ ExponentText exponent

/-- No digit stands in front. -/
def NoDigit (rest : Bytes) : Prop := ∀ b ∈ rest.head?, isDigit b = false

lemma Ends.head {b : UInt8} {rest : Bytes} (h : Ends (b :: rest)) :
    isDigit b = false ∧ b ≠ 46 ∧ b ≠ 101 ∧ b ≠ 69 := by
  obtain hspace | rfl | rfl | rfl := h b rfl
  · simp only [isSpace, Bool.or_eq_true, beq_iff_eq] at hspace
    obtain ((rfl | rfl) | rfl) | rfl := hspace <;> decide
  · decide
  · decide
  · decide

lemma Ends.noDigit {rest : Bytes} (h : Ends rest) : NoDigit rest := by
  cases rest with
  | nil => exact nofun
  | cons b rest =>
    intro b' hb'
    cases hb'
    exact h.head.1

lemma Digits.exists_head {w : Bytes} (h : Digits w) :
    ∃ b ds, w = b :: ds ∧ isDigit b = true ∧ b ≠ 43 ∧ b ≠ 45 := by
  obtain ⟨hne, hall⟩ := h
  cases w with
  | nil => exact absurd rfl hne
  | cons b ds =>
    have hb := hall b List.mem_cons_self
    refine ⟨b, ds, rfl, hb, ?_, ?_⟩ <;>
    · rintro rfl
      cases hb

lemma Digits.scan {w rest : Bytes} (h : Digits w) (hrest : NoDigit rest) :
    digits (w ++ rest) = digits w ∧ (w ++ rest).dropWhile isDigit = rest := by
  obtain ⟨htake, hdrop⟩ : rest.takeWhile isDigit = [] ∧ rest.dropWhile isDigit = rest := by
    cases rest with
    | nil => exact ⟨rfl, rfl⟩
    | cons b rest =>
      have hb : isDigit b = false := hrest b rfl
      simp [hb]
  constructor
  · rw [digits, List.takeWhile_append_of_pos h.2, htake, List.append_nil, digits,
      List.takeWhile_eq_self_iff.mpr h.2]
  · rw [List.dropWhile_append_of_pos h.2, hdrop]

lemma readExponent_digits {e : UInt8} (he : e = 101 ∨ e = 69) {ds rest : Bytes} (hds : Digits ds)
    (hrest : NoDigit rest) (l : Literal) :
    readExponent l (e :: (ds ++ rest)) =
        .ok ({ l with exponent := some (false, digits ds) }, rest) ∧
      readExponent l (e :: 43 :: (ds ++ rest)) =
        .ok ({ l with exponent := some (false, digits ds) }, rest) ∧
      readExponent l (e :: 45 :: (ds ++ rest)) =
        .ok ({ l with exponent := some (true, digits ds) }, rest) := by
  obtain ⟨hdigits, hdrop⟩ := hds.scan hrest
  obtain ⟨b, ds, rfl, hb, hplus, hminus⟩ := hds.exists_head
  have hmark : (e == 101 || e == 69) = true := by
    obtain rfl | rfl := he <;> rfl
  rw [List.cons_append] at hdigits hdrop
  unfold readExponent
  simp [hmark, hb, hdigits, hdrop, hplus, hminus]

lemma ExponentText.read {w : Bytes} (h : ExponentText w) (l : Literal) :
    ∃ l', ∀ rest, Ends rest → readExponent l (w ++ rest) = .ok (l', rest) := by
  obtain rfl | ⟨e, sign, ds, rfl, he, hsign, hds⟩ := h
  · refine ⟨l, fun rest hrest => ?_⟩
    cases rest with
    | nil => rfl
    | cons b rest =>
      obtain ⟨-, -, hsmall, hlarge⟩ := hrest.head
      simp [readExponent, hsmall, hlarge]
  · obtain rfl | rfl | rfl := hsign
    · exact ⟨_, fun rest hrest => by simpa using (readExponent_digits he hds hrest.noDigit l).1⟩
    · exact ⟨_, fun rest hrest => by simpa using (readExponent_digits he hds hrest.noDigit l).2.1⟩
    · exact ⟨_, fun rest hrest => by simpa using (readExponent_digits he hds hrest.noDigit l).2.2⟩

lemma ExponentText.head {w rest : Bytes} (h : ExponentText w) (hrest : Ends rest) :
    ∀ b ∈ (w ++ rest).head?, isDigit b = false ∧ b ≠ 46 := by
  intro b hb
  obtain rfl | ⟨e, sign, ds, rfl, rfl | rfl, -⟩ := h
  · cases rest with
    | nil => cases hb
    | cons b' rest =>
      cases hb
      exact ⟨hrest.head.1, hrest.head.2.1⟩
  · cases hb
    decide
  · cases hb
    decide

lemma readLiteral_text {whole fraction exponent : Bytes} (hwhole : Digits whole)
    (hzero : whole.head? = some 48 → whole = [48]) (hfraction : FractionText fraction)
    (hexponent : ExponentText exponent) (negative : Bool) :
    ∃ l, ∀ rest, Ends rest →
      readLiteral negative (whole ++ (fraction ++ (exponent ++ rest))) = .ok (l, rest) := by
  obtain ⟨b, ds, rfl, hb, -, -⟩ := hwhole.exists_head
  have hshort : (b == 48 && decide ((digits (b :: ds)).length > 1)) = false := by
    by_cases h : b = 48
    · subst h
      rw [hzero rfl]
      rfl
    · rw [beq_eq_false_iff_ne.mpr h, Bool.false_and]
  obtain rfl | ⟨fs, rfl, hfs⟩ := hfraction
  · obtain ⟨l, hl⟩ := hexponent.read { negative := negative, whole := digits (b :: ds) }
    refine ⟨l, fun rest hrest => ?_⟩
    have hend := hexponent.head hrest
    obtain ⟨hdigits, hdrop⟩ := hwhole.scan fun b hb => (hend b hb).1
    rw [List.cons_append] at hdigits hdrop
    rw [List.nil_append, List.cons_append, readLiteral, hdigits, hdrop, ← hl rest hrest]
    dsimp only
    rw [hb, hshort, if_neg (by decide), if_neg (by decide)]
    split
    · next more hmore =>
      rw [hmore] at hend
      exact absurd rfl (hend 46 rfl).2
    · rfl
  · obtain ⟨l, hl⟩ :=
      hexponent.read { negative := negative, whole := digits (b :: ds), fraction := digits fs }
    refine ⟨l, fun rest hrest => ?_⟩
    have hmark : NoDigit (46 :: (fs ++ (exponent ++ rest))) := by
      intro b hb
      cases hb
      rfl
    obtain ⟨hdigits, hdrop⟩ := hwhole.scan hmark
    obtain ⟨hdigits', hdrop'⟩ := hfs.scan fun b hb => (hexponent.head hrest b hb).1
    have hsome : (digits fs).isEmpty = false := by
      obtain ⟨f, fs', rfl, hf, -⟩ := hfs.exists_head
      rw [digits, List.takeWhile_cons_of_pos hf]
      rfl
    rw [List.cons_append] at hdigits hdrop
    rw [List.cons_append, List.cons_append, readLiteral, hdigits, hdrop, ← hl rest hrest]
    dsimp only
    rw [hb, hshort, if_neg (by decide), if_neg (by decide)]
    simp only [hdigits', hdrop', hsome]
    rfl

/-- The number that a literal stands for, if it is not out of range. -/
def numberLeaf (l : Literal) : Leaf Number where
  kept := match Number.ofLiteral l with
    | some n => .ok n
    | none => .error .malformed

lemma readNumber_plain {b : UInt8} {bs rest : Bytes} {l : Literal} (hb : b ≠ 45)
    (h : readLiteral false (b :: bs) = .ok (l, rest)) :
    readNumber (b :: bs) = (numberLeaf l, some rest) := by
  unfold readNumber numberLeaf
  split
  · next hcons => exact absurd (List.cons.inj hcons).1 hb
  · simp only [h]
    cases Number.ofLiteral l <;> rfl

lemma readNumber_minus {bs rest : Bytes} {l : Literal} (h : readLiteral true bs = .ok (l, rest)) :
    readNumber (45 :: bs) = (numberLeaf l, some rest) := by
  unfold readNumber numberLeaf
  split
  · next hcons =>
    obtain rfl := (List.cons.inj hcons).2
    simp only [h]
    cases Number.ofLiteral l <;> rfl
  · next hother => exact absurd rfl (hother _)

lemma NumberText.exists_literal {w : Bytes} (h : NumberText w) :
    ∃ l, ∀ rest, Ends rest → readNumber (w ++ rest) = (numberLeaf l, some rest) := by
  obtain ⟨sign, whole, fraction, exponent, rfl, hsign, hwhole, hzero, hfraction, hexponent⟩ := h
  obtain ⟨b, ds, hhead, -, -, hminus⟩ := hwhole.exists_head
  obtain ⟨l, hl⟩ := readLiteral_text hwhole hzero hfraction hexponent (sign == [45])
  refine ⟨l, fun rest hrest => ?_⟩
  have hread := hl rest hrest
  simp only [List.append_assoc]
  obtain rfl | rfl := hsign
  · subst hhead
    exact readNumber_plain hminus hread
  · exact readNumber_minus hread

lemma NumberText.passed {w : Bytes} (h : NumberText w) : (readNumber w).1.passed = none := by
  obtain ⟨l, hread⟩ := h.exists_literal
  have hall := hread [] nofun
  rw [List.append_nil] at hall
  rw [hall]
  rfl

lemma NumberText.read {w rest : Bytes} (h : NumberText w) (hrest : Ends rest) :
    readNumber (w ++ rest) = ((readNumber w).1, some rest) := by
  obtain ⟨l, hread⟩ := h.exists_literal
  have hall := hread [] nofun
  rw [List.append_nil] at hall
  rw [hread rest hrest, hall]

lemma NumberText.exists_head {w : Bytes} (h : NumberText w) :
    ∃ b bs, w = b :: bs ∧ (b == 45 || isDigit b) = true := by
  obtain ⟨sign, whole, fraction, exponent, rfl, rfl | rfl, hwhole, -⟩ := h
  · obtain ⟨b, ds, rfl, hb, -⟩ := hwhole.exists_head
    exact ⟨b, _, rfl, by rw [hb, Bool.or_true]⟩
  · exact ⟨45, _, rfl, rfl⟩

/-! ### Values -/

/-- A value, or what stands between the brackets of an array or the braces of an object that is not
empty. -/
inductive Part where
  | value (n : Node)
  | items (ns : List Node)
  | members (ms : List (Leaf String × Node))

/-- The bytes are a text of the part. Behind a comma another item or member has to stand. -/
inductive Written : Part → Bytes → Prop
  | null : Written (.value .null) [110, 117, 108, 108]
  | yes : Written (.value (.flag true)) [116, 114, 117, 101]
  | no : Written (.value (.flag false)) [102, 97, 108, 115, 101]
  | number {w : Bytes} (h : NumberText w) : Written (.value (.number (readNumber w).1)) w
  | string {ps : List Piece} {w : Bytes} (h : StringText ps w) :
    Written (.value (.string (stringLeaf ps))) (34 :: (w ++ [34]))
  | emptyArray {a : Bytes} (ha : Blank a) : Written (.value (.array [] none)) (91 :: (a ++ [93]))
  | array {ns : List Node} {w : Bytes} (h : Written (.items ns) w) :
    Written (.value (.array ns none)) (91 :: (w ++ [93]))
  | emptyObject {a : Bytes} (ha : Blank a) :
    Written (.value (.object [] none)) (123 :: (a ++ [125]))
  | object {ms : List (Leaf String × Node)} {w : Bytes} (h : Written (.members ms) w) :
    Written (.value (.object ms none)) (123 :: (w ++ [125]))
  | item {n : Node} {a w b : Bytes} (ha : Blank a) (h : Written (.value n) w) (hb : Blank b) :
    Written (.items [n]) (a ++ (w ++ b))
  | items {n : Node} {ns : List Node} {a w b more : Bytes} (ha : Blank a)
    (h : Written (.value n) w) (hb : Blank b) (hmore : Written (.items ns) more) :
    Written (.items (n :: ns)) (a ++ (w ++ (b ++ 44 :: more)))
  | member {ps : List Piece} {n : Node} {a k b c w d : Bytes} (ha : Blank a)
    (hk : StringText ps k) (hb : Blank b) (hc : Blank c) (h : Written (.value n) w) (hd : Blank d) :
    Written (.members [(stringLeaf ps, n)]) (a ++ 34 :: (k ++ 34 :: (b ++ 58 :: (c ++ (w ++ d)))))
  | members {ps : List Piece} {n : Node} {ms : List (Leaf String × Node)} {a k b c w d more : Bytes}
    (ha : Blank a) (hk : StringText ps k) (hb : Blank b) (hc : Blank c) (h : Written (.value n) w)
    (hd : Blank d) (hmore : Written (.members ms) more) :
    Written (.members ((stringLeaf ps, n) :: ms))
      (a ++ 34 :: (k ++ 34 :: (b ++ 58 :: (c ++ (w ++ (d ++ 44 :: more))))))

/-- A JSON text: a value between blanks. -/
def IsText (bs : Bytes) (n : Node) : Prop :=
  ∃ a w b, Blank a ∧ Written (.value n) w ∧ Blank b ∧ bs = a ++ (w ++ b)

lemma Written.isText {n : Node} {w : Bytes} (h : Written (.value n) w) : IsText w n :=
  ⟨[], w, [], blank_nil, h, blank_nil, (List.append_nil w).symm⟩

end HostedRepo.Json
