import HostedRepo.Json.Value
import HostedRepo.Proofs.JsonGrammar
import HostedRepo.Proofs.Utf8Reading
import Mathlib.Tactic.IntervalCases

/-!
# Written strings are read back

The text between the quotes of a written string is read as this string, character by character,
through the escapes of quotes, backslashes and controls.
-/

namespace HostedRepo

open Json Json.Node

namespace Text.Utf8

lemma encode_append (s t : String) : encode (s ++ t) = encode s ++ encode t := by
  rw [encode, String.toList_append, List.flatMap_append]
  rfl

end Text.Utf8

namespace Json

/-- A text between quotes and what its pieces stand for, whatever pieces follow. -/
def Spells (text bytes : Bytes) : Prop :=
  ∃ ps, StringText ps text ∧ ∀ qs, joined (ps ++ qs) = (joined qs).map fun r => r.map (bytes ++ ·)

namespace Spells

lemma nil : Spells [] [] := by
  refine ⟨[], .nil, fun qs => ?_⟩
  rw [List.nil_append]
  cases joined qs with
  | none => rfl
  | some r => cases r <;> rfl

lemma append {t₁ t₂ bs₁ bs₂ : Bytes} (h₁ : Spells t₁ bs₁) (h₂ : Spells t₂ bs₂) :
    Spells (t₁ ++ t₂) (bs₁ ++ bs₂) := by
  obtain ⟨ps₁, htext₁, hjoined₁⟩ := h₁
  obtain ⟨ps₂, htext₂, hjoined₂⟩ := h₂
  refine ⟨ps₁ ++ ps₂, htext₁.append htext₂, fun qs => ?_⟩
  rw [List.append_assoc, hjoined₁, hjoined₂, Option.map_map]
  congr 1
  funext r
  cases r <;> simp

lemma plain {b : UInt8} (hquote : b ≠ 34) (hback : b ≠ 92) (hcontrol : ¬b < 32) :
    Spells [b] [b] :=
  ⟨[.byte b], .plain hquote hback hcontrol .nil, fun _ => rfl⟩

lemma short {b x : UInt8} (hx : shortEscape b = some x) : Spells [92, b] [x] :=
  ⟨[.byte x], .short hx .nil, fun _ => rfl⟩

lemma control {h l : UInt8} {m n : Nat} (hh : hexDigit h = some m) (hl : hexDigit l = some n)
    (hlt : m * 16 + n < 0xd800) :
    Spells [92, 117, 48, 48, h, l] (String.utf8EncodeChar (Char.ofNat (m * 16 + n))) := by
  have hzero : hexDigit 48 = some 0 := rfl
  have hhigh : ¬(0xd800 ≤ m * 16 + n ∧ m * 16 + n < 0xdc00) := by omega
  have hlow : ¬(0xdc00 ≤ m * 16 + n ∧ m * 16 + n < 0xe000) := by omega
  have htext : StringText [.escape (m * 16 + n)] [92, 117, 48, 48, h, l] := by
    simpa using StringText.code hzero hzero hh hl .nil
  refine ⟨[.escape (m * 16 + n)], htext, fun qs => ?_⟩
  cases qs with
  | nil =>
    rw [List.append_nil, joined.eq_3, if_neg hhigh, if_neg hlow]
    simp [joined]
  | cons q qs =>
    rw [List.singleton_append]
    cases q with
    | byte b => rw [joined.eq_4, if_neg hhigh, if_neg hlow]
    | escape k => rw [joined.eq_5, if_neg hhigh, if_neg hlow]

lemma plain_bytes {bs : Bytes} (h : ∀ b ∈ bs, b ≠ 34 ∧ b ≠ 92 ∧ ¬b < 32) : Spells bs bs := by
  induction bs with
  | nil => exact nil
  | cons b bs ih =>
    obtain ⟨⟨hquote, hback, hcontrol⟩, hrest⟩ := List.forall_mem_cons.mp h
    exact (plain hquote hback hcontrol).append (ih hrest)

lemma controlText {n : Nat} (h : n < 32) :
    ∃ high low, Text.Utf8.encode ((if n < 16 then "\\u000" else "\\u00") ++ Text.hex n) =
        [92, 117, 48, 48, high, low] ∧
      hexDigit high = some (n / 16) ∧ hexDigit low = some (n % 16) := by
  interval_cases n <;> exact ⟨_, _, rfl, rfl, rfl⟩

lemma plain_utf8EncodeChar {c : Char} (hquote : c ≠ '"') (hback : c ≠ '\\')
    (hcontrol : ¬c < ' ') : ∀ b ∈ String.utf8EncodeChar c, b ≠ 34 ∧ b ≠ 92 ∧ ¬b < 32 := by
  have hnumber : ∀ d : Char, c ≠ d → c.val.toNat ≠ d.val.toNat :=
    fun d hne heq => hne (Char.toNat_inj.mp heq)
  have hquote' : c.val.toNat ≠ 34 := hnumber '"' hquote
  have hback' : c.val.toNat ≠ 92 := hnumber '\\' hback
  have hcontrol' : 32 ≤ c.val.toNat := UInt32.le_iff_toNat_le.mp (UInt32.not_lt.mp hcontrol)
  suffices hbytes : ∀ b ∈ String.utf8EncodeChar c,
      b.toNat ≠ 34 ∧ b.toNat ≠ 92 ∧ 32 ≤ b.toNat by
    intro b hb
    obtain ⟨h34, h92, h32⟩ := hbytes b hb
    refine ⟨fun h => h34 (congrArg UInt8.toNat h), fun h => h92 (congrArg UInt8.toNat h), ?_⟩
    exact fun h => absurd (UInt8.lt_iff_toNat_lt.mp h) (Nat.not_lt.mpr h32)
  unfold String.utf8EncodeChar
  generalize c.val.toNat = v at *
  dsimp only
  have hsmall : ∀ {n : Nat}, 128 ≤ n → n < 256 → (UInt8.ofNat n).toNat ≠ 34 ∧
      (UInt8.ofNat n).toNat ≠ 92 ∧ 32 ≤ (UInt8.ofNat n).toNat := by
    intro n hlo hhi
    rw [Text.Utf8.toNat_ofNat_of_lt hhi]
    omega
  split
  · rw [List.forall_mem_singleton, Text.Utf8.toNat_ofNat_of_lt (by omega)]
    omega
  · split
    · simp only [List.forall_mem_cons, List.not_mem_nil, false_implies, implies_true, and_true]
      exact ⟨hsmall (by omega) (by omega), hsmall (by omega) (by omega)⟩
    · split
      · simp only [List.forall_mem_cons, List.not_mem_nil, false_implies, implies_true, and_true]
        exact ⟨hsmall (by omega) (by omega), hsmall (by omega) (by omega),
          hsmall (by omega) (by omega)⟩
      · simp only [List.forall_mem_cons, List.not_mem_nil, false_implies, implies_true, and_true]
        exact ⟨hsmall (by omega) (by omega), hsmall (by omega) (by omega),
          hsmall (by omega) (by omega), hsmall (by omega) (by omega)⟩

/-- The bytes of a character are spelled by the text that is written for it. -/
lemma escapeChar (c : Char) :
    Spells (Text.Utf8.encode (Value.escapeChar c)) (String.utf8EncodeChar c) := by
  unfold Value.escapeChar
  split
  · exact short (b := 34) rfl
  · exact short (b := 92) rfl
  · exact short (b := 110) rfl
  · exact short (b := 114) rfl
  · exact short (b := 116) rfl
  · exact short (b := 98) rfl
  · exact short (b := 102) rfl
  · next hquote hback _ _ _ _ _ =>
    split
    · next hcontrol =>
      have hlt : c.toNat < 32 := UInt32.lt_iff_toNat_lt.mp hcontrol
      obtain ⟨high, low, htext, hhigh, hlow⟩ := controlText hlt
      have hspells := control hhigh hlow (by omega)
      rw [Nat.div_add_mod', Char.ofNat_toNat] at hspells
      rw [htext]
      exact hspells
    · next hcontrol =>
      have htext : Text.Utf8.encode c.toString = String.utf8EncodeChar c := by
        simp [Text.Utf8.encode]
      rw [htext]
      exact plain_bytes (plain_utf8EncodeChar hquote hback hcontrol)

lemma escaped (cs : List Char) :
    Spells (Text.Utf8.encode (String.join (cs.map Value.escapeChar)))
      (cs.flatMap String.utf8EncodeChar) := by
  induction cs with
  | nil => exact nil
  | cons c cs ih =>
    rw [List.map_cons, String.join_cons, Text.Utf8.encode_append, List.flatMap_cons]
    exact (escapeChar c).append ih

end Spells

lemma exists_stringText (s : String) : ∃ ps,
    StringText ps (Text.Utf8.encode (String.join (s.toList.map Value.escapeChar))) ∧
      stringLeaf ps = ⟨.ok s, none⟩ := by
  obtain ⟨ps, htext, hjoined⟩ := Spells.escaped s.toList
  have hbytes : joined ps = some (some (Text.Utf8.encode s)) := by
    have hall := hjoined []
    rw [List.append_nil] at hall
    rw [hall, joined.eq_1]
    exact congrArg (fun bs => some (some bs)) (List.append_nil _)
  refine ⟨ps, htext, ?_⟩
  unfold stringLeaf
  simp only [hbytes, Text.Utf8.decode?_encode]

end Json
end HostedRepo
