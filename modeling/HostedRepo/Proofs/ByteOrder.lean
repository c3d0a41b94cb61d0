import HostedRepo.Text.Utf8
import Mathlib.Data.List.Lex
import Mathlib.Tactic.Common

/-!
# The order of bytes

Texts are in the order of their characters, and their bytes are in the same order: of two characters
the greater one has the greater byte where their bytes first differ.
-/

namespace HostedRepo.Text.Utf8

lemma digits_lex {v w : Nat} (h : v < w) :
    v / 262144 < w / 262144 ∨ v / 262144 = w / 262144 ∧
      (v / 4096 % 64 < w / 4096 % 64 ∨ v / 4096 % 64 = w / 4096 % 64 ∧
        (v / 64 % 64 < w / 64 % 64 ∨ v / 64 % 64 = w / 64 % 64 ∧ v % 64 < w % 64)) := by
  have hv : v = v / 262144 * 262144 + v / 4096 % 64 * 4096 + v / 64 % 64 * 64 + v % 64 := by omega
  have hw : w = w / 262144 * 262144 + w / 4096 % 64 * 4096 + w / 64 % 64 * 64 + w % 64 := by omega
  omega

lemma utf8EncodeChar_lex {c d : Char} (h : c < d) (s t : Bytes) :
    List.Lex (· < ·) (String.utf8EncodeChar c ++ s) (String.utf8EncodeChar d ++ t) := by
  have hlt : c.val.toNat < d.val.toNat := h
  have hbound : d.val.toNat < 0x110000 := by
    rcases d.valid with hd | hd
    · exact Nat.lt_trans hd (by decide)
    · exact hd.2
  unfold String.utf8EncodeChar
  generalize c.val.toNat = v at hlt
  generalize d.val.toNat = w at hlt hbound
  have hdigits := digits_lex hlt
  dsimp only
  -- One case for each pair of sizes. Characters of different sizes differ in the first byte.
  split_ifs <;>
    simp (disch := omega) only [List.cons_append, List.cons_lex_cons_iff, UInt8.lt_iff_toNat_lt,
      ← UInt8.toNat_inj, UInt8.toNat_ofNat', Nat.mod_eq_of_lt] <;> omega

lemma flatMap_lex {s t : List Char} (h : List.Lex (· < ·) s t) :
    List.Lex (· < ·) (s.flatMap String.utf8EncodeChar) (t.flatMap String.utf8EncodeChar) := by
  induction h with
  | @nil d t =>
    rw [List.flatMap_nil, List.flatMap_cons]
    cases hbytes : String.utf8EncodeChar d with
    | nil =>
      have hsize := Char.utf8Size_pos d
      rw [← String.length_utf8EncodeChar, hbytes] at hsize
      exact absurd hsize (Nat.lt_irrefl 0)
    | cons b bs => exact .nil
  | rel hlt =>
    rw [List.flatMap_cons, List.flatMap_cons]
    exact utf8EncodeChar_lex hlt _ _
  | cons _ ih =>
    rw [List.flatMap_cons, List.flatMap_cons]
    exact List.Lex.append_left _ ih _

/-- The bytes of texts are in the order of the texts. -/
theorem encode_lex {s t : String} (h : s < t) : List.Lex (· < ·) (encode s) (encode t) :=
  flatMap_lex h

end HostedRepo.Text.Utf8
