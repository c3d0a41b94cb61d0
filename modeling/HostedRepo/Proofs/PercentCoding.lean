import HostedRepo.Proofs.Utf8Reading
import HostedRepo.Url.Percent
import Mathlib.Tactic.IntervalCases

/-!
# Percent encoding loses nothing

A text is read back from its encoded form, whatever characters it has, if the percent sign and all
that is beyond ASCII are encoded. So different texts have different encoded forms.
-/

namespace HostedRepo.Url.Percent

/-- A set outside of which every character is one byte and none starts an encoded byte. -/
structure Escapes (set : Char → Bool) : Prop where
  percent : set '%' = true
  wide : ∀ c, '~' < c → set c = true

lemma segment_escapes : Escapes segment where
  percent := by decide
  wide c h := by simp [segment, path, fragment, controls, h]

lemma specialSegment_escapes : Escapes specialSegment where
  percent := by decide
  wide c h := by simp [specialSegment, segment_escapes.wide c h]

lemma decode_of_ne {b : UInt8} (h : b ≠ 37) (rest : Bytes) :
    decode (b :: rest) = b :: decode rest :=
  decode.eq_2 b rest fun _ _ _ hb => absurd hb h

lemma map_value_digit {n : Nat} (h : n < 16) :
    (String.utf8EncodeChar (digit n)).map value = [some (UInt8.ofNat n)] := by
  interval_cases n <;> decide

lemma decode_byte (b : UInt8) (rest : Bytes) :
    decode ((byte b).flatMap String.utf8EncodeChar ++ rest) = b :: decode rest := by
  obtain ⟨x, hx, hhigh⟩ := List.map_eq_singleton_iff.mp
    (map_value_digit (show b.toNat / 16 < 16 from Nat.div_lt_of_lt_mul b.toNat_lt))
  obtain ⟨y, hy, hlow⟩ := List.map_eq_singleton_iff.mp
    (map_value_digit (show b.toNat % 16 < 16 from Nat.mod_lt _ (by decide)))
  have hbytes : (byte b).flatMap String.utf8EncodeChar = [37, x, y] := by
    rw [byte, List.flatMap_cons, List.flatMap_cons, List.flatMap_singleton, hx, hy]
    rfl
  have hjoin : UInt8.ofNat (b.toNat / 16) * 16 + UInt8.ofNat (b.toNat % 16) = b := by
    apply UInt8.toNat_inj.mp
    have := b.toNat_lt
    simp
    omega
  rw [hbytes, List.cons_append, List.cons_append, List.cons_append, List.nil_append, decode,
    hhigh, hlow]
  simp [hjoin]

lemma decode_bytes (bs rest : Bytes) :
    decode ((bs.flatMap byte).flatMap String.utf8EncodeChar ++ rest) = bs ++ decode rest := by
  induction bs with
  | nil => rfl
  | cons b bs ih =>
    rw [List.flatMap_cons, List.flatMap_append, List.append_assoc, decode_byte, ih,
      List.cons_append]

lemma decode_plain {set : Char → Bool} (hset : Escapes set) {c : Char} (h : set c = false)
    (rest : Bytes) : decode (String.utf8EncodeChar c ++ rest) =
      String.utf8EncodeChar c ++ decode rest := by
  have hle : ¬ '~' < c := by
    intro hlt
    rw [hset.wide c hlt] at h
    cases h
  have hne : c ≠ '%' := by
    rintro rfl
    rw [hset.percent] at h
    cases h
  have hsmall : c.val.toNat ≤ 126 := UInt32.le_iff_toNat_le.mp (UInt32.not_lt.mp hle)
  have hone : String.utf8EncodeChar c = [UInt8.ofNat c.val.toNat] := by
    unfold String.utf8EncodeChar
    rw [if_pos (by omega)]
  have hbyte : UInt8.ofNat c.val.toNat ≠ 37 := by
    intro heq
    have hnat := congrArg UInt8.toNat heq
    rw [UInt8.toNat_ofNat', Nat.mod_eq_of_lt (by omega)] at hnat
    exact hne (Char.toNat_inj.mp hnat)
  rw [hone, List.cons_append, List.nil_append, decode_of_ne hbyte]
  rfl

lemma decode_encode_append {set : Char → Bool} (hset : Escapes set) (s : List Char)
    (rest : Bytes) : decode ((encode set s).flatMap String.utf8EncodeChar ++ rest) =
      s.flatMap String.utf8EncodeChar ++ decode rest := by
  induction s with
  | nil => rfl
  | cons c s ih =>
    have hcons : encode set (c :: s) = (if set c then char c else [c]) ++ encode set s :=
      List.flatMap_cons
    rw [hcons, List.flatMap_append, List.append_assoc, List.flatMap_cons, List.append_assoc, ← ih]
    by_cases hc : set c = true
    · rw [if_pos hc]
      exact decode_bytes _ _
    · rw [if_neg hc, List.flatMap_singleton]
      exact decode_plain hset (by simpa using hc) _

/-- The text that an encoded one stands for. -/
def read? (s : String) : Option String := Text.Utf8.decode? (decode (Text.Utf8.encode s))

theorem read?_encode {set : Char → Bool} (hset : Escapes set) (s : List Char) :
    read? (String.ofList (encode set s)) = some (String.ofList s) := by
  have hbytes : decode (Text.Utf8.encode (String.ofList (encode set s))) =
      Text.Utf8.encode (String.ofList s) := by
    have happend := decode_encode_append hset s []
    rw [List.append_nil, decode, List.append_nil] at happend
    simpa [Text.Utf8.encode] using happend
  rw [read?, hbytes, Text.Utf8.decode?_encode]

lemma encode_inj {set : Char → Bool} (hset : Escapes set) {s t : List Char}
    (h : encode set s = encode set t) : s = t := by
  have hread := read?_encode hset s
  rw [h, read?_encode hset t] at hread
  exact (String.ofList_injective (Option.some.inj hread)).symm

/-! ### Characters of encoded texts -/

lemma digit_mem {n : Nat} (h : n < 16) : digit n ∈ "0123456789ABCDEF".toList := by
  interval_cases n <;> decide

lemma mem_encode {set : Char → Bool} {s : List Char} {c : Char} (h : c ∈ encode set s) :
    (c ∈ s ∧ set c = false) ∨ c ∈ "%0123456789ABCDEF".toList := by
  obtain ⟨d, hd, hc⟩ := List.mem_flatMap.mp h
  split at hc
  · right
    obtain ⟨b, -, hc⟩ := List.mem_flatMap.mp hc
    have hlt : b.toNat < 256 := b.toNat_lt
    have hsub : "0123456789ABCDEF".toList ⊆ "%0123456789ABCDEF".toList := by decide
    simp only [byte, List.mem_cons, List.not_mem_nil, or_false] at hc
    rcases hc with rfl | rfl | rfl
    · decide
    · exact hsub (digit_mem (by omega))
    · exact hsub (digit_mem (by omega))
  · next hset =>
    rw [List.mem_singleton.mp hc]
    exact .inl ⟨hd, by simpa using hset⟩

end HostedRepo.Url.Percent
