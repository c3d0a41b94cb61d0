import HostedRepo.Proofs.PercentCoding
import HostedRepo.Proofs.TextParts
import HostedRepo.Url.Query

/-!
# Form encoding loses nothing

A text is read back from its form encoding, whatever characters it has, and the encoding has no
character that ends a name or a pair. So a pair that is added to a query stands behind the pairs
that were there, and changes none of them.
-/

namespace HostedRepo.Url.Query

/-- A character as it is read: a plus sign stands for a space. -/
def unplus (c : Char) : Char := if c = '+' then ' ' else c

/-! ### Bytes -/

lemma toNat_of_isPlain {b : UInt8} (h : isPlain b = true) :
    b.toNat < 128 ∧ b.toNat ≠ 37 ∧ b.toNat ≠ 38 ∧ b.toNat ≠ 43 ∧ b.toNat ≠ 61 := by
  simp only [isPlain, Bool.or_eq_true, Bool.and_eq_true, decide_eq_true_eq, beq_iff_eq,
    UInt8.le_iff_toNat_le, ← UInt8.toNat_inj] at h
  simp only [UInt8.reduceToNat] at h
  omega

lemma encodeByte_plain {b : UInt8} (h : isPlain b = true) :
    encodeByte b = [Char.ofNat b.toNat] := if_pos h

lemma encodeByte_other {b : UInt8} (h : ¬isPlain b = true) (hspace : b ≠ 32) :
    encodeByte b = Percent.byte b := by
  rw [encodeByte, if_neg h, if_neg (by simpa using hspace)]

lemma toNat_ofNat_of_small {n : Nat} (h : n < 128) : (Char.ofNat n).toNat = n :=
  Text.Utf8.toNat_val_ofNat (by omega)

lemma separator_notMem_encodeByte (b : UInt8) : '&' ∉ encodeByte b ∧ '=' ∉ encodeByte b := by
  by_cases hplain : isPlain b = true
  · obtain ⟨hlt, -, hamp, -, heq⟩ := toNat_of_isPlain hplain
    rw [encodeByte_plain hplain, List.mem_singleton, List.mem_singleton]
    constructor
    · intro h
      exact hamp ((toNat_ofNat_of_small hlt).symm.trans (congrArg Char.toNat h).symm)
    · intro h
      exact heq ((toNat_ofNat_of_small hlt).symm.trans (congrArg Char.toNat h).symm)
  · by_cases hspace : b = 32
    · subst hspace
      decide
    · have hdigits : ∀ c ∈ Percent.byte b, c = '%' ∨ c ∈ "0123456789ABCDEF".toList := by
        have hlt : b.toNat < 256 := b.toNat_lt
        rw [Percent.byte, List.forall_mem_cons, List.forall_mem_cons, List.forall_mem_singleton]
        exact ⟨.inl rfl, .inr (Percent.digit_mem (by omega)), .inr (Percent.digit_mem (by omega))⟩
      rw [encodeByte_other hplain hspace]
      constructor
      · intro h
        exact absurd (hdigits _ h) (by decide)
      · intro h
        exact absurd (hdigits _ h) (by decide)

lemma map_unplus_percent (b : UInt8) : (Percent.byte b).map unplus = Percent.byte b := by
  have hlt : b.toNat < 256 := b.toNat_lt
  have hdigit : ∀ n, n < 16 → unplus (Percent.digit n) = Percent.digit n := by decide
  rw [Percent.byte, List.map_cons, List.map_cons, List.map_singleton, hdigit _ (by omega),
    hdigit _ (by omega)]
  rfl

lemma decode_encodeByte (b : UInt8) (rest : Bytes) :
    Percent.decode (((encodeByte b).map unplus).flatMap String.utf8EncodeChar ++ rest) =
      b :: Percent.decode rest := by
  by_cases hplain : isPlain b = true
  · obtain ⟨hlt, hpercent, -, hplus, -⟩ := toNat_of_isPlain hplain
    have hkept : unplus (Char.ofNat b.toNat) = Char.ofNat b.toNat :=
      if_neg fun h => hplus ((toNat_ofNat_of_small hlt).symm.trans (congrArg Char.toNat h))
    rw [encodeByte_plain hplain, List.map_singleton, hkept, List.flatMap_singleton,
      Text.Utf8.utf8EncodeChar_one hlt, List.singleton_append]
    exact Percent.decode_of_ne (fun h => hpercent (congrArg UInt8.toNat h)) rest
  · by_cases hspace : b = 32
    · subst hspace
      exact Percent.decode_of_ne (by decide) rest
    · rw [encodeByte_other hplain hspace, map_unplus_percent]
      exact Percent.decode_byte b rest

/-! ### Texts -/

lemma decode_flatMap (bs rest : Bytes) :
    Percent.decode (((bs.flatMap encodeByte).map unplus).flatMap String.utf8EncodeChar ++ rest) =
      bs ++ Percent.decode rest := by
  induction bs with
  | nil => rfl
  | cons b bs ih =>
    rw [List.flatMap_cons, List.map_append, List.flatMap_append, List.append_assoc,
      decode_encodeByte, ih, List.cons_append]

lemma decode_eq (s : List Char) : decode s =
    Text.Utf8.decodeLossy (Percent.decode (Text.Utf8.encode (String.ofList (s.map unplus)))) := rfl

/-- A text is read back from its form encoding. -/
theorem decode_encode (s : String) : decode (encode s).toList = s := by
  have hbytes : Percent.decode (Text.Utf8.encode (String.ofList ((encode s).toList.map unplus))) =
      Text.Utf8.encode s := by
    have hall := decode_flatMap (Text.Utf8.encode s) []
    rw [List.append_nil, Percent.decode, List.append_nil] at hall
    rw [Text.Utf8.encode, String.toList_ofList, encode, String.toList_ofList]
    exact hall
  rw [decode_eq, hbytes, Text.Utf8.decodeLossy_of_decode? (Text.Utf8.decode?_encode s)]

lemma separator_notMem_encode (s : String) :
    '&' ∉ (encode s).toList ∧ '=' ∉ (encode s).toList := by
  rw [encode, String.toList_ofList]
  constructor
  · intro h
    obtain ⟨b, -, hb⟩ := List.mem_flatMap.mp h
    exact (separator_notMem_encodeByte b).1 hb
  · intro h
    obtain ⟨b, -, hb⟩ := List.mem_flatMap.mp h
    exact (separator_notMem_encodeByte b).2 hb

/-! ### Pairs -/

/-- The pair that a part of a query stands for. -/
def pairOf (part : List Char) : String × String :=
  match Text.splitOnce '=' part with
  | none => (decode part, "")
  | some (name, value) => (decode name, decode value)

/-- The written form of a pair. -/
def pairText (name value : String) : List Char :=
  (encode name).toList ++ '=' :: (encode value).toList

lemma pairs_some (q : String) :
    pairs (some q) = ((Text.splitAt '&' q.toList).filter (· ≠ [])).map pairOf := rfl

lemma pairOf_pairText (name value : String) : pairOf (pairText name value) = (name, value) := by
  rw [pairOf, pairText, Text.splitOnce_append (separator_notMem_encode name).2]
  dsimp only
  rw [decode_encode, decode_encode]

lemma amp_notMem_pairText (name value : String) : '&' ∉ pairText name value := by
  rw [pairText, List.mem_append, List.mem_cons, not_or, not_or]
  exact ⟨(separator_notMem_encode name).1, by decide, (separator_notMem_encode value).1⟩

lemma pairs_of_last (name value : String) {parts : List (List Char)} {q : String}
    (h : Text.splitAt '&' q.toList = parts ++ [pairText name value]) :
    pairs (some q) = (parts.filter (· ≠ [])).map pairOf ++ [(name, value)] := by
  have hne : pairText name value ≠ [] := List.append_ne_nil_of_right_ne_nil _ (List.cons_ne_nil _ _)
  have hlast : [pairText name value].filter (· ≠ []) = [pairText name value] :=
    List.filter_cons_of_pos (decide_eq_true hne)
  rw [pairs_some, h, List.filter_append, hlast, List.map_append, List.map_singleton,
    pairOf_pairText]

/-- A pair that is added to a query comes behind its pairs, whatever the query is. -/
theorem pairs_append (query : Option String) (name value : String) :
    pairs (some (append query name value)) = pairs query ++ [(name, value)] := by
  have halone : ∀ q : String, q.toList = pairText name value →
      pairs (some q) = [(name, value)] := by
    intro q hq
    have hparts : Text.splitAt '&' q.toList = [] ++ [pairText name value] := by
      rw [hq, Text.splitAt_eq_singleton (amp_notMem_pairText name value), List.nil_append]
    exact pairs_of_last name value hparts
  have htext : (encode name ++ "=" ++ encode value).toList = pairText name value := by
    simp [pairText]
  cases query with
  | none => exact halone _ htext
  | some q =>
    unfold append
    by_cases hq : q.isEmpty = true
    · have hempty : q = "" := String.isEmpty_iff.mp hq
      subst hempty
      exact halone _ htext
    · have hparts : Text.splitAt '&' (q ++ "&" ++ (encode name ++ "=" ++ encode value)).toList =
          Text.splitAt '&' q.toList ++ [pairText name value] := by
        have hamp : "&".toList = ['&'] := rfl
        rw [String.toList_append, String.toList_append, htext, hamp, List.append_assoc,
          List.singleton_append, Text.splitAt_append,
          Text.splitAt_eq_singleton (amp_notMem_pairText name value)]
      dsimp only
      rw [if_neg hq, pairs_of_last name value hparts]
      rfl

end HostedRepo.Url.Query
