import HostedRepo.Proofs.Utf8Reading
import HostedRepo.Text.Utf16

/-!
# Reading UTF-16 back

Each character is read back from its one or two code units, whatever follows them. So the lossy
reading of the code units of a text is this text, in either order of the bytes.
-/

namespace HostedRepo.Text.Utf16

/-- The two bytes of a code unit. -/
def Order.bytes (o : Order) (unit : Nat) : Bytes :=
  match o with
  | .little => [UInt8.ofNat (unit % 256), UInt8.ofNat (unit / 256)]
  | .big => [UInt8.ofNat (unit / 256), UInt8.ofNat (unit % 256)]

/-- The bytes of a character: one code unit, or a high and a low one. -/
def encodeChar (o : Order) (c : Char) : Bytes :=
  if c.toNat < 0x10000 then o.bytes c.toNat
  else o.bytes (0xd800 + (c.toNat - 0x10000) / 0x400) ++
    o.bytes (0xdc00 + (c.toNat - 0x10000) % 0x400)

/-- The bytes of a text. -/
def encode (o : Order) (s : String) : Bytes := s.toList.flatMap (encodeChar o)

lemma exists_bytes (o : Order) {unit : Nat} (h : unit < 0x10000) :
    ∃ a b, o.bytes unit = [a, b] ∧ o.unit a b = unit := by
  have hlow : (UInt8.ofNat (unit % 256)).toNat = unit % 256 := Utf8.toNat_ofNat_of_lt (by omega)
  have hhigh : (UInt8.ofNat (unit / 256)).toNat = unit / 256 := Utf8.toNat_ofNat_of_lt (by omega)
  cases o with
  | little => exact ⟨_, _, rfl, by rw [Order.unit, hlow, hhigh]; omega⟩
  | big => exact ⟨_, _, rfl, by rw [Order.unit, hlow, hhigh]; omega⟩

lemma paired_halves {n : Nat} (hlo : 0x10000 ≤ n) :
    paired (0xd800 + (n - 0x10000) / 0x400) (0xdc00 + (n - 0x10000) % 0x400) = Char.ofNat n := by
  have hsum : 0x10000 + (0xd800 + (n - 0x10000) / 0x400 - 0xd800) * 0x400 +
      (0xdc00 + (n - 0x10000) % 0x400 - 0xdc00) = n := by
    omega
  rw [paired, hsum]

lemma scan_one {o : Order} {a b : UInt8} (hhigh : isHigh (o.unit a b) = false)
    (hlow : isLow (o.unit a b) = false) (rest : Bytes) :
    scan o (a :: b :: rest) = some (Char.ofNat (o.unit a b)) :: scan o rest := by
  rcases rest with _ | ⟨c, _ | ⟨d, rest⟩⟩ <;> simp [scan, hhigh, hlow]

lemma scan_encodeChar (o : Order) (c : Char) (rest : Bytes) :
    scan o (encodeChar o c ++ rest) = some c :: scan o rest := by
  have hvalid : c.toNat < 0xd800 ∨ 0xdfff < c.toNat ∧ c.toNat < 0x110000 := c.valid
  by_cases hone : c.toNat < 0x10000
  · obtain ⟨a, b, hbytes, hunit⟩ := exists_bytes o hone
    have hhigh : isHigh (o.unit a b) = false := by
      rw [hunit]
      simp only [isHigh, Bool.and_eq_false_iff, decide_eq_false_iff_not]
      omega
    have hlow : isLow (o.unit a b) = false := by
      rw [hunit]
      simp only [isLow, Bool.and_eq_false_iff, decide_eq_false_iff_not]
      omega
    rw [encodeChar, if_pos hone, hbytes]
    change scan o (a :: b :: rest) = _
    rw [scan_one hhigh hlow, hunit, Char.ofNat_toNat]
  · obtain ⟨a, b, hfirst, hhalf⟩ :=
      exists_bytes o (by omega : 0xd800 + (c.toNat - 0x10000) / 0x400 < 0x10000)
    obtain ⟨a', b', hsecond, hhalf'⟩ :=
      exists_bytes o (by omega : 0xdc00 + (c.toNat - 0x10000) % 0x400 < 0x10000)
    have hhigh : isHigh (o.unit a b) = true := by
      rw [hhalf]
      simp only [isHigh, Bool.and_eq_true, decide_eq_true_eq]
      omega
    have hlow : isLow (o.unit a' b') = true := by
      rw [hhalf']
      simp only [isLow, Bool.and_eq_true, decide_eq_true_eq]
      omega
    have hchar : paired (o.unit a b) (o.unit a' b') = c := by
      rw [hhalf, hhalf', paired_halves (by omega), Char.ofNat_toNat]
    rw [encodeChar, if_neg hone, hfirst, hsecond]
    simp [scan, hhigh, hlow, hchar]

lemma scan_encodeChars (o : Order) (cs : List Char) :
    scan o (cs.flatMap (encodeChar o)) = cs.map some := by
  induction cs with
  | nil => rfl
  | cons c cs ih => rw [List.flatMap_cons, scan_encodeChar, ih, List.map_cons]

/-- The code units of a text are read back as this text. -/
theorem decodeLossy_encode (o : Order) (s : String) : decodeLossy o (encode o s) = s := by
  rw [decodeLossy, encode, scan_encodeChars, List.map_map]
  apply String.toList_injective
  simp [Function.comp_def]

end HostedRepo.Text.Utf16
