import HostedRepo.Text.Utf8
import Mathlib.Tactic.Common

/-!
# Reading UTF-8 back

Each character is read back from its bytes, so every text is what the strict reading makes of its
bytes. The other way round the bytes of a character can only be read as this character, so what is
read strictly or without a broken part gives its bytes back.
-/

namespace HostedRepo.Text.Utf8

/-! ### Leading bytes -/

lemma lead_one {b : UInt8} (h : b.toNat < 0x80) : lead b = some (0, 0, 0) := by
  unfold lead
  simp only [UInt8.lt_iff_toNat_lt]
  grind

lemma lead_two {b : UInt8} (hlo : 0xc2 ≤ b.toNat) (hhi : b.toNat < 0xe0) :
    lead b = some (1, 0x80, 0xbf) := by
  unfold lead
  simp only [UInt8.lt_iff_toNat_lt]
  grind

lemma lead_three {b : UInt8} (hlo : 0xe0 ≤ b.toNat) (hhi : b.toNat < 0xf0) :
    lead b = some (2, if b.toNat = 0xe0 then 0xa0 else 0x80,
      if b.toNat = 0xed then 0x9f else 0xbf) := by
  unfold lead
  simp only [UInt8.lt_iff_toNat_lt, beq_iff_eq, ← UInt8.toNat_inj]
  grind

lemma lead_four {b : UInt8} (hlo : 0xf0 ≤ b.toNat) (hhi : b.toNat < 0xf5) :
    lead b = some (3, if b.toNat = 0xf0 then 0x90 else 0x80,
      if b.toNat = 0xf4 then 0x8f else 0xbf) := by
  unfold lead
  simp only [UInt8.lt_iff_toNat_lt, beq_iff_eq, ← UInt8.toNat_inj]
  grind

lemma lead_none {b : UInt8} (hlo : 0x80 ≤ b.toNat) (h : b.toNat < 0xc2 ∨ 0xf5 ≤ b.toNat) :
    lead b = none := by
  unfold lead
  simp only [UInt8.lt_iff_toNat_lt, beq_iff_eq, ← UInt8.toNat_inj]
  grind

/-! ### Characters -/

section

variable {b b₁ b₂ b₃ : UInt8}

lemma head_one (h : b.toNat < 0x80) (rest : Bytes) :
    head b rest = .char (Char.ofNat b.toNat) 1 := by
  unfold head
  rw [lead_one h]
  rfl

lemma head_two (h : 0xc2 ≤ b.toNat ∧ b.toNat < 0xe0) (h₁ : 0x80 ≤ b₁.toNat ∧ b₁.toNat ≤ 0xbf)
    (rest : Bytes) : head b (b₁ :: rest) =
      .char (Char.ofNat (b.toNat % 32 * 64 + b₁.toNat % 64)) 2 := by
  have hin : (b₁ < 0x80 || 0xbf < b₁) = false := by
    simp only [UInt8.lt_iff_toNat_lt]
    grind
  unfold head
  rw [lead_two h.1 h.2]
  simp [hin, tailBits]

lemma isContinuation_iff :
    isContinuation b = true ↔ 0x80 ≤ b.toNat ∧ b.toNat ≤ 0xbf := by
  simp only [isContinuation, UInt8.le_iff_toNat_le, Bool.and_eq_true, decide_eq_true_eq]
  rfl

lemma head_three (h : 0xe0 ≤ b.toNat ∧ b.toNat < 0xf0)
    (h₁ : (if b.toNat = 0xe0 then 0xa0 else 0x80) ≤ b₁.toNat ∧
      b₁.toNat ≤ if b.toNat = 0xed then 0x9f else 0xbf)
    (h₂ : 0x80 ≤ b₂.toNat ∧ b₂.toNat ≤ 0xbf) (rest : Bytes) :
    head b (b₁ :: b₂ :: rest) = .char
      (Char.ofNat (b.toNat % 16 * 4096 + b₁.toNat % 64 * 64 + b₂.toNat % 64)) 3 := by
  have hin : (decide (b₁ < if b.toNat = 0xe0 then 0xa0 else 0x80) ||
      decide ((if b.toNat = 0xed then 0x9f else 0xbf) < b₁)) = false := by
    simp only [UInt8.lt_iff_toNat_lt, apply_ite UInt8.toNat]
    grind
  unfold head
  rw [lead_three h.1 h.2]
  simp [hin, isContinuation_iff.mpr h₂, tailBits]

lemma head_four (h : 0xf0 ≤ b.toNat ∧ b.toNat < 0xf5)
    (h₁ : (if b.toNat = 0xf0 then 0x90 else 0x80) ≤ b₁.toNat ∧
      b₁.toNat ≤ if b.toNat = 0xf4 then 0x8f else 0xbf)
    (h₂ : 0x80 ≤ b₂.toNat ∧ b₂.toNat ≤ 0xbf) (h₃ : 0x80 ≤ b₃.toNat ∧ b₃.toNat ≤ 0xbf)
    (rest : Bytes) :
    head b (b₁ :: b₂ :: b₃ :: rest) = .char (Char.ofNat (b.toNat % 8 * 262144 +
      b₁.toNat % 64 * 4096 + b₂.toNat % 64 * 64 + b₃.toNat % 64)) 4 := by
  have hin : (decide (b₁ < if b.toNat = 0xf0 then 0x90 else 0x80) ||
      decide ((if b.toNat = 0xf4 then 0x8f else 0xbf) < b₁)) = false := by
    simp only [UInt8.lt_iff_toNat_lt, apply_ite UInt8.toNat]
    grind
  unfold head
  rw [lead_four h.1 h.2]
  simp [hin, isContinuation_iff.mpr h₂, isContinuation_iff.mpr h₃, tailBits]

end

lemma toNat_ofNat_of_lt {n : Nat} (h : n < 256) : (UInt8.ofNat n).toNat = n := by
  rw [UInt8.toNat_ofNat']
  exact Nat.mod_eq_of_lt h

lemma head_utf8EncodeChar (c : Char) (rest : Bytes) :
    ∃ b bs, String.utf8EncodeChar c = b :: bs ∧ head b (bs ++ rest) = .char c (bs.length + 1) := by
  have hvalid : c.val.toNat < 0xd800 ∨ (0xdfff < c.val.toNat ∧ c.val.toNat < 0x110000) := c.valid
  have hc : ∀ n, n = c.val.toNat → Char.ofNat n = c := by
    rintro n rfl
    exact Char.ofNat_toNat c
  unfold String.utf8EncodeChar
  generalize c.val.toNat = v at hvalid hc
  dsimp only
  have h₀ : (UInt8.ofNat (v % 64 + 128)).toNat = v % 64 + 128 := toNat_ofNat_of_lt (by omega)
  have h₆ : (UInt8.ofNat (v / 64 % 64 + 128)).toNat = v / 64 % 64 + 128 :=
    toNat_ofNat_of_lt (by omega)
  split
  · refine ⟨_, _, rfl, ?_⟩
    have h : (UInt8.ofNat v).toNat = v := toNat_ofNat_of_lt (by omega)
    rw [head_one (by omega), hc _ h]
    rfl
  · split
    · have h : (UInt8.ofNat (v / 64 % 32 + 192)).toNat = v / 64 % 32 + 192 :=
        toNat_ofNat_of_lt (by omega)
      refine ⟨_, _, rfl, ?_⟩
      rw [List.cons_append, head_two (by omega) (by omega), hc _ (by omega)]
      rfl
    · split
      · have h : (UInt8.ofNat (v / 4096 % 16 + 224)).toNat = v / 4096 % 16 + 224 :=
          toNat_ofNat_of_lt (by omega)
        refine ⟨_, _, rfl, ?_⟩
        rw [List.cons_append, List.cons_append, head_three (by omega) (by grind) (by omega),
          hc _ (by omega)]
        rfl
      · have h : (UInt8.ofNat (v / 262144 % 8 + 240)).toNat = v / 262144 % 8 + 240 :=
          toNat_ofNat_of_lt (by omega)
        have h₁₂ : (UInt8.ofNat (v / 4096 % 64 + 128)).toNat = v / 4096 % 64 + 128 :=
          toNat_ofNat_of_lt (by omega)
        refine ⟨_, _, rfl, ?_⟩
        rw [List.cons_append, List.cons_append, List.cons_append,
          head_four (by omega) (by grind) (by omega) (by omega), hc _ (by omega)]
        rfl

lemma scan_utf8EncodeChar (c : Char) (rest : Bytes) :
    scan (String.utf8EncodeChar c ++ rest) = some c :: scan rest := by
  obtain ⟨b, bs, hbytes, hhead⟩ := head_utf8EncodeChar c rest
  rw [hbytes, List.cons_append, scan, hhead]
  simp

lemma scan_flatMap (s : List Char) : scan (s.flatMap String.utf8EncodeChar) = s.map some := by
  induction s with
  | nil => rw [List.flatMap_nil, scan, List.map_nil]
  | cons c s ih => rw [List.flatMap_cons, scan_utf8EncodeChar, ih, List.map_cons]

/-- The bytes of a text are read back as this text. -/
theorem decode?_encode (s : String) : decode? (encode s) = some s := by
  have hread : (s.toList.map some).mapM id = some s.toList := by
    have hpure := List.mapM_pure (m := Option) (l := s.toList) (f := id)
    simpa [List.mapM_map] using hpure
  rw [decode?, encode, scan_flatMap, hread, Option.map_some, String.ofList_toList]

/-! ### Writing what was read -/

section

variable {b b₁ b₂ b₃ : UInt8} {c : Char} {n : Nat} {rest : Bytes}

lemma eq_ofNat {b : UInt8} {n : Nat} (hn : n = b.toNat) : UInt8.ofNat n = b := by
  rw [hn]
  exact UInt8.ofNat_toNat

lemma toNat_val_ofNat {v : Nat} (h : v < 0xd800 ∨ (0xdfff < v ∧ v < 0x110000)) :
    (Char.ofNat v).val.toNat = v := by
  have hvalid : v.isValidChar := h
  rw [Char.ofNat, dif_pos hvalid]
  rfl

lemma utf8EncodeChar_one (h : b.toNat < 0x80) :
    String.utf8EncodeChar (Char.ofNat b.toNat) = [b] := by
  unfold String.utf8EncodeChar
  rw [toNat_val_ofNat (by omega)]
  dsimp only
  rw [if_pos (by omega), eq_ofNat rfl]

lemma utf8EncodeChar_two (h : 0xc2 ≤ b.toNat ∧ b.toNat < 0xe0)
    (h₁ : 0x80 ≤ b₁.toNat ∧ b₁.toNat ≤ 0xbf) :
    String.utf8EncodeChar (Char.ofNat (b.toNat % 32 * 64 + b₁.toNat % 64)) = [b, b₁] := by
  unfold String.utf8EncodeChar
  rw [toNat_val_ofNat (by omega)]
  dsimp only
  rw [if_neg (by omega), if_pos (by omega), eq_ofNat (b := b) (by omega),
    eq_ofNat (b := b₁) (by omega)]

lemma utf8EncodeChar_three (h : 0xe0 ≤ b.toNat ∧ b.toNat < 0xf0)
    (h₁ : (if b.toNat = 0xe0 then 0xa0 else 0x80) ≤ b₁.toNat ∧
      b₁.toNat ≤ if b.toNat = 0xed then 0x9f else 0xbf)
    (h₂ : 0x80 ≤ b₂.toNat ∧ b₂.toNat ≤ 0xbf) :
    String.utf8EncodeChar (Char.ofNat
      (b.toNat % 16 * 4096 + b₁.toNat % 64 * 64 + b₂.toNat % 64)) = [b, b₁, b₂] := by
  have hlo : 0x80 ≤ b₁.toNat ∧ b₁.toNat ≤ 0xbf ∧ (b.toNat = 0xe0 → 0xa0 ≤ b₁.toNat) ∧
      (b.toNat = 0xed → b₁.toNat ≤ 0x9f) := by grind
  unfold String.utf8EncodeChar
  rw [toNat_val_ofNat (by omega)]
  dsimp only
  rw [if_neg (by omega), if_neg (by omega), if_pos (by omega), eq_ofNat (b := b) (by omega),
    eq_ofNat (b := b₁) (by omega), eq_ofNat (b := b₂) (by omega)]

lemma utf8EncodeChar_four (h : 0xf0 ≤ b.toNat ∧ b.toNat < 0xf5)
    (h₁ : (if b.toNat = 0xf0 then 0x90 else 0x80) ≤ b₁.toNat ∧
      b₁.toNat ≤ if b.toNat = 0xf4 then 0x8f else 0xbf)
    (h₂ : 0x80 ≤ b₂.toNat ∧ b₂.toNat ≤ 0xbf) (h₃ : 0x80 ≤ b₃.toNat ∧ b₃.toNat ≤ 0xbf) :
    String.utf8EncodeChar (Char.ofNat (b.toNat % 8 * 262144 +
      b₁.toNat % 64 * 4096 + b₂.toNat % 64 * 64 + b₃.toNat % 64)) = [b, b₁, b₂, b₃] := by
  have hlo : 0x80 ≤ b₁.toNat ∧ b₁.toNat ≤ 0xbf ∧ (b.toNat = 0xf0 → 0x90 ≤ b₁.toNat) ∧
      (b.toNat = 0xf4 → b₁.toNat ≤ 0x8f) := by grind
  unfold String.utf8EncodeChar
  rw [toNat_val_ofNat (by omega)]
  dsimp only
  rw [if_neg (by omega), if_neg (by omega), if_neg (by omega), eq_ofNat (b := b) (by omega),
    eq_ofNat (b := b₁) (by omega), eq_ofNat (b := b₂) (by omega), eq_ofNat (b := b₃) (by omega)]

lemma not_outside_iff {b lo hi : UInt8} :
    ¬(b < lo || hi < b) = true ↔ lo.toNat ≤ b.toNat ∧ b.toNat ≤ hi.toNat := by
  simp only [UInt8.lt_iff_toNat_lt, Bool.or_eq_true, decide_eq_true_eq]
  omega

lemma head_eq_char_of_lead {k : Nat} {lo hi : UInt8} (hl : lead b = some (k + 1, lo, hi))
    (h : head b rest = .char c n) :
    ∃ b₁ tail, rest = b₁ :: tail ∧ (lo.toNat ≤ b₁.toNat ∧ b₁.toNat ≤ hi.toNat) ∧
      ((k = 0 ∧ n = 2 ∧ c = Char.ofNat (b.toNat % 32 * 64 + b₁.toNat % 64)) ∨
      ∃ b₂ tail₂, tail = b₂ :: tail₂ ∧ (0x80 ≤ b₂.toNat ∧ b₂.toNat ≤ 0xbf) ∧
        ((k = 1 ∧ n = 3 ∧ c = Char.ofNat
          (b.toNat % 16 * 4096 + b₁.toNat % 64 * 64 + b₂.toNat % 64)) ∨
        ∃ b₃ tail₃, tail₂ = b₃ :: tail₃ ∧ (0x80 ≤ b₃.toNat ∧ b₃.toNat ≤ 0xbf) ∧
          k ≠ 0 ∧ k ≠ 1 ∧ n = 4 ∧ c = Char.ofNat (b.toNat % 8 * 262144 +
            b₁.toNat % 64 * 4096 + b₂.toNat % 64 * 64 + b₃.toNat % 64))) := by
  rw [head, hl] at h
  split at h
  · next heq => cases heq
  · next heq => cases heq
  next heq =>
  cases heq
  obtain _ | ⟨b₁, tail⟩ := rest
  · cases h
  dsimp only at h
  split at h
  · cases h
  next h₁ =>
  refine ⟨b₁, tail, rfl, not_outside_iff.mp h₁, ?_⟩
  split at h
  · next hk =>
    cases h
    exact .inl ⟨by omega, rfl, rfl⟩
  next hk =>
  obtain _ | ⟨b₂, tail⟩ := tail
  · cases h
  dsimp only at h
  split at h
  · cases h
  next h₂ =>
  refine .inr ⟨b₂, tail, rfl, isContinuation_iff.mp (by simpa using h₂), ?_⟩
  split at h
  · next hk =>
    cases h
    exact .inl ⟨by omega, rfl, rfl⟩
  next hk =>
  obtain _ | ⟨b₃, tail⟩ := tail
  · cases h
  dsimp only at h
  split at h
  · cases h
  next h₃ =>
  cases h
  exact .inr ⟨b₃, tail, rfl, isContinuation_iff.mp (by simpa using h₃), by omega, by omega, rfl,
    rfl⟩

/-- The bytes that a character is read from are the bytes of this character. -/
lemma head_eq_char (h : head b rest = .char c n) :
    String.utf8EncodeChar c ++ rest.drop (n - 1) = b :: rest := by
  by_cases h₀ : b.toNat < 0x80
  · rw [head_one h₀] at h
    cases h
    rw [utf8EncodeChar_one h₀]
    rfl
  by_cases hnone : b.toNat < 0xc2 ∨ 0xf5 ≤ b.toNat
  · rw [head, lead_none (by omega) hnone] at h
    cases h
  by_cases h₁ : b.toNat < 0xe0
  · have hb : 0xc2 ≤ b.toNat ∧ b.toNat < 0xe0 := by omega
    obtain ⟨b₁, tail, rfl, hb₁, ⟨-, rfl, rfl⟩ | ⟨b₂, tail, rfl, hb₂, h⟩⟩ :=
      head_eq_char_of_lead (lead_two hb.1 hb.2) h
    · rw [utf8EncodeChar_two hb hb₁]
      rfl
    · obtain ⟨hk, -⟩ | ⟨_, _, -, -, hk, -⟩ := h <;> omega
  by_cases h₂ : b.toNat < 0xf0
  · have hb : 0xe0 ≤ b.toNat ∧ b.toNat < 0xf0 := by omega
    obtain ⟨b₁, tail, rfl, hb₁, ⟨hk, -⟩ | ⟨b₂, tail, rfl, hb₂, h⟩⟩ :=
      head_eq_char_of_lead (lead_three hb.1 hb.2) h
    · omega
    · simp only [apply_ite UInt8.toNat] at hb₁
      obtain ⟨-, rfl, rfl⟩ | ⟨_, _, -, -, -, hk, -⟩ := h
      · rw [utf8EncodeChar_three hb hb₁ hb₂]
        rfl
      · omega
  · have hb : 0xf0 ≤ b.toNat ∧ b.toNat < 0xf5 := by omega
    obtain ⟨b₁, tail, rfl, hb₁, ⟨hk, -⟩ | ⟨b₂, tail, rfl, hb₂, h⟩⟩ :=
      head_eq_char_of_lead (lead_four hb.1 hb.2) h
    · omega
    · simp only [apply_ite UInt8.toNat] at hb₁
      obtain ⟨hk, -⟩ | ⟨b₃, tail, rfl, hb₃, -, -, rfl, rfl⟩ := h
      · omega
      · rw [utf8EncodeChar_four hb hb₁ hb₂ hb₃]
        rfl

lemma flatMap_of_scan {bs : Bytes} {s : List Char} (h : scan bs = s.map some) :
    s.flatMap String.utf8EncodeChar = bs := by
  induction s generalizing bs with
  | nil =>
    cases bs with
    | nil => rfl
    | cons b rest =>
      rw [scan] at h
      split at h <;> cases h
  | cons c s ih =>
    cases bs with
    | nil =>
      rw [scan] at h
      cases h
    | cons b rest =>
      rw [scan] at h
      split at h
      · next c' n hhead =>
        obtain ⟨hc, hs⟩ := List.cons.inj h
        cases hc
        rw [List.flatMap_cons, ih hs, head_eq_char hhead]
      · cases h

end

lemma mapM_id_eq_some {α : Type} {xs : List (Option α)} {ys : List α}
    (h : xs.mapM id = some ys) : xs = ys.map some := by
  induction xs generalizing ys with
  | nil =>
    cases h
    rfl
  | cons x xs ih =>
    rw [List.mapM_cons] at h
    obtain ⟨y, hy, h⟩ := Option.bind_eq_some_iff.mp h
    obtain ⟨zs, hzs, h⟩ := Option.bind_eq_some_iff.mp h
    cases h
    rw [ih hzs, show x = some y from hy, List.map_cons]

/-- Bytes are read strictly as a text exactly when they are the bytes of this text. -/
theorem decode?_eq_some_iff {bs : Bytes} {s : String} : decode? bs = some s ↔ encode s = bs := by
  constructor
  · intro h
    obtain ⟨cs, hcs, rfl⟩ := Option.map_eq_some_iff.mp h
    rw [encode, String.toList_ofList]
    exact flatMap_of_scan (mapM_id_eq_some hcs)
  · rintro rfl
    exact decode?_encode s

lemma decodeLossy_of_decode? {bs : Bytes} {s : String} (h : decode? bs = some s) :
    decodeLossy bs = s := by
  rw [← decode?_eq_some_iff.mp h, decodeLossy, encode, scan_flatMap, List.map_map]
  have hid : (fun o : Option Char => o.getD '\ufffd') ∘ some = id := rfl
  rw [hid, List.map_id, String.ofList_toList]

/-- The lossy reading keeps bytes exactly when they are UTF-8. -/
theorem encode_decodeLossy_eq_iff {bs : Bytes} :
    encode (decodeLossy bs) = bs ↔ (decode? bs).isSome = true := by
  constructor
  · intro h
    rw [← h, decode?_encode]
    rfl
  · intro h
    obtain ⟨s, hs⟩ := Option.isSome_iff_exists.mp h
    rw [decodeLossy_of_decode? hs]
    exact decode?_eq_some_iff.mp hs

end HostedRepo.Text.Utf8
