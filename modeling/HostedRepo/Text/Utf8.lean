/-!
# UTF-8

Byte strings, the bytes of a text, and two readings of bytes as text: a strict one, which refuses
what is not UTF-8, and a lossy one, which puts U+FFFD for each part that cannot be continued.
-/

namespace HostedRepo

abbrev Bytes := List UInt8

namespace Text.Utf8

/-- The bytes of a text. -/
def encode (s : String) : Bytes :=
  s.toList.flatMap String.utf8EncodeChar

/-- How many bytes follow a leading byte, with the least and the greatest second byte. -/
def lead (b : UInt8) : Option (Nat × UInt8 × UInt8) :=
  if b < 0x80 then some (0, 0, 0)
  else if b < 0xc2 then none
  else if b < 0xe0 then some (1, 0x80, 0xbf)
  else if b == 0xe0 then some (2, 0xa0, 0xbf)
  else if b == 0xed then some (2, 0x80, 0x9f)
  else if b < 0xf0 then some (2, 0x80, 0xbf)
  else if b == 0xf0 then some (3, 0x90, 0xbf)
  else if b < 0xf4 then some (3, 0x80, 0xbf)
  else if b == 0xf4 then some (3, 0x80, 0x8f)
  else none

/-- What the first bytes of a non-empty byte string are: a character, or a part that no
character starts with; either comes with the number of bytes that it takes. -/
inductive Head where
  | char (c : Char) (size : Nat)
  | broken (size : Nat)

def isContinuation (b : UInt8) : Bool := 0x80 ≤ b && b ≤ 0xbf

def tailBits (b : UInt8) : Nat := b.toNat % 64

/-- Reads the character at the front of `b :: rest`. A broken part is the longest beginning of
some character, or one byte. -/
def head (b : UInt8) (rest : Bytes) : Head :=
  match lead b with
  | none => .broken 1
  | some (0, _, _) => .char (Char.ofNat b.toNat) 1
  | some (n, lo, hi) =>
    match rest with
    | [] => .broken 1
    | b₁ :: rest =>
      if b₁ < lo || hi < b₁ then .broken 1
      else if n = 1 then .char (Char.ofNat (b.toNat % 32 * 64 + tailBits b₁)) 2
      else match rest with
        | [] => .broken 2
        | b₂ :: rest =>
          if !isContinuation b₂ then .broken 2
          else if n = 2 then
            .char (Char.ofNat (b.toNat % 16 * 4096 + tailBits b₁ * 64 + tailBits b₂)) 3
          else match rest with
            | [] => .broken 3
            | b₃ :: _ =>
              if !isContinuation b₃ then .broken 3
              else .char (Char.ofNat (b.toNat % 8 * 262144 + tailBits b₁ * 4096 +
                tailBits b₂ * 64 + tailBits b₃)) 4

/-- The characters of a byte string; `none` stands for a broken part. -/
def scan (bs : Bytes) : List (Option Char) :=
  match bs with
  | [] => []
  | b :: rest =>
    match head b rest with
    | .char c n => some c :: scan (rest.drop (n - 1))
    | .broken n => none :: scan (rest.drop (n - 1))
termination_by bs.length
decreasing_by all_goals (simp only [List.length_drop, List.length_cons]; omega)

/-- The text of a byte string that is UTF-8 throughout. -/
def decode? (bs : Bytes) : Option String :=
  (scan bs).mapM id |>.map String.ofList

/-- The text of a byte string, with U+FFFD for each broken part. -/
def decodeLossy (bs : Bytes) : String :=
  String.ofList ((scan bs).map (·.getD '\ufffd'))

end Text.Utf8
end HostedRepo
