import HostedRepo.Text.Utf8

/-!
# Percent encoding

A character outside the allowed ones is written as its UTF-8 bytes, each as a percent sign and two
upper-case hexadecimal digits. The sets below say what each part of a URL does not allow.
-/

namespace HostedRepo.Url.Percent

/-- The upper-case hexadecimal digit of a number below 16. -/
def digit (n : Nat) : Char :=
  if n < 10 then Char.ofNat (48 + n) else Char.ofNat (55 + n)

/-- A byte as a percent sign and two digits. -/
def byte (b : UInt8) : List Char :=
  ['%', digit (b.toNat / 16), digit (b.toNat % 16)]

/-- All bytes of a character, encoded. -/
def char (c : Char) : List Char :=
  (String.utf8EncodeChar c).flatMap byte

/-- Encodes the characters of a set. -/
def encode (set : Char → Bool) (s : List Char) : List Char :=
  s.flatMap fun c => if set c then char c else [c]

/-- The value of a hexadecimal digit of either case, given by its byte. -/
def value (b : UInt8) : Option UInt8 :=
  if 48 ≤ b && b ≤ 57 then some (b - 48)
  else if 65 ≤ b && b ≤ 70 then some (b - 55)
  else if 97 ≤ b && b ≤ 102 then some (b - 87)
  else none

/-- Reads encoded bytes back; a percent sign without two digits stands for itself. -/
def decode : Bytes → Bytes
  | 37 :: h :: l :: rest =>
    match value h, value l with
    | some x, some y => (x * 16 + y) :: decode rest
    | _, _ => 37 :: decode (h :: l :: rest)
  | b :: rest => b :: decode rest
  | [] => []

def controls (c : Char) : Bool := c < ' ' || '~' < c

def fragment (c : Char) : Bool := controls c || " \"<>`".toList.contains c

def query (c : Char) : Bool := controls c || " \"#<>".toList.contains c

def specialQuery (c : Char) : Bool := query c || c == '\''

def path (c : Char) : Bool := fragment c || "#?\x7b\x7d".toList.contains c

def userinfo (c : Char) : Bool := path c || "/:;=@[\\]^|".toList.contains c

/-- What a single segment does not allow when it is put into a path. -/
def segment (c : Char) : Bool := path c || c == '/' || c == '%'

def specialSegment (c : Char) : Bool := segment c || c == '\\'

end HostedRepo.Url.Percent
