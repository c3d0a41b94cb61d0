/-!
# Blank characters

The characters with the Unicode property `White_Space`, and what trimming them leaves of a text.
-/

namespace HostedRepo.Text

/-- The 25 characters with the Unicode property `White_Space`. -/
def isBlank (c : Char) : Bool :=
  ('\t' ≤ c && c ≤ '\r') || c == ' ' || c == '\u0085' || c == '\u00a0' || c == '\u1680' ||
    ('\u2000' ≤ c && c ≤ '\u200a') || c == '\u2028' || c == '\u2029' || c == '\u202f' ||
    c == '\u205f' || c == '\u3000'

/-- A text is blank when trimming it leaves nothing. -/
def allBlank (s : String) : Bool :=
  s.toList.all isBlank

end HostedRepo.Text
