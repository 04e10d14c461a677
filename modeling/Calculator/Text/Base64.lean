/-!
# Base 64

Bytes as characters, six bits in each. Characters outside the alphabet are passed
over. The end of the text may be marked by equals signs that fill up the last
four characters; what follows them is not looked at.
-/

namespace Calculator.Text.Base64

/-- The six bits of a character of the alphabet. -/
def value? (c : Char) : Option Nat :=
  if 'A' ≤ c ∧ c ≤ 'Z' then some (c.toNat - 'A'.toNat)
  else if 'a' ≤ c ∧ c ≤ 'z' then some (c.toNat - 'a'.toNat + 26)
  else if '0' ≤ c ∧ c ≤ '9' then some (c.toNat - '0'.toNat + 52)
  else if c = '+' then some 62
  else if c = '/' then some 63
  else none

/-- The bytes of a text. `place` counts the characters of the current four, `rest`
holds their bits that no byte has taken, and `fill` counts the equals signs behind
them. -/
def decodeFrom (place rest fill : Nat) : List Char → Option (List UInt8)
  | [] => if place = 0 then some [] else none
  | c :: s =>
    if c = '=' then
      if 2 ≤ place then
        if 4 ≤ place + fill + 1 then some [] else decodeFrom place rest (fill + 1) s
      else decodeFrom place rest fill s
    else match value? c, place with
      | none, _ => decodeFrom place rest fill s
      | some v, 0 => decodeFrom 1 v 0 s
      | some v, 1 => (decodeFrom 2 (v % 16) 0 s).map ((rest * 4 + v / 16).toUInt8 :: ·)
      | some v, 2 => (decodeFrom 3 (v % 4) 0 s).map ((rest * 16 + v / 4).toUInt8 :: ·)
      | some v, _ => (decodeFrom 0 0 0 s).map ((rest * 64 + v).toUInt8 :: ·)

/-- The bytes of a text, none if it stops inside a group of four. -/
def decode? (s : List Char) : Option (List UInt8) := decodeFrom 0 0 0 s

end Calculator.Text.Base64
