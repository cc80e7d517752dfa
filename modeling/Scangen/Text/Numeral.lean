/-!
Numerals: hexadecimal text, and reading a number of at most 32 bits.
-/

namespace Scangen.Text

def hex (n : Nat) : String := String.ofList (Nat.toDigits 16 n)

/-- The value of a digit; letters of either case count from ten on. -/
def digitValue (c : Char) : Nat :=
  if '0' ≤ c ∧ c ≤ '9' then c.toNat - '0'.toNat
  else if 'a' ≤ c ∧ c ≤ 'z' then c.toNat - 'a'.toNat + 10
  else if 'A' ≤ c ∧ c ≤ 'Z' then c.toNat - 'A'.toNat + 10
  else 36

/-- The value of a row of digits after `value`; none if one of them is no digit of the base. -/
def digitsValue (base value : Nat) : List Char → Option Nat
  | [] => some value
  | c :: rest =>
    if digitValue c < base then digitsValue base (value * base + digitValue c) rest else none

/-- Reads a number of at most 32 bits: one or more digits, after a plus sign or not. -/
def readWord (base : Nat) (text : List Char) : Option Nat :=
  let digits := if text.head? = some '+' then text.tail else text
  if digits = [] then none
  else (digitsValue base 0 digits).filter (· < 0x100000000)

end Scangen.Text
