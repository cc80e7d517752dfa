/-!
The two alphabets a scanner can work over: bytes, or all code points. A symbol is a number; inputs
may hold any number, and those outside the alphabet belong to no class.
-/

namespace Scangen

def lineFeed : Nat := 10

inductive Alphabet where
  | byte
  | unicode
deriving DecidableEq, Repr

namespace Alphabet

def maxSymbol : Alphabet → Nat
  | byte => 0xFF
  | unicode => 0x10FFFF

def cardinality (alphabet : Alphabet) : Nat := alphabet.maxSymbol + 1

end Alphabet

end Scangen
