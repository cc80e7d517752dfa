import Scangen.Symbol.CaseFold

/-!
How literals and classes are read: over which alphabet, and whether the case of letters counts.
-/

namespace Scangen

structure Charset where
  alphabet : Alphabet
  caseAgnostic : Bool
deriving DecidableEq

/-- A class as written: its ranges, or all symbols but these. -/
structure SymbolClass where
  ranges : SymbolSet
  negated : Bool
deriving DecidableEq

namespace SymbolClass

/-- Every symbol but a line feed. -/
def anyButLineFeed : SymbolClass := ⟨.single lineFeed, true⟩

/-- The symbols of the class. The other case of its ranges is added before they are negated, so
that a negated class leaves out a letter in both cases. -/
def resolve (c : SymbolClass) (charset : Charset) : SymbolSet :=
  let inside := c.ranges.restrict charset.alphabet
  let folded := if charset.caseAgnostic then inside.caseFold charset.alphabet else inside
  if c.negated then folded.complement charset.alphabet else folded

end SymbolClass

/-- The symbols that a literal symbol stands for. -/
def literalSet (c : Nat) (charset : Charset) : SymbolSet :=
  SymbolClass.resolve ⟨.single c, false⟩ charset

end Scangen
