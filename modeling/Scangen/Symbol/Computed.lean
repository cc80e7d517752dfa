import Scangen.Symbol.Set
import Scangen.Table.Computed

/-!
The arithmetic that counts the members of a set. The symbols of a range are counted in 32 bits, and what
the ranges hold is added up in 64 bits.
-/

namespace Scangen

/-- How many symbols the range holds. -/
def SymbolRange.count (r : SymbolRange) : Nat := r.high - r.low + 1

namespace SymbolSet

/-- The sums for some ranges, behind others that hold so many symbols. -/
def computedFrom (before : Nat) : List SymbolRange → List Computed
  | [] => []
  | r :: rest => ⟨32, r.count⟩ :: ⟨64, before + r.count⟩ :: computedFrom (before + r.count) rest

/-- All sums on the way to the number of members, in order. -/
def computed (s : SymbolSet) : List Computed := computedFrom 0 s.ranges

end SymbolSet

end Scangen
