import Scangen.Symbol.CaseTable
import Scangen.Symbol.Set

/-!
Case folding: a set of symbols together with the other case of each member.
-/

namespace Scangen

/-- The single-character lower-case form, or the symbol itself if there is no such form. -/
def lowerCase (c : Nat) : Nat := (lowerPairs.lookup c).getD c

/-- The single-character upper-case form, or the symbol itself if there is no such form. -/
def upperCase (c : Nat) : Nat := (upperPairs.lookup c).getD c

/-- The symbols are equal, or one of them is the lower-case or upper-case form of the other. -/
def SameLetter (x y : Nat) : Prop :=
  x = y ∨ lowerCase x = y ∨ upperCase x = y ∨ lowerCase y = x ∨ upperCase y = x

/-- Each symbol beside one of its other forms. -/
def casePairs : List (Nat × Nat) := lowerPairs ++ upperPairs

namespace SymbolSet

/-- The other forms of the members, as far as both belong to the alphabet. -/
def counterparts (s : SymbolSet) (alphabet : Alphabet) : List Nat :=
  (casePairs.filter fun (c, other) =>
    c ≤ alphabet.maxSymbol && other ≤ alphabet.maxSymbol && s.contains c).map Prod.snd

/-- Adds the lower-case and upper-case counterpart of every member. -/
def caseFold (s : SymbolSet) (alphabet : Alphabet) : SymbolSet :=
  (s.counterparts alphabet).foldr (fun c folded => folded.insert (.single c)) s

end SymbolSet

end Scangen
