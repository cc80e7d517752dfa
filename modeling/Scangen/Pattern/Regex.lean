import Scangen.Symbol.Charset

/-!
Regular expressions over symbols and the symbol sets they are made of.
-/

namespace Scangen

inductive Regex where
  | alternation (alternates : List Regex)
  | concatenation (factors : List Regex)
  | star (inner : Regex)
  | plus (inner : Regex)
  | optional (inner : Regex)
  /-- From `least` to `most` times, without an upper limit if there is no `most`. -/
  | repetition (inner : Regex) (least : Nat) (most : Option Nat)
  | symbol (c : Nat)
  | symbolClass (c : SymbolClass)
  /-- The empty word. -/
  | empty
deriving Inhabited

namespace Regex

/-- One expression as it is, several as a concatenation. -/
def sequence : List Regex → Regex
  | [] => empty
  | [factor] => factor
  | factors => concatenation factors

/-- The expression that matches just these symbols. -/
def literal (symbols : List Nat) : Regex := sequence (symbols.map symbol)

mutual

/-- The symbol sets of all literals and classes, from left to right. -/
def symbolSets (charset : Charset) : Regex → List SymbolSet
  | alternation alternates => symbolSetsOfAll charset alternates
  | concatenation factors => symbolSetsOfAll charset factors
  | star inner => symbolSets charset inner
  | plus inner => symbolSets charset inner
  | optional inner => symbolSets charset inner
  | repetition inner _ _ => symbolSets charset inner
  | symbol c => [literalSet c charset]
  | symbolClass c => [c.resolve charset]
  | empty => []

def symbolSetsOfAll (charset : Charset) : List Regex → List SymbolSet
  | [] => []
  | first :: rest => symbolSets charset first ++ symbolSetsOfAll charset rest

end

end Regex

end Scangen
