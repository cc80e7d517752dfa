import Scangen.Symbol.Passes
import Scangen.Text.LetterCase

/-!
Case folding as a loop over the letters of a set, for any assignment of lower-case and upper-case
letters.
-/

namespace Scangen

/-- The lower-case and the upper-case letter of a letter, as far as they are single characters. A letter
without case has itself. -/
structure CaseMapping where
  lower : Nat → Option Nat
  upper : Nat → Option Nat

namespace CaseMapping

def forms (mapping : CaseMapping) (c : Nat) : List Nat :=
  (mapping.lower c).toList ++ (mapping.upper c).toList

/-- The one character of a text that has just one. -/
def onlyCharacter : List Char → Option Nat
  | [c] => some c.toNat
  | _ => none

/-- The full case forms of letters, without those of several characters. -/
def simple : CaseMapping where
  lower c := onlyCharacter (Text.lower (Char.ofNat c))
  upper c := onlyCharacter (Text.upper (Char.ofNat c))

end CaseMapping

/-- The greatest letter that differs from one of its forms. -/
def maxCased : Nat := 0x1E943

namespace Passes

/-- What the letters of a range up to `max` add. Surrogates are no letters, and forms within the range are
there already. -/
def newForms (mapping : CaseMapping) (alphabet : Alphabet) (max : Nat) (r : SymbolRange) :
    List Nat :=
  (List.range' r.low (min r.high max + 1 - r.low)).flatMap fun c =>
    if c.isValidChar then
      (mapping.forms c).filter fun form =>
        form ≠ c && form ≤ alphabet.maxSymbol && !r.contains form
    else []

/-- What all ranges add. Those above `max` are not looked at. -/
def newFormsOfAll (mapping : CaseMapping) (alphabet : Alphabet) (max : Nat) :
    List SymbolRange → List Nat
  | [] => []
  | r :: rest =>
    if max < r.low then []
    else newForms mapping alphabet max r ++ newFormsOfAll mapping alphabet max rest

/-- Adds the forms of all letters. If there is nothing to add, the ranges stay as they are. -/
def fold (mapping : CaseMapping) (alphabet : Alphabet) (ranges : List SymbolRange) :
    List SymbolRange :=
  let added := newFormsOfAll mapping alphabet (min alphabet.maxSymbol maxCased) ranges
  if added.isEmpty then ranges else normalize (ranges ++ added.map .single)

end Passes

/-- The symbol is a form of a letter of the set. It belongs to the alphabet, and so does the letter, which is
none of those behind the last cased one. -/
def CaseMapping.Adds (mapping : CaseMapping) (alphabet : Alphabet) (s : SymbolSet) (x : Nat) : Prop :=
  x ≤ alphabet.maxSymbol ∧ ∃ c ∈ s, c.isValidChar ∧ c ≤ min alphabet.maxSymbol maxCased ∧
    (mapping.lower c = some x ∨ mapping.upper c = some x)

end Scangen
