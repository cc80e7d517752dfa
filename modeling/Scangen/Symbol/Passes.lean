import Scangen.Symbol.Set
import Scangen.Table.Row

/-!
Sets as plain lists of ranges whose ends are 32-bit numbers. Ranges are sorted and joined in one pass, and
each operation goes once through lists that are in order already. An end that would not fit stays
at the greatest number.
-/

namespace Scangen

/-- The greatest 32-bit number. -/
def maxWord : Nat := 0xFFFFFFFF

/-- The number behind this one, as far as there is one. -/
def nextWord (c : Nat) : Nat := min (c + 1) maxWord

/-- All ends are 32-bit numbers. -/
def WordRanges (ranges : List SymbolRange) : Prop := ∀ r ∈ ranges, r.high ≤ maxWord

namespace SymbolRange

/-- Ranges are sorted by their lower ends, and those with the same lower end by their upper ends. -/
def startsFirst (a b : SymbolRange) : Bool := a.low < b.low || (a.low == b.low && a.high ≤ b.high)

/-- Makes the upper end large enough for both. -/
def extend (a b : SymbolRange) : SymbolRange :=
  ⟨a.low, max a.high b.high, Nat.le_trans a.low_le_high (Nat.le_max_left _ _)⟩

end SymbolRange

namespace Passes

open SymbolRange

/-- Joins each range to the last one if it overlaps or touches it. -/
def joinTo (last : SymbolRange) : List SymbolRange → List SymbolRange
  | [] => [last]
  | r :: rest =>
    if r.low ≤ nextWord last.high then joinTo (last.extend r) rest else last :: joinTo r rest

def join : List SymbolRange → List SymbolRange
  | [] => []
  | first :: rest => joinTo first rest

/-- Any ranges, in order and joined. -/
def normalize (ranges : List SymbolRange) : List SymbolRange := join (ranges.mergeSort startsFirst)

/-- Halves the ranges until one is left that may hold the symbol. -/
def search (ranges : List SymbolRange) (c : Nat) : Bool :=
  let entries := (ranges.map fun r => (r.low, some r.high)).toArray
  match entries[Row.locate entries c entries.size 0 entries.size]? with
  | some (low, some high) => low ≤ c && c ≤ high
  | _ => false

/-- What is left behind the last range. -/
def remainder (max next : Nat) : Except InvertedRange (List SymbolRange) :=
  if next ≤ max then (ofBounds next max).map fun r => [r] else .ok []

/-- What the ranges leave out from `next` up to `max`. Ranges above `max` are not looked at. -/
def negateFrom (max next : Nat) : List SymbolRange → Except InvertedRange (List SymbolRange)
  | [] => remainder max next
  | r :: rest =>
    if max < r.low then remainder max next
    else if next < r.low then do
      let gap ← ofBounds next (r.low - 1)
      return gap :: (← negateFrom max (nextWord r.high) rest)
    else negateFrom max (nextWord r.high) rest

def negate (alphabet : Alphabet) (ranges : List SymbolRange) :
    Except InvertedRange (List SymbolRange) :=
  negateFrom alphabet.maxSymbol 0 ranges

/-- Cuts off what lies above the alphabet. -/
def clamp (alphabet : Alphabet) (ranges : List SymbolRange) :
    Except InvertedRange (List SymbolRange) :=
  (ranges.filter fun r => r.low ≤ alphabet.maxSymbol).mapM fun r =>
    ofBounds r.low (min r.high alphabet.maxSymbol)

end Passes

/-- How a set is put together. -/
inductive Combination where
  | ofRanges (ranges : List SymbolRange)
  | single (c : Nat)
  | full (alphabet : Alphabet)
  | union (first second : Combination)
  | negate (inner : Combination) (alphabet : Alphabet)
  | clamp (inner : Combination) (alphabet : Alphabet)

namespace Combination

/-- The set. -/
def value : Combination → SymbolSet
  | ofRanges ranges => .ofRanges ranges
  | single c => .single c
  | full alphabet => .full alphabet
  | union first second => first.value.union second.value
  | negate inner alphabet => inner.value.complement alphabet
  | clamp inner alphabet => inner.value.restrict alphabet

/-- Its ranges, pass by pass. An inverted range on the way is an error. -/
def passes : Combination → Except InvertedRange (List SymbolRange)
  | ofRanges ranges => .ok (Passes.normalize ranges)
  | single c => .ok [.single c]
  | full alphabet => (SymbolRange.ofBounds 0 alphabet.maxSymbol).map fun r => [r]
  | union first second => do return Passes.normalize ((← first.passes) ++ (← second.passes))
  | negate inner alphabet => do Passes.negate alphabet (← inner.passes)
  | clamp inner alphabet => do Passes.clamp alphabet (← inner.passes)

/-- The symbols that should be in the set. -/
def Holds : Combination → Nat → Prop
  | ofRanges ranges, c => ∃ r ∈ ranges, c ∈ r
  | single a, c => c = a
  | full alphabet, c => c ≤ alphabet.maxSymbol
  | union first second, c => first.Holds c ∨ second.Holds c
  | negate inner alphabet, c => c ≤ alphabet.maxSymbol ∧ ¬inner.Holds c
  | clamp inner alphabet, c => inner.Holds c ∧ c ≤ alphabet.maxSymbol

/-- All ends that are given are 32-bit numbers. -/
def InWords : Combination → Prop
  | ofRanges ranges => WordRanges ranges
  | single c => c ≤ maxWord
  | full _ => True
  | union first second => first.InWords ∧ second.InWords
  | negate inner _ => inner.InWords
  | clamp inner _ => inner.InWords

end Combination

end Scangen
