import Scangen.Symbol.Alphabet
import Scangen.Text.Numeral

/-!
Ranges of symbols with both ends included.
-/

namespace Scangen

structure SymbolRange where
  low : Nat
  high : Nat
  low_le_high : low ≤ high
deriving DecidableEq

/-- A range whose ends are the wrong way round. -/
structure InvertedRange where
  low : Nat
  high : Nat
deriving DecidableEq

def InvertedRange.message (bad : InvertedRange) : String :=
  s!"inverted range 0x{Text.hex bad.low}..0x{Text.hex bad.high}"

namespace SymbolRange

def ofBounds (low high : Nat) : Except InvertedRange SymbolRange :=
  if ordered : low ≤ high then .ok ⟨low, high, ordered⟩ else .error ⟨low, high⟩

def single (c : Nat) : SymbolRange := ⟨c, c, Nat.le_refl c⟩

def contains (r : SymbolRange) (c : Nat) : Bool := r.low ≤ c && c ≤ r.high

instance : Membership Nat SymbolRange := ⟨fun r c => r.low ≤ c ∧ c ≤ r.high⟩

instance (c : Nat) (r : SymbolRange) : Decidable (c ∈ r) :=
  inferInstanceAs (Decidable (r.low ≤ c ∧ c ≤ r.high))

/-- How many symbols the range holds, counted in 32 bits. -/
def width (r : SymbolRange) : UInt32 := (r.high - r.low + 1).toUInt32

/-- The range ends before the other starts, with at least one symbol between the two. -/
def Before (a b : SymbolRange) : Prop := a.high + 1 < b.low

instance (a b : SymbolRange) : Decidable (a.Before b) :=
  inferInstanceAs (Decidable (a.high + 1 < b.low))

/-- The least range that holds both. -/
def hull (a b : SymbolRange) : SymbolRange :=
  ⟨min a.low b.low, max a.high b.high, by
    have := a.low_le_high
    omega⟩

/-- A symbol as range descriptions show it: a visible ASCII character in quotes, any other symbol
in hexadecimal. -/
def describeSymbol (c : Nat) : String :=
  if 0x21 ≤ c ∧ c ≤ 0x7E then s!"'{Char.ofNat c}'" else s!"0x{Text.hex c}"

def describe (r : SymbolRange) : String :=
  if r.low = r.high then describeSymbol r.low
  else s!"{describeSymbol r.low}-{describeSymbol r.high}"

theorem mem_def {r : SymbolRange} {c : Nat} : c ∈ r ↔ r.low ≤ c ∧ c ≤ r.high := Iff.rfl

theorem low_mem (r : SymbolRange) : r.low ∈ r := ⟨Nat.le_refl _, r.low_le_high⟩

theorem high_mem (r : SymbolRange) : r.high ∈ r := ⟨r.low_le_high, Nat.le_refl _⟩

@[simp] theorem contains_iff {r : SymbolRange} {c : Nat} : r.contains c = true ↔ c ∈ r := by
  simp [contains, mem_def]

@[simp] theorem mem_single {a c : Nat} : c ∈ single a ↔ c = a := by
  simp only [mem_def, single]
  omega

theorem mem_hull {a b : SymbolRange} (apart : ¬a.Before b) (apart' : ¬b.Before a) {c : Nat} :
    c ∈ a.hull b ↔ c ∈ a ∨ c ∈ b := by
  simp only [Before, mem_def, hull] at *
  omega

end SymbolRange

end Scangen
