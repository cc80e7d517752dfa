import Mathlib.Data.List.Forall2
import Mathlib.Logic.Relation
import Scangen.Symbol.Charset
import Scangen.Symbol.Forms

/-!
Letters whose form has a further form. Folding a set adds the forms of its letters, but not the forms of
these forms.
-/

namespace Scangen

/-- The second letter is another form of the first one, and both belong to the alphabet. -/
def CaseForm (alphabet : Alphabet) (c d : Nat) : Prop :=
  c ≠ d ∧ c.isValidChar ∧ c ≤ alphabet.maxSymbol ∧ d ≤ alphabet.maxSymbol ∧
    (CaseMapping.simple.lower c = some d ∨ CaseMapping.simple.upper c = some d)

/-- Letter by letter, the second word has what forms lead to from the first one. -/
def Respelled (alphabet : Alphabet) (word word' : List Nat) : Prop :=
  List.Forall₂ (Relation.ReflTransGen (CaseForm alphabet)) word word'

/-- A letter, one of its forms, and a form of that form that is another letter and not one of its forms. -/
structure CaseChain where
  letter : Nat
  form : Nat
  further : Nat
deriving DecidableEq

namespace CaseChain

/-- All three belong to the alphabet. -/
def Within (chain : CaseChain) (alphabet : Alphabet) : Prop :=
  chain.letter ≤ alphabet.maxSymbol ∧ chain.form ≤ alphabet.maxSymbol ∧
    chain.further ≤ alphabet.maxSymbol

end CaseChain

/-- Among them the micro sign, the dotless small I, the long S, the final sigma, and the signs for Ohm,
Kelvin and Ångström. -/
def caseChains : List CaseChain :=
  [⟨0xB5, 0x39C, 0x3BC⟩, ⟨0x131, 0x49, 0x69⟩, ⟨0x17F, 0x53, 0x73⟩, ⟨0x345, 0x399, 0x3B9⟩,
   ⟨0x3C2, 0x3A3, 0x3C3⟩, ⟨0x3D0, 0x392, 0x3B2⟩, ⟨0x3D1, 0x398, 0x3B8⟩, ⟨0x3D5, 0x3A6, 0x3C6⟩,
   ⟨0x3D6, 0x3A0, 0x3C0⟩, ⟨0x3F0, 0x39A, 0x3BA⟩, ⟨0x3F1, 0x3A1, 0x3C1⟩, ⟨0x3F4, 0x3B8, 0x398⟩,
   ⟨0x3F5, 0x395, 0x3B5⟩, ⟨0x1C80, 0x412, 0x432⟩, ⟨0x1C81, 0x414, 0x434⟩, ⟨0x1C82, 0x41E, 0x43E⟩,
   ⟨0x1C83, 0x421, 0x441⟩, ⟨0x1C84, 0x422, 0x442⟩, ⟨0x1C85, 0x422, 0x442⟩, ⟨0x1C86, 0x42A, 0x44A⟩,
   ⟨0x1C87, 0x462, 0x463⟩, ⟨0x1C88, 0xA64A, 0xA64B⟩, ⟨0x1E9B, 0x1E60, 0x1E61⟩,
   ⟨0x1FBE, 0x399, 0x3B9⟩, ⟨0x2126, 0x3C9, 0x3A9⟩, ⟨0x212A, 0x6B, 0x4B⟩, ⟨0x212B, 0xE5, 0xC5⟩]

namespace SymbolSet

/-- With a letter the set holds all its forms in the alphabet. -/
def Folded (alphabet : Alphabet) (s : SymbolSet) : Prop :=
  ∀ c ∈ s, ∀ d, CaseForm alphabet c d → d ∈ s

/-- Where a chain starts in the set, its end is in the folded set as well. -/
def Settled (alphabet : Alphabet) (s : SymbolSet) : Prop :=
  ∀ chain ∈ caseChains, chain.Within alphabet → chain.letter ∈ s →
    chain.further ∈ s.caseFold alphabet

end SymbolSet

end Scangen
