import Scangen.Proofs.Symbol.Resolve

/-!
Bytes that differ in case only. Among bytes a capital has one small letter, 32 places behind it, and no
letter has a further form. So a set of bytes is closed under changes of case once the other forms of its
members have been added, and so is its complement.
-/

namespace Scangen

/-- The upper-case letters among the bytes whose other form is a byte as well. -/
def IsByteCapital (x : Nat) : Prop := 0x41 ≤ x ∧ x ≤ 0x5A ∨ 0xC0 ≤ x ∧ x ≤ 0xDE ∧ x ≠ 0xD7

instance (x : Nat) : Decidable (IsByteCapital x) := by
  unfold IsByteCapital
  infer_instance

/-- One of the two is a capital, and the other one its small letter. -/
def BytePair (x y : Nat) : Prop := IsByteCapital x ∧ y = x + 0x20 ∨ IsByteCapital y ∧ x = y + 0x20

instance (x y : Nat) : Decidable (BytePair x y) := by
  unfold BytePair
  infer_instance

variable {x y : Nat}

theorem CaseRun.mem_pairs (run : CaseRun) {i : Nat} (inside : i < run.count) :
    (run.first + i * run.step, run.image + i * run.step) ∈ run.pairs :=
  List.mem_map.mpr ⟨i, List.mem_range.mpr inside, rfl⟩

/-- A run of capitals with their small letters 32 places behind, listed in both directions. -/
theorem mem_casePairs_of_runs {first count : Nat}
    (lower : ⟨first, count, 1, first + 0x20⟩ ∈ lowerRuns)
    (upper : ⟨first + 0x20, count, 1, first⟩ ∈ upperRuns) (above : first ≤ x)
    (below : x < first + count) : (x, x + 0x20) ∈ casePairs ∧ (x + 0x20, x) ∈ casePairs := by
  have inside : x - first < count := by omega
  have same : first + (x - first) * 1 = x := by omega
  have same' : first + 0x20 + (x - first) * 1 = x + 0x20 := by omega
  have lower_pair := CaseRun.mem_pairs ⟨first, count, 1, first + 0x20⟩ inside
  have upper_pair := CaseRun.mem_pairs ⟨first + 0x20, count, 1, first⟩ inside
  rw [same, same'] at lower_pair upper_pair
  exact ⟨List.mem_append_left _ (List.mem_flatMap.mpr ⟨_, lower, lower_pair⟩),
    List.mem_append_right _ (List.mem_flatMap.mpr ⟨_, upper, upper_pair⟩)⟩

theorem IsByteCapital.mem_casePairs (capital : IsByteCapital x) :
    (x, x + 0x20) ∈ casePairs ∧ (x + 0x20, x) ∈ casePairs := by
  unfold IsByteCapital at capital
  by_cases ascii : x ≤ 0x5A
  · exact mem_casePairs_of_runs (.head _) (.head _) (by omega : 0x41 ≤ x)
      (by omega : x < 0x41 + 26)
  · by_cases before : x < 0xD7
    · exact mem_casePairs_of_runs (.tail _ (.head _)) (.tail _ (.tail _ (.head _)))
        (by omega : 0xC0 ≤ x) (by omega : x < 0xC0 + 23)
    · exact mem_casePairs_of_runs (.tail _ (.tail _ (.head _)))
        (.tail _ (.tail _ (.tail _ (.head _)))) (by omega : 0xD8 ≤ x) (by omega : x < 0xD8 + 7)

namespace BytePair

theorem symm (pair : BytePair x y) : BytePair y x := Or.symm pair

/-- A byte has one other form only. -/
theorem unique {z : Nat} (pair : BytePair x y) (pair' : BytePair x z) : y = z := by
  unfold BytePair IsByteCapital at pair pair'
  omega

theorem ne_lineFeed (pair : BytePair x y) : x ≠ lineFeed := by
  unfold BytePair IsByteCapital at pair
  unfold lineFeed
  omega

theorem of_casePairs : ∀ pair ∈ casePairs, pair.1 ≤ Alphabet.byte.maxSymbol →
    pair.2 ≤ Alphabet.byte.maxSymbol → BytePair pair.1 pair.2 := by
  decide +kernel

/-- The two are bytes and listed as forms of each other. -/
theorem mem_casePairs (pair : BytePair x y) : (x, y) ∈ casePairs ∧
    x ≤ Alphabet.byte.maxSymbol ∧ y ≤ Alphabet.byte.maxSymbol := by
  have small : x ≤ 0xFF ∧ y ≤ 0xFF := by
    unfold BytePair IsByteCapital at pair
    omega
  refine ⟨?_, small⟩
  rcases pair with ⟨capital, rfl⟩ | ⟨capital, rfl⟩
  · exact capital.mem_casePairs.1
  · exact capital.mem_casePairs.2

/-- A folded set of bytes holds both forms of a letter if it holds one. -/
theorem mem_caseFold {s : SymbolSet} (pair : BytePair x y) (member : x ∈ s.caseFold .byte) :
    y ∈ s.caseFold .byte := by
  obtain ⟨listed, x_byte, y_byte⟩ := pair.mem_casePairs
  rw [SymbolSet.mem_caseFold, SymbolSet.mem_counterparts] at member ⊢
  cases member with
  | inl other =>
    obtain ⟨c, form, c_byte, _, inside⟩ := other
    have back : BytePair x c := (of_casePairs _ form c_byte x_byte).symm
    exact Or.inr (pair.unique back ▸ inside)
  | inr own => exact Or.inl ⟨x, listed, x_byte, y_byte, own⟩

end BytePair

theorem eq_or_mem_of_lookup {pairs : List (Nat × Nat)} (form : (pairs.lookup x).getD x = y) :
    x = y ∨ (x, y) ∈ pairs := by
  cases found : pairs.lookup x with
  | none =>
    rw [found] at form
    exact Or.inl form
  | some other =>
    rw [found] at form
    cases form
    obtain ⟨before, after, split, _⟩ := List.lookup_eq_some_iff.mp found
    simp [split]

/-- Bytes that are forms of one letter. -/
structure SameByteLetter (x y : Nat) : Prop where
  same : SameLetter x y
  left : x ≤ Alphabet.byte.maxSymbol
  right : y ≤ Alphabet.byte.maxSymbol

namespace SameByteLetter

variable (letter : SameByteLetter x y)

include letter

theorem eq_or_bytePair : x = y ∨ BytePair x y := by
  have forms : ∀ {a b : Nat}, a ≤ Alphabet.byte.maxSymbol → b ≤ Alphabet.byte.maxSymbol →
      lowerCase a = b ∨ upperCase a = b → a = b ∨ BytePair a b := by
    intro a b a_byte b_byte form
    have listed : a = b ∨ (a, b) ∈ casePairs := by
      rw [casePairs, List.mem_append]
      cases form with
      | inl lower => exact (eq_or_mem_of_lookup lower).imp_right Or.inl
      | inr upper => exact (eq_or_mem_of_lookup upper).imp_right Or.inr
    exact listed.imp_right fun pair => BytePair.of_casePairs _ pair a_byte b_byte
  rcases letter.same with equal | lower | upper | lower | upper
  · exact Or.inl equal
  · exact forms letter.left letter.right (Or.inl lower)
  · exact forms letter.left letter.right (Or.inr upper)
  · exact (forms letter.right letter.left (Or.inl lower)).imp Eq.symm BytePair.symm
  · exact (forms letter.right letter.left (Or.inr upper)).imp Eq.symm BytePair.symm

theorem lineFeed_iff : x = lineFeed ↔ y = lineFeed := by
  rcases letter.eq_or_bytePair with rfl | pair
  · rfl
  · exact iff_of_false pair.ne_lineFeed pair.symm.ne_lineFeed

/-- Where the case of letters does not count, a class of bytes holds all forms of a letter or none,
negated or not. -/
theorem mem_resolve_iff (k : SymbolClass) :
    x ∈ k.resolve ⟨.byte, true⟩ ↔ y ∈ k.resolve ⟨.byte, true⟩ := by
  have folded : ∀ c, c ∈ k.listed ⟨.byte, true⟩ ↔ c ∈ (k.ranges.restrict .byte).caseFold .byte :=
    fun c => Iff.rfl
  rcases letter.eq_or_bytePair with rfl | pair
  · rfl
  · have listed : x ∈ k.listed ⟨.byte, true⟩ ↔ y ∈ k.listed ⟨.byte, true⟩ := by
      rw [folded, folded]
      exact ⟨pair.mem_caseFold, pair.symm.mem_caseFold⟩
    simp only [SymbolClass.mem_resolve, listed, letter.left, letter.right]

end SameByteLetter

/-- Where the case of letters counts, a class holds the same bytes over both alphabets. -/
theorem SymbolClass.mem_resolve_byte {k : SymbolClass} (byte : x ≤ Alphabet.byte.maxSymbol) :
    x ∈ k.resolve ⟨.byte, false⟩ ↔ x ∈ k.resolve ⟨.unicode, false⟩ := by
  have symbol : x ≤ Alphabet.unicode.maxSymbol := Nat.le_trans byte (by decide)
  have listed : ∀ {alphabet : Alphabet}, x ≤ alphabet.maxSymbol →
      (x ∈ k.listed ⟨alphabet, false⟩ ↔ x ∈ k.ranges) := by
    intro alphabet inside
    show x ∈ k.ranges.restrict alphabet ↔ x ∈ k.ranges
    rw [SymbolSet.mem_restrict]
    exact and_iff_left inside
  rw [mem_resolve, mem_resolve, listed byte, listed symbol]
  simp only [byte, symbol]

end Scangen
