/-!
Finite sets of indices, packed into the bits of one number. Two sets with the same members are
equal, so a set can be compared, and looked up, as a whole.
-/

namespace Scangen

structure IndexSet where
  bits : Nat
deriving DecidableEq

namespace IndexSet

def contains (s : IndexSet) (i : Nat) : Bool := s.bits.testBit i

instance : Membership Nat IndexSet := ⟨fun s i => s.contains i = true⟩

instance (i : Nat) (s : IndexSet) : Decidable (i ∈ s) :=
  inferInstanceAs (Decidable (s.contains i = true))

instance : EmptyCollection IndexSet := ⟨⟨0⟩⟩

def isEmpty (s : IndexSet) : Bool := s.bits == 0

def insert (s : IndexSet) (i : Nat) : IndexSet := ⟨s.bits ||| 1 <<< i⟩

def ofList : List Nat → IndexSet
  | [] => ∅
  | i :: rest => (ofList rest).insert i

/-- The members in ascending order. -/
def toList (s : IndexSet) : List Nat :=
  (List.range (s.bits.log2 + 1)).filter s.contains

theorem mem_def {s : IndexSet} {i : Nat} : i ∈ s ↔ s.contains i = true := Iff.rfl

theorem ext {s t : IndexSet} (same : ∀ i, i ∈ s ↔ i ∈ t) : s = t := by
  cases s with
  | mk a =>
    cases t with
    | mk b =>
      have bits : a = b := Nat.eq_of_testBit_eq fun i => Bool.eq_iff_iff.mpr (same i)
      rw [bits]

@[simp] theorem not_mem_empty (i : Nat) : ¬i ∈ (∅ : IndexSet) := by
  intro member
  have bit : Nat.testBit 0 i = true := member
  simp at bit

@[simp] theorem mem_insert {s : IndexSet} {i j : Nat} : j ∈ s.insert i ↔ j = i ∨ j ∈ s := by
  simp only [mem_def, contains, insert, Nat.testBit_or, Nat.one_shiftLeft, Nat.testBit_two_pow,
    Bool.or_eq_true, decide_eq_true_eq]
  constructor
  · rintro (old | new)
    · exact Or.inr old
    · exact Or.inl new.symm
  · rintro (new | old)
    · exact Or.inr new.symm
    · exact Or.inl old

@[simp] theorem mem_ofList {l : List Nat} {i : Nat} : i ∈ ofList l ↔ i ∈ l := by
  induction l with
  | nil => simp [ofList]
  | cons first rest ih => simp [ofList, ih]

theorem isEmpty_iff {s : IndexSet} : s.isEmpty = true ↔ s = ∅ := by
  cases s with
  | mk bits =>
    simp only [isEmpty, beq_iff_eq]
    constructor
    · intro zero
      rw [zero]
      rfl
    · intro same
      exact congrArg IndexSet.bits same

@[simp] theorem mem_toList {s : IndexSet} {i : Nat} : i ∈ s.toList ↔ i ∈ s := by
  simp only [toList, List.mem_filter, List.mem_range, mem_def]
  constructor
  · exact fun member => member.2
  · intro member
    refine ⟨?_, member⟩
    by_cases small : i < s.bits.log2 + 1
    · exact small
    · have bound : s.bits < 2 ^ i :=
        Nat.lt_of_lt_of_le Nat.lt_log2_self (Nat.pow_le_pow_right (by decide) (by omega))
      have bit := Nat.testBit_lt_two_pow bound
      rw [contains, bit] at member
      cases member

end IndexSet

end Scangen
