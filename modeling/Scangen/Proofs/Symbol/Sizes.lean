import Mathlib.Data.Nat.Count
import Mathlib.Order.Interval.Finset.Nat
import Scangen.Proofs.Symbol.Combinations
import Scangen.Symbol.Computed

/-!
The size of a set of 32-bit numbers is the number of its members, unless it holds all of them: the only
range that is too wide to be counted in 32 bits is the one of all numbers.
-/

namespace Scangen

open SymbolRange

namespace SymbolRange

variable {r : SymbolRange}

theorem width_toNat (r : SymbolRange) : r.width.toNat = r.count % 0x100000000 := UInt32.toNat_ofNat'

/-- A range that leaves out a number can be counted in 32 bits. -/
theorem count_lt {c : Nat} (word : r.high ≤ maxWord) (small : c ≤ maxWord) (missing : c ∉ r) :
    r.count < 0x100000000 := by
  have := r.low_le_high
  simp only [mem_def, maxWord, count] at *
  omega

end SymbolRange

/-! The members of separated ranges, counted one range after the other. -/

section Count

variable {r : SymbolRange} {ranges : List SymbolRange} {n : Nat}

theorem count_or {p q : Nat → Prop} [DecidablePred p] [DecidablePred q]
    (apart : ∀ c, p c → ¬q c) (n : Nat) :
    Nat.count (fun c => p c ∨ q c) n = Nat.count p n + Nat.count q n := by
  simp only [Nat.count_eq_card_filter_range, Finset.filter_or]
  apply Finset.card_union_of_disjoint
  exact Finset.disjoint_filter.mpr fun c _ => apart c

theorem count_mem_range (below : r.high < n) : Nat.count (· ∈ r) n = r.count := by
  have interval : (Finset.range n).filter (· ∈ r) = Finset.Icc r.low r.high := by
    ext c
    simp only [Finset.mem_filter, Finset.mem_range, Finset.mem_Icc, mem_def]
    omega
  have := r.low_le_high
  rw [Nat.count_eq_card_filter_range, interval, Nat.card_Icc, SymbolRange.count]
  omega

theorem count_mem_ranges (separated : ranges.Pairwise Before) (below : ∀ r ∈ ranges, r.high < n) :
    Nat.count (fun c => ∃ r ∈ ranges, c ∈ r) n = total SymbolRange.count ranges := by
  induction ranges with
  | nil => simp [total, Nat.count_false]
  | cons first rest ih =>
    obtain ⟨before, rest_separated⟩ := List.pairwise_cons.mp separated
    obtain ⟨first_below, rest_below⟩ := List.forall_mem_cons.mp below
    have apart : ∀ c, c ∈ first → ¬∃ r ∈ rest, c ∈ r := by
      intro c inside later
      obtain ⟨r, member, low, _⟩ := later
      have gap : first.high + 1 < r.low := before r member
      have high : c ≤ first.high := inside.2
      omega
    simp only [List.exists_mem_cons_iff]
    rw [count_or apart, count_mem_range first_below, ih rest_separated rest_below, total]

end Count

namespace SymbolSet

variable {s : SymbolSet}

/-- Members are counted range by range. -/
theorem count_contains {n : Nat} (below : ∀ r ∈ s.ranges, r.high < n) :
    Nat.count (fun c => s.contains c = true) n = total SymbolRange.count s.ranges := by
  rw [← count_mem_ranges s.separated below]
  rw [Nat.count_eq_card_filter_range, Nat.count_eq_card_filter_range]
  exact congrArg Finset.card (Finset.filter_congr fun c _ => contains_iff)

theorem total_count_le (words : WordRanges s.ranges) :
    total SymbolRange.count s.ranges ≤ maxWord + 1 := by
  rw [← count_contains fun r member => Nat.lt_succ_of_le (words r member)]
  exact Nat.count_le _

/-- Where a number is missing, each range is counted as it is. -/
theorem size_of_missing {c : Nat} (words : WordRanges s.ranges) (small : c ≤ maxWord)
    (missing : c ∉ s) : s.size = total SymbolRange.count s.ranges := by
  have exact_widths : ∀ r ∈ s.ranges, r.width.toNat = r.count := by
    intro r member
    have apart : c ∉ r := fun inside => missing ⟨r, member, inside⟩
    rw [width_toNat, Nat.mod_eq_of_lt (SymbolRange.count_lt (words r member) small apart)]
  exact total_congr exact_widths

/-- The set of all 32-bit numbers is one range. -/
theorem eq_ofRange_of_full (words : WordRanges s.ranges) (full : ∀ c ≤ maxWord, c ∈ s) :
    s = ofRange ⟨0, maxWord, Nat.zero_le _⟩ := by
  apply SymbolSet.ext
  intro c
  rw [mem_ofRange, mem_def]
  constructor
  · exact fun member => ⟨Nat.zero_le c, wordRanges_iff.mp words c member⟩
  · exact fun small => full c small.2

theorem mem_computedFrom {ranges : List SymbolRange} {before : Nat} {sum : Computed}
    (member : sum ∈ computedFrom before ranges) : (∃ r ∈ ranges, sum = ⟨32, r.count⟩) ∨
      sum.bits = 64 ∧ sum.result ≤ before + total SymbolRange.count ranges := by
  induction ranges generalizing before with
  | nil => cases member
  | cons first rest ih =>
    rw [total]
    rcases List.mem_cons.mp member with rfl | member
    · exact Or.inl ⟨first, List.mem_cons_self, rfl⟩
    · rcases List.mem_cons.mp member with rfl | later
      · exact Or.inr ⟨rfl, by show before + first.count ≤ _; omega⟩
      · rcases ih later with ⟨r, listed, same⟩ | ⟨wide, bounded⟩
        · exact Or.inl ⟨r, List.mem_cons_of_mem _ listed, same⟩
        · exact Or.inr ⟨wide, by omega⟩

/-- The sum over all ranges always fits. -/
theorem computed_wide (words : WordRanges s.ranges) {sum : Computed} (member : sum ∈ s.computed)
    (wide : sum.bits = 64) : sum.InRange := by
  rcases mem_computedFrom member with ⟨r, _, rfl⟩ | ⟨_, bounded⟩
  · cases wide
  · rw [Nat.zero_add] at bounded
    rw [Computed.InRange, wide]
    calc sum.result ≤ total SymbolRange.count s.ranges := bounded
      _ ≤ maxWord + 1 := total_count_le words
      _ < Nat.pow 2 64 := by decide

theorem computed_of_missing {c : Nat} (words : WordRanges s.ranges) (small : c ≤ maxWord)
    (missing : c ∉ s) {sum : Computed} (member : sum ∈ s.computed) : sum.InRange := by
  rcases mem_computedFrom member with ⟨r, listed, rfl⟩ | ⟨wide, _⟩
  · exact SymbolRange.count_lt (words r listed) small fun inside => missing ⟨r, listed, inside⟩
  · exact computed_wide words member wide

/-- The sum in 32 bits that counts the range of all numbers. -/
theorem computed_of_full (words : WordRanges s.ranges) (full : ∀ c ≤ maxWord, c ∈ s) :
    ⟨32, 0x100000000⟩ ∈ s.computed := by
  rw [eq_ofRange_of_full words full]
  exact List.mem_cons_self

theorem size_of_full (words : WordRanges s.ranges) (full : ∀ c ≤ maxWord, c ∈ s) : s.size = 0 := by
  rw [eq_ofRange_of_full words full]
  rfl

theorem computed_inRange_iff (words : WordRanges s.ranges) :
    (∀ sum ∈ s.computed, sum.InRange) ↔ ∃ c ≤ maxWord, c ∉ s := by
  constructor
  · intro fits
    by_contra nothing
    have full : ∀ c ≤ maxWord, c ∈ s := by simpa using nothing
    exact absurd (fits _ (computed_of_full words full)) (by decide)
  · intro left_out
    obtain ⟨c, small, missing⟩ := left_out
    exact fun sum member => computed_of_missing words small missing member

theorem count_of_full (full : ∀ c ≤ maxWord, c ∈ s) :
    Nat.count (fun c => s.contains c = true) (maxWord + 1) = maxWord + 1 :=
  Nat.count_iff_forall.mpr fun c small => contains_iff.mpr (full c (Nat.le_of_lt_succ small))

theorem size_eq_count_iff (words : WordRanges s.ranges) :
    s.size = Nat.count (fun c => s.contains c = true) (maxWord + 1) ↔ ∃ c ≤ maxWord, c ∉ s := by
  constructor
  · intro counted
    by_contra nothing
    have full : ∀ c ≤ maxWord, c ∈ s := by simpa using nothing
    rw [size_of_full words full, count_of_full full] at counted
    cases counted
  · intro left_out
    obtain ⟨c, small, missing⟩ := left_out
    rw [size_of_missing words small missing,
      count_contains fun r member => Nat.lt_succ_of_le (words r member)]

end SymbolSet

namespace Combination

variable {e : Combination}

/-- The size of a set over the 32-bit numbers is the number of its members, and nothing is lost on the
way to it, exactly if a number is missing from the set. What the ranges hold can always be added up; the
set of all numbers has a range that is counted as empty. -/
theorem size_exact_iff (words : e.InWords) :
    e.passes = .ok e.value.ranges ∧
    (∀ sum ∈ e.value.computed, sum.bits = 64 → sum.InRange) ∧
    ((∀ sum ∈ e.value.computed, sum.InRange) ↔ ∃ c ≤ maxWord, ¬e.Holds c) ∧
    (e.value.size = Nat.count (fun c => Passes.search e.value.ranges c = true) (maxWord + 1) ↔
      ∃ c ≤ maxWord, ¬e.Holds c) ∧
    ((∀ c ≤ maxWord, e.Holds c) → e.value.size = 0 ∧
      Nat.count (fun c => Passes.search e.value.ranges c = true) (maxWord + 1) = maxWord + 1) := by
  have in_words := wordRanges_value words
  have searched : Passes.search e.value.ranges = e.value.contains := funext (Passes.search_eq e.value)
  have member : ∀ c, e.Holds c ↔ c ∈ e.value := fun c => mem_value.symm
  simp only [searched, member]
  refine ⟨passes_eq words, ?_, ?_, ?_, ?_⟩
  · exact fun sum listed => SymbolSet.computed_wide in_words listed
  · exact SymbolSet.computed_inRange_iff in_words
  · exact SymbolSet.size_eq_count_iff in_words
  · exact fun full => ⟨SymbolSet.size_of_full in_words full, SymbolSet.count_of_full full⟩

/-- All 32-bit numbers but zero, from two ranges that touch. -/
def behindZero : Combination :=
  .ofRanges [⟨0x80000000, 0xFFFFFFFF, by decide⟩, ⟨1, 0x7FFFFFFF, by decide⟩]

theorem behindZero_exact : behindZero.InWords ∧ behindZero.value.size = 0xFFFFFFFF ∧
    Nat.count (fun c => Passes.search behindZero.value.ranges c = true) (maxWord + 1) = 0xFFFFFFFF ∧
    ∀ sum ∈ behindZero.value.computed, sum.InRange := by
  have words : behindZero.InWords := by
    intro r member
    revert r
    decide
  have missing : ∃ c ≤ maxWord, ¬behindZero.Holds c := by
    refine ⟨0, Nat.zero_le _, fun held => ?_⟩
    have found : behindZero.value.contains 0 = true := SymbolSet.contains_iff.mpr (mem_value.mpr held)
    exact absurd found (by decide)
  obtain ⟨_, _, fits, counted, _⟩ := size_exact_iff words
  have size : behindZero.value.size = 0xFFFFFFFF := by decide
  exact ⟨words, size, (counted.mpr missing).symm.trans size, fits.mpr missing⟩

/-- The range of all 32-bit numbers. -/
def allNumbers : Combination := .ofRanges [⟨0, 0xFFFFFFFF, by decide⟩]

/-- It holds 2³² numbers and is counted as empty. -/
theorem allNumbers_miscounted : allNumbers.InWords ∧
    allNumbers.passes = .ok [⟨0, 0xFFFFFFFF, by decide⟩] ∧
    allNumbers.value.size = 0 ∧
    Nat.count (fun c => Passes.search allNumbers.value.ranges c = true) (maxWord + 1) = 0x100000000 ∧
    ∃ sum ∈ allNumbers.value.computed, ¬sum.InRange := by
  have words : allNumbers.InWords := by
    intro r member
    revert r
    decide
  have full : ∀ c ≤ maxWord, c ∈ allNumbers.value := fun c small =>
    mem_value.mpr ⟨_, List.mem_cons_self, Nat.zero_le c, small⟩
  have in_words := wordRanges_value words
  have searched : Passes.search allNumbers.value.ranges = allNumbers.value.contains :=
    funext (Passes.search_eq _)
  have ranges : allNumbers.value.ranges = [⟨0, 0xFFFFFFFF, by decide⟩] := by decide
  refine ⟨words, ranges ▸ passes_eq words, SymbolSet.size_of_full in_words full, ?_, ?_⟩
  · rw [searched]
    exact SymbolSet.count_of_full full
  · exact ⟨_, SymbolSet.computed_of_full in_words full, by decide⟩

end Combination

end Scangen
