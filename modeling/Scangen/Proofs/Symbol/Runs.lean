import Mathlib.Data.List.Sort
import Scangen.Symbol.Set

/-!
The ranges of a set are the maximal runs of its members. A set is therefore determined by its
members.
-/

namespace Scangen

/-- All symbols of the range have a property, and its neighbours on both sides have not. -/
structure SymbolRange.Maximal (P : Nat → Prop) (r : SymbolRange) : Prop where
  holds : ∀ c ∈ r, P c
  stops : ¬P (r.high + 1)
  starts : ∀ c, c + 1 = r.low → ¬P c

namespace SymbolRange.Maximal

variable {P : Nat → Prop} {r r' : SymbolRange} {c : Nat}

theorem low_le (first : r.Maximal P) (second : r'.Maximal P) (inside : c ∈ r) (inside' : c ∈ r') :
    r.low ≤ r'.low := by
  rw [mem_def] at inside inside'
  by_contra later
  have before : r.low - 1 ∈ r' := mem_def.mpr (by omega)
  exact first.starts (r.low - 1) (by omega) (second.holds _ before)

theorem high_le (first : r.Maximal P) (second : r'.Maximal P) (inside : c ∈ r) (inside' : c ∈ r') :
    r.high ≤ r'.high := by
  rw [mem_def] at inside inside'
  by_contra longer
  have behind : r'.high + 1 ∈ r := mem_def.mpr (by omega)
  exact second.stops (first.holds _ behind)

/-- Only one maximal run goes through a symbol. -/
theorem eq_of_mem (first : r.Maximal P) (second : r'.Maximal P) (inside : c ∈ r)
    (inside' : c ∈ r') : r = r' := by
  have low := Nat.le_antisymm (first.low_le second inside inside')
    (second.low_le first inside' inside)
  have high := Nat.le_antisymm (first.high_le second inside inside')
    (second.high_le first inside' inside)
  cases r
  cases r'
  cases low
  cases high
  rfl

end SymbolRange.Maximal

/-- Ranges with gaps between them are the maximal runs of the symbols that they hold. -/
theorem SymbolRange.iff_maximal {P : Nat → Prop} (part : SymbolRange → Prop)
    (covers : ∀ c, P c ↔ ∃ r, part r ∧ c ∈ r)
    (apart : ∀ r r', part r → part r' → r = r' ∨ r.Before r' ∨ r'.Before r) (r : SymbolRange) :
    part r ↔ r.Maximal P := by
  have maximal : ∀ r, part r → r.Maximal P := by
    intro r known
    have ends := r.low_le_high
    have gap : ∀ r', part r' → r = r' ∨ r.high + 1 < r'.low ∨ r'.high + 1 < r.low :=
      fun r' known' => apart r r' known known'
    refine ⟨fun c inside => (covers c).mpr ⟨r, known, inside⟩, ?_, ?_⟩
    · intro holds
      obtain ⟨r', known', inside⟩ := (covers _).mp holds
      rw [mem_def] at inside
      rcases gap r' known' with rfl | before | behind <;> omega
    · intro c next holds
      obtain ⟨r', known', inside⟩ := (covers c).mp holds
      rw [mem_def] at inside
      rcases gap r' known' with rfl | before | behind <;> omega
  constructor
  · exact maximal r
  · intro run
    obtain ⟨r', known, inside⟩ := (covers r.low).mp (run.holds r.low r.low_mem)
    rw [run.eq_of_mem (maximal r' known) r.low_mem inside]
    exact known

section

variable {α : Type} {R : α → α → Prop} {l l' : List α}

/-- Of two different entries of an ordered list one comes first. -/
theorem related_of_mem (ordered : l.Pairwise R) {a b : α} (member : a ∈ l) (member' : b ∈ l) :
    a = b ∨ R a b ∨ R b a := by
  induction ordered with
  | nil => cases member
  | cons before _ ih =>
    rcases List.mem_cons.mp member with rfl | later
    · rcases List.mem_cons.mp member' with rfl | later'
      · exact Or.inl rfl
      · exact Or.inr (Or.inl (before b later'))
    · rcases List.mem_cons.mp member' with rfl | later'
      · exact Or.inr (Or.inr (before a later))
      · exact ih later later'

/-- Lists of entries with ascending ranges are equal if they have the same entries. -/
theorem eq_of_ascending (range : α → SymbolRange)
    (first : l.Pairwise fun a b => (range a).high < (range b).low)
    (second : l'.Pairwise fun a b => (range a).high < (range b).low)
    (same : ∀ a, a ∈ l ↔ a ∈ l') : l = l' := by
  have antisymmetric : Std.Antisymm fun a b => (range a).high < (range b).low := by
    constructor
    intro a b before after
    have := (range a).low_le_high
    have := (range b).low_le_high
    omega
  have irreflexive : Std.Irrefl fun a b => (range a).high < (range b).low := by
    constructor
    intro a before
    have := (range a).low_le_high
    omega
  exact first.eq_of_mem_iff second same

end

namespace SymbolSet

variable {s t : SymbolSet} {r : SymbolRange}

theorem mem_ranges_iff : r ∈ s.ranges ↔ r.Maximal (· ∈ s) := by
  apply SymbolRange.iff_maximal (· ∈ s.ranges)
  · exact fun c => Iff.rfl
  · exact fun r r' member member' => related_of_mem s.separated member member'

theorem ascending (s : SymbolSet) : s.ranges.Pairwise fun r r' => r.high < r'.low :=
  s.separated.imp fun before => Nat.lt_of_succ_lt before

/-- Sets with the same members are the same ranges. -/
theorem ext (same : ∀ c, c ∈ s ↔ c ∈ t) : s = t := by
  have members : (· ∈ s) = (· ∈ t) := funext fun c => propext (same c)
  have ranges : s.ranges = t.ranges := by
    apply eq_of_ascending id s.ascending t.ascending
    intro r
    rw [mem_ranges_iff, mem_ranges_iff, members]
  cases s
  cases t
  cases ranges
  rfl

end SymbolSet

end Scangen
