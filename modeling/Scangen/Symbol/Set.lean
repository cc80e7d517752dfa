import Scangen.Finite.Total
import Scangen.Symbol.Range

/-!
Sets of symbols as sorted lists of ranges that neither overlap nor touch. Every operation keeps this
form, so two sets with the same members are the same list.
-/

namespace Scangen

structure SymbolSet where
  ranges : List SymbolRange
  separated : ranges.Pairwise SymbolRange.Before
deriving DecidableEq

namespace SymbolSet

open SymbolRange

instance : Membership Nat SymbolSet := ⟨fun s c => ∃ r ∈ s.ranges, c ∈ r⟩

instance : EmptyCollection SymbolSet := ⟨⟨[], List.Pairwise.nil⟩⟩

def contains (s : SymbolSet) (c : Nat) : Bool := s.ranges.any fun r => r.contains c

def isEmpty (s : SymbolSet) : Bool := s.ranges.isEmpty

/-- The number of members. -/
def size (s : SymbolSet) : Nat := total (fun r => r.width.toNat) s.ranges

def ofRange (r : SymbolRange) : SymbolSet := ⟨[r], List.pairwise_singleton _ r⟩

def single (c : Nat) : SymbolSet := ofRange (.single c)

def full (alphabet : Alphabet) : SymbolSet := ofRange ⟨0, alphabet.maxSymbol, Nat.zero_le _⟩

/-- Puts a range among separated ranges, joined with all that it overlaps or touches. -/
def insertRange (r : SymbolRange) : List SymbolRange → List SymbolRange
  | [] => [r]
  | s :: rest =>
    if r.Before s then r :: s :: rest
    else if s.Before r then s :: insertRange r rest
    else insertRange (r.hull s) rest

theorem low_of_mem_insertRange {r : SymbolRange} {l : List SymbolRange} {bound : Nat}
    (first : bound < r.low) (others : ∀ s ∈ l, bound < s.low) :
    ∀ s ∈ insertRange r l, bound < s.low := by
  induction l generalizing r with
  | nil =>
    intro s member
    rw [insertRange, List.mem_singleton] at member
    exact member ▸ first
  | cons head rest ih =>
    have head_low := others head List.mem_cons_self
    have rest_low : ∀ s ∈ rest, bound < s.low :=
      fun s member => others s (List.mem_cons_of_mem _ member)
    intro s member
    rw [insertRange] at member
    split at member
    next =>
      rcases List.mem_cons.mp member with same | old
      · exact same ▸ first
      · exact others s old
    next =>
      split at member
      next =>
        rcases List.mem_cons.mp member with same | later
        · exact same ▸ head_low
        · exact ih first rest_low s later
      next =>
        refine ih ?_ rest_low s member
        simp only [hull]
        omega

theorem insertRange_separated {r : SymbolRange} {l : List SymbolRange}
    (separated : l.Pairwise SymbolRange.Before) :
    (insertRange r l).Pairwise SymbolRange.Before := by
  induction l generalizing r with
  | nil => exact List.pairwise_singleton _ r
  | cons head rest ih =>
    obtain ⟨head_before, rest_separated⟩ := List.pairwise_cons.mp separated
    rw [insertRange]
    split
    next before =>
      refine List.pairwise_cons.mpr ⟨?_, separated⟩
      intro s member
      rcases List.mem_cons.mp member with same | later
      · exact same ▸ before
      · have gap := head_before s later
        have := head.low_le_high
        simp only [Before] at *
        omega
    next =>
      split
      next before =>
        refine List.pairwise_cons.mpr ⟨?_, ih rest_separated⟩
        exact low_of_mem_insertRange before head_before
      next => exact ih rest_separated

def insert (s : SymbolSet) (r : SymbolRange) : SymbolSet :=
  ⟨insertRange r s.ranges, insertRange_separated s.separated⟩

def ofRanges : List SymbolRange → SymbolSet
  | [] => ∅
  | r :: rest => (ofRanges rest).insert r

def union (s t : SymbolSet) : SymbolSet := t.ranges.foldr (fun r u => u.insert r) s

/-- Cuts off what lies above `max`. -/
def cut (max : Nat) : List SymbolRange → List SymbolRange
  | [] => []
  | r :: rest =>
    if inside : r.low ≤ max then
      ⟨r.low, min r.high max, by
        have := r.low_le_high
        omega⟩ :: cut max rest
    else cut max rest

theorem mem_cut {max : Nat} {l : List SymbolRange} {s : SymbolRange} (member : s ∈ cut max l) :
    ∃ r ∈ l, r.low ≤ max ∧ s.low = r.low ∧ s.high = min r.high max := by
  induction l with
  | nil => cases member
  | cons head rest ih =>
    rw [cut] at member
    split at member
    next inside =>
      rcases List.mem_cons.mp member with same | later
      · exact ⟨head, List.mem_cons_self, inside, by rw [same], by rw [same]⟩
      · obtain ⟨r, old, facts⟩ := ih later
        exact ⟨r, List.mem_cons_of_mem _ old, facts⟩
    next =>
      obtain ⟨r, old, facts⟩ := ih member
      exact ⟨r, List.mem_cons_of_mem _ old, facts⟩

theorem cut_separated {max : Nat} {l : List SymbolRange}
    (separated : l.Pairwise SymbolRange.Before) : (cut max l).Pairwise SymbolRange.Before := by
  induction l with
  | nil => exact List.Pairwise.nil
  | cons head rest ih =>
    obtain ⟨head_before, rest_separated⟩ := List.pairwise_cons.mp separated
    rw [cut]
    split
    next =>
      refine List.pairwise_cons.mpr ⟨?_, ih rest_separated⟩
      intro s member
      obtain ⟨r, old, _, low, _⟩ := mem_cut member
      have gap := head_before r old
      simp only [Before] at *
      omega
    next => exact ih rest_separated

/-- The members that belong to the alphabet. -/
def restrict (s : SymbolSet) (alphabet : Alphabet) : SymbolSet :=
  ⟨cut alphabet.maxSymbol s.ranges, cut_separated s.separated⟩

/-- What lies between the ranges, from `next` up to `max`. -/
def gaps (max next : Nat) : List SymbolRange → List SymbolRange
  | [] => if inside : next ≤ max then [⟨next, max, inside⟩] else []
  | r :: rest =>
    if before : next < r.low then ⟨next, r.low - 1, by omega⟩ :: gaps max (r.high + 1) rest
    else gaps max (r.high + 1) rest

theorem low_of_mem_gaps {max next : Nat} {l : List SymbolRange}
    (above : ∀ r ∈ l, next ≤ r.low) (separated : l.Pairwise SymbolRange.Before) :
    ∀ s ∈ gaps max next l, next ≤ s.low := by
  induction l generalizing next with
  | nil =>
    intro s member
    rw [gaps] at member
    split at member
    next =>
      rw [List.mem_singleton] at member
      exact Nat.le_of_eq (by rw [member])
    next => cases member
  | cons head rest ih =>
    obtain ⟨head_before, rest_separated⟩ := List.pairwise_cons.mp separated
    have head_low := above head List.mem_cons_self
    have ends := head.low_le_high
    have later : ∀ s ∈ gaps max (head.high + 1) rest, next ≤ s.low := by
      intro s member
      have := ih (fun r old => Nat.le_of_lt (head_before r old)) rest_separated s member
      omega
    intro s member
    rw [gaps] at member
    split at member
    next =>
      rcases List.mem_cons.mp member with same | old
      · exact Nat.le_of_eq (by rw [same])
      · exact later s old
    next => exact later s member

theorem gaps_separated {max next : Nat} {l : List SymbolRange}
    (separated : l.Pairwise SymbolRange.Before) :
    (gaps max next l).Pairwise SymbolRange.Before := by
  induction l generalizing next with
  | nil =>
    rw [gaps]
    split
    next => exact List.pairwise_singleton _ _
    next => exact List.Pairwise.nil
  | cons head rest ih =>
    obtain ⟨head_before, rest_separated⟩ := List.pairwise_cons.mp separated
    have ends := head.low_le_high
    rw [gaps]
    split
    next before =>
      refine List.pairwise_cons.mpr ⟨?_, ih rest_separated⟩
      intro s member
      have := low_of_mem_gaps (fun r old => Nat.le_of_lt (head_before r old)) rest_separated s member
      simp only [Before]
      omega
    next => exact ih rest_separated

/-- The symbols of the alphabet that are no members. -/
def complement (s : SymbolSet) (alphabet : Alphabet) : SymbolSet :=
  ⟨gaps alphabet.maxSymbol 0 (s.restrict alphabet).ranges, gaps_separated (s.restrict alphabet).separated⟩

def describe (s : SymbolSet) : String :=
  "\x7b" ++ ", ".intercalate (s.ranges.map SymbolRange.describe) ++ "\x7d"

theorem mem_def {s : SymbolSet} {c : Nat} : c ∈ s ↔ ∃ r ∈ s.ranges, c ∈ r := Iff.rfl

@[simp] theorem contains_iff {s : SymbolSet} {c : Nat} : s.contains c = true ↔ c ∈ s := by
  simp [contains, mem_def]

@[simp] theorem not_mem_empty (c : Nat) : ¬c ∈ (∅ : SymbolSet) := by
  rintro ⟨r, member, _⟩
  cases member

@[simp] theorem mem_ofRange {r : SymbolRange} {c : Nat} : c ∈ ofRange r ↔ c ∈ r := by
  simp [mem_def, ofRange]

@[simp] theorem mem_insertRange {r : SymbolRange} {l : List SymbolRange} {c : Nat} :
    (∃ s ∈ insertRange r l, c ∈ s) ↔ c ∈ r ∨ ∃ s ∈ l, c ∈ s := by
  induction l generalizing r with
  | nil => simp [insertRange]
  | cons head rest ih =>
    rw [insertRange]
    split
    next => simp
    next apart =>
      split
      next =>
        simp only [List.mem_cons, exists_eq_or_imp, ih]
        exact or_left_comm
      next apart' =>
        simp only [List.mem_cons, exists_eq_or_imp, ih, mem_hull apart apart', or_assoc]

@[simp] theorem mem_insert {s : SymbolSet} {r : SymbolRange} {c : Nat} :
    c ∈ s.insert r ↔ c ∈ r ∨ c ∈ s :=
  mem_insertRange

@[simp] theorem mem_ofRanges {l : List SymbolRange} {c : Nat} :
    c ∈ ofRanges l ↔ ∃ r ∈ l, c ∈ r := by
  induction l with
  | nil => simp [ofRanges]
  | cons head rest ih => simp [ofRanges, ih]

end SymbolSet

end Scangen
