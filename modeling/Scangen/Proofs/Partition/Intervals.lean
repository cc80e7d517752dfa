import Scangen.Partition

/-!
The intervals between cuts. They cover the alphabet, and no range whose ends are cuts is split by
one of them.
-/

namespace Scangen.Partition

theorem mem_insertPoint {point x : Nat} {points : List Nat} :
    x ∈ insertPoint point points ↔ x = point ∨ x ∈ points := by
  induction points with
  | nil => simp [insertPoint]
  | cons first rest ih =>
    rw [insertPoint]
    split
    next => simp
    next =>
      split
      next _ same =>
        rw [same, List.mem_cons]
        constructor
        · exact Or.inr
        · rintro (here | there)
          · exact Or.inl here
          · exact there
      next => simp [ih, or_left_comm]

theorem insertPoint_ascending {point : Nat} {points : List Nat}
    (ascending : points.Pairwise (· < ·)) :
    (insertPoint point points).Pairwise (· < ·) := by
  induction points with
  | nil => exact List.pairwise_singleton _ _
  | cons first rest ih =>
    obtain ⟨first_lt, rest_ascending⟩ := List.pairwise_cons.mp ascending
    rw [insertPoint]
    split
    next smaller =>
      refine List.pairwise_cons.mpr ⟨?_, ascending⟩
      intro x member
      rcases List.mem_cons.mp member with same | later
      · omega
      · have := first_lt x later
        omega
    next =>
      split
      next => exact ascending
      next =>
        refine List.pairwise_cons.mpr ⟨?_, ih rest_ascending⟩
        intro x member
        rcases mem_insertPoint.mp member with same | later
        · omega
        · exact first_lt x later

theorem mem_insertPoints {x : Nat} {points known : List Nat} :
    x ∈ points.foldl (fun points point => insertPoint point points) known ↔
      x ∈ points ∨ x ∈ known := by
  induction points generalizing known with
  | nil => simp
  | cons first rest ih =>
    rw [List.foldl_cons, ih, mem_insertPoint, List.mem_cons]
    exact or_left_comm.trans or_assoc.symm

theorem insertPoints_ascending {points known : List Nat} (ascending : known.Pairwise (· < ·)) :
    (points.foldl (fun points point => insertPoint point points) known).Pairwise (· < ·) := by
  induction points generalizing known with
  | nil => exact ascending
  | cons first rest ih => exact ih (insertPoint_ascending ascending)

section

variable {alphabet : Alphabet} {sets : List SymbolSet}

theorem mem_cuts {point : Nat} : point ∈ cuts alphabet sets ↔
    point = 0 ∨ point ≤ alphabet.maxSymbol ∧ ∃ s ∈ sets, ∃ range ∈ s.ranges,
      point = range.low ∨ point = range.high + 1 := by
  simp only [cuts, mem_insertPoints, List.mem_filter, List.mem_flatMap, List.mem_cons,
    List.not_mem_nil, or_false, decide_eq_true_eq]
  rw [or_comm, and_comm]

theorem zero_mem_cuts (alphabet : Alphabet) (sets : List SymbolSet) : 0 ∈ cuts alphabet sets :=
  mem_cuts.mpr (Or.inl rfl)

theorem cuts_ascending (alphabet : Alphabet) (sets : List SymbolSet) :
    (cuts alphabet sets).Pairwise (· < ·) :=
  insertPoints_ascending (List.pairwise_singleton _ _)

theorem cuts_le : ∀ point ∈ cuts alphabet sets, point ≤ alphabet.maxSymbol := by
  intro point member
  rcases mem_cuts.mp member with rfl | ⟨inside, _⟩
  · exact Nat.zero_le _
  · exact inside

end

/-- No range between ascending cuts reaches past the last symbol or over a cut. -/
theorem rangesBetween_uncut {max : Nat} {points : List Nat} (ascending : points.Pairwise (· < ·)) :
    ∀ r ∈ rangesBetween max points, r.low ∈ points ∧
      (r.high ≤ max ∨ ∃ point ∈ points, r.high < point) ∧
      ∀ point ∈ points, point ≤ r.low ∨ r.high < point := by
  induction points with
  | nil => simp [rangesBetween]
  | cons low rest ih =>
    obtain ⟨low_lt, rest_ascending⟩ := List.pairwise_cons.mp ascending
    have later : ∀ r ∈ rangesBetween max rest, r.low ∈ low :: rest ∧
        (r.high ≤ max ∨ ∃ point ∈ low :: rest, r.high < point) ∧
        ∀ point ∈ low :: rest, point ≤ r.low ∨ r.high < point := by
      intro r member
      obtain ⟨known, bounded, uncut⟩ := ih rest_ascending r member
      refine ⟨List.mem_cons_of_mem _ known, ?_, ?_⟩
      · rcases bounded with small | ⟨point, member, above⟩
        · exact Or.inl small
        · exact Or.inr ⟨point, List.mem_cons_of_mem _ member, above⟩
      · intro point member
        rcases List.mem_cons.mp member with same | other
        · have := low_lt r.low known
          omega
        · exact uncut point other
    intro r member
    rw [rangesBetween] at member
    split at member
    next ordered =>
      rcases List.mem_cons.mp member with same | other
      · subst same
        refine ⟨List.mem_cons_self, ?_, ?_⟩
        · cases rest with
          | nil => exact Or.inl (Nat.le_refl _)
          | cons next _ =>
            have := low_lt next List.mem_cons_self
            exact Or.inr ⟨next, by simp, by show next - 1 < next; omega⟩
        · intro point known
          rcases List.mem_cons.mp known with same | other
          · exact Or.inl (Nat.le_of_eq same)
          · apply Or.inr
            cases rest with
            | nil => cases other
            | cons next others =>
              show next - 1 < point
              have := low_lt next List.mem_cons_self
              rcases List.mem_cons.mp other with same | further
              · omega
              · have := List.rel_of_pairwise_cons rest_ascending further
                omega
      · exact later r other
    next => exact later r member

/-- The ranges follow each other from one symbol on up to another, without gaps. -/
def Tiles (stop : Nat) : Nat → List SymbolRange → Prop
  | next, [] => next = stop
  | next, r :: rest => r.low = next ∧ Tiles stop (r.high + 1) rest

theorem Tiles.covers {stop next x : Nat} {ranges : List SymbolRange}
    (tiles : Tiles stop next ranges) (above : next ≤ x)
    (below : x < stop) : ∃ r ∈ ranges, x ∈ r := by
  induction ranges generalizing next with
  | nil =>
    have : next = stop := tiles
    omega
  | cons r rest ih =>
    obtain ⟨low, rest_tiles⟩ := tiles
    by_cases inside : x ≤ r.high
    · exact ⟨r, List.mem_cons_self, by omega, inside⟩
    · obtain ⟨r', member, holds⟩ := ih rest_tiles (by omega)
      exact ⟨r', List.mem_cons_of_mem _ member, holds⟩

theorem Tiles.le_low {stop next : Nat} {ranges : List SymbolRange} (tiles : Tiles stop next ranges) :
    ∀ r ∈ ranges, next ≤ r.low := by
  induction ranges generalizing next with
  | nil => simp
  | cons first rest ih =>
    obtain ⟨low, rest_tiles⟩ := tiles
    intro r member
    rcases List.mem_cons.mp member with rfl | later
    · exact Nat.le_of_eq low.symm
    · have := ih rest_tiles r later
      have := first.low_le_high
      omega

theorem Tiles.ascending {stop next : Nat} {ranges : List SymbolRange}
    (tiles : Tiles stop next ranges) : ranges.Pairwise fun r r' => r.high < r'.low := by
  induction ranges generalizing next with
  | nil => exact List.Pairwise.nil
  | cons first rest ih =>
    obtain ⟨_, rest_tiles⟩ := tiles
    refine List.pairwise_cons.mpr ⟨?_, ih rest_tiles⟩
    intro r later
    exact rest_tiles.le_low r later

theorem Tiles.high_lt {stop next : Nat} {ranges : List SymbolRange} (tiles : Tiles stop next ranges) :
    next ≤ stop ∧ ∀ r ∈ ranges, r.high < stop := by
  induction ranges generalizing next with
  | nil => exact ⟨Nat.le_of_eq tiles, by simp⟩
  | cons first rest ih =>
    obtain ⟨low, rest_tiles⟩ := tiles
    obtain ⟨below, rest_high⟩ := ih rest_tiles
    have ends := first.low_le_high
    refine ⟨by omega, ?_⟩
    intro r member
    rcases List.mem_cons.mp member with rfl | later
    · exact below
    · exact rest_high r later

theorem rangesBetween_tiles {max low : Nat} {rest : List Nat}
    (ascending : (low :: rest).Pairwise (· < ·))
    (bounded : ∀ point ∈ low :: rest, point ≤ max) :
      Tiles (max + 1) low (rangesBetween max (low :: rest)) := by
  induction rest generalizing low with
  | nil =>
    have ordered : low ≤ max := bounded low List.mem_cons_self
    simp [rangesBetween, lastBefore, ordered, Tiles]
  | cons next others ih =>
    obtain ⟨low_lt, rest_ascending⟩ := List.pairwise_cons.mp ascending
    have below := low_lt next List.mem_cons_self
    have ordered : low ≤ lastBefore max (next :: others) := by
      show low ≤ next - 1
      omega
    have behind : next - 1 + 1 = next := by omega
    rw [rangesBetween, dif_pos ordered]
    refine ⟨rfl, ?_⟩
    show Tiles (max + 1) (next - 1 + 1) _
    rw [behind]
    exact ih rest_ascending fun point member => bounded point (List.mem_cons_of_mem _ member)

/-- The first cut is at zero. -/
theorem cuts_eq_cons (alphabet : Alphabet) (sets : List SymbolSet) :
    ∃ rest, cuts alphabet sets = 0 :: rest := by
  have ascending := cuts_ascending alphabet sets
  have zero := zero_mem_cuts alphabet sets
  cases all : cuts alphabet sets with
  | nil => rw [all] at zero; cases zero
  | cons first rest =>
    rw [all] at ascending zero
    rcases List.mem_cons.mp zero with same | later
    · exact ⟨rest, by rw [same]⟩
    · have := List.rel_of_pairwise_cons ascending later
      omega

theorem cuts_tile (alphabet : Alphabet) (sets : List SymbolSet) :
    Tiles alphabet.cardinality 0 (rangesBetween alphabet.maxSymbol (cuts alphabet sets)) := by
  obtain ⟨rest, all⟩ := cuts_eq_cons alphabet sets
  rw [all]
  apply rangesBetween_tiles
  · rw [← all]
    exact cuts_ascending alphabet sets
  · rw [← all]
    exact cuts_le

theorem singles_tile (stop : Nat) : ∀ count low : Nat, low + count = stop →
    Tiles stop low ((List.range' low count).map .single)
  | 0, _, same => same
  | count + 1, low, same => ⟨rfl, singles_tile stop count (low + 1) (by omega)⟩

end Scangen.Partition
