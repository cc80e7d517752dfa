import Scangen.Proofs.Symbol.Resolve
import Scangen.Proofs.Symbol.Runs
import Scangen.Proofs.Table.Rows
import Scangen.Symbol.Passes

/-!
What the passes over lists of ranges give. Each of them ends with separated ranges, provided that it is
given such ranges, and with the symbols that it should keep.
-/

namespace Scangen

open SymbolRange

theorem maxSymbol_lt_maxWord (alphabet : Alphabet) : alphabet.maxSymbol < maxWord := by
  cases alphabet <;> decide

/-- Separated ranges with just these symbols. -/
structure Covers (ranges : List SymbolRange) (P : Nat → Prop) : Prop where
  separated : ranges.Pairwise Before
  members : ∀ c, (∃ r ∈ ranges, c ∈ r) ↔ P c

namespace Covers

variable {ranges ranges' : List SymbolRange} {P Q : Nat → Prop}

theorem congr (covers : Covers ranges P) (same : ∀ c, P c ↔ Q c) : Covers ranges Q :=
  ⟨covers.separated, fun c => (covers.members c).trans (same c)⟩

/-- There is one way only to cover a set. -/
theorem unique (covers : Covers ranges P) (covers' : Covers ranges' P) : ranges = ranges' := by
  have same : (⟨ranges, covers.separated⟩ : SymbolSet) = ⟨ranges', covers'.separated⟩ :=
    SymbolSet.ext fun c => (covers.members c).trans (covers'.members c).symm
  exact congrArg SymbolSet.ranges same

theorem eq_ranges {s : SymbolSet} (covers : Covers ranges (· ∈ s)) : ranges = s.ranges :=
  covers.unique ⟨s.separated, fun _ => Iff.rfl⟩

end Covers

theorem SymbolSet.covers (s : SymbolSet) : Covers s.ranges (· ∈ s) :=
  ⟨s.separated, fun _ => Iff.rfl⟩

namespace Passes

variable {last : SymbolRange} {ranges rest : List SymbolRange} {max next c : Nat}

/-- Ranges that touch are joined without a gap, and a range that starts later has a gap before it,
also at the greatest number. -/
theorem joinTo_covers (words : WordRanges (last :: rest))
    (ordered : (last :: rest).Pairwise fun a b => a.low ≤ b.low) :
    Covers (joinTo last rest) (fun c => c ∈ last ∨ ∃ r ∈ rest, c ∈ r) ∧
      ∀ s ∈ joinTo last rest, last.low ≤ s.low := by
  induction rest generalizing last with
  | nil =>
    refine ⟨⟨List.pairwise_singleton _ _, fun c => ?_⟩, ?_⟩ <;> simp [joinTo]
  | cons r rest ih =>
    obtain ⟨first_low, rest_ordered⟩ := List.pairwise_cons.mp ordered
    obtain ⟨last_word, r_word, rest_words⟩ : last.high ≤ maxWord ∧ r.high ≤ maxWord ∧ WordRanges rest := by
      simpa [WordRanges] using words
    have r_low : last.low ≤ r.low := first_low r List.mem_cons_self
    have r_ends := r.low_le_high
    have last_ends := last.low_le_high
    rw [joinTo]
    split
    next touching =>
      have joined : ∀ c, c ∈ last.extend r ↔ c ∈ last ∨ c ∈ r := by
        intro c
        simp only [mem_def, extend, nextWord] at touching ⊢
        omega
      have extended_words : WordRanges (last.extend r :: rest) := by
        intro s member
        rcases List.mem_cons.mp member with rfl | later
        · exact max_le last_word r_word
        · exact rest_words s later
      have extended_ordered : (last.extend r :: rest).Pairwise fun a b => a.low ≤ b.low :=
        List.pairwise_cons.mpr ⟨fun s later => first_low s (List.mem_cons_of_mem _ later),
          (List.pairwise_cons.mp rest_ordered).2⟩
      obtain ⟨covers, low⟩ := ih extended_words extended_ordered
      refine ⟨covers.congr fun c => ?_, low⟩
      simp only [joined, List.mem_cons, exists_eq_or_imp, or_assoc]
    next apart =>
      -- the successor of the last symbol fits, since a range starts behind it
      have gap : last.high + 1 < r.low := by
        unfold nextWord at apart
        omega
      obtain ⟨covers, low⟩ := ih (List.forall_mem_cons.mpr ⟨r_word, rest_words⟩) rest_ordered
      refine ⟨⟨List.pairwise_cons.mpr ⟨?_, covers.separated⟩, fun c => ?_⟩, ?_⟩
      · exact fun s member => Nat.lt_of_lt_of_le gap (low s member)
      · simp only [List.mem_cons, exists_eq_or_imp, covers.members]
      · intro s member
        rcases List.mem_cons.mp member with rfl | later
        · exact Nat.le_refl _
        · exact Nat.le_trans r_low (low s later)

theorem low_le_of_startsFirst {a b : SymbolRange} (first : a.startsFirst b = true) :
    a.low ≤ b.low := by
  simp only [startsFirst, Bool.or_eq_true, decide_eq_true_eq, Bool.and_eq_true, beq_iff_eq] at first
  omega

theorem sorted_pairwise (ranges : List SymbolRange) :
    (ranges.mergeSort startsFirst).Pairwise fun a b => a.low ≤ b.low := by
  refine (List.pairwise_mergeSort ?_ ?_ ranges).imp low_le_of_startsFirst
  · intro a b c
    simp only [startsFirst, Bool.or_eq_true, decide_eq_true_eq, Bool.and_eq_true, beq_iff_eq]
    omega
  · intro a b
    simp only [startsFirst, Bool.or_eq_true, decide_eq_true_eq, Bool.and_eq_true, beq_iff_eq]
    omega

/-- Any ranges come out in order, joined, and with the same symbols. -/
theorem normalize_covers (words : WordRanges ranges) :
    Covers (normalize ranges) fun c => ∃ r ∈ ranges, c ∈ r := by
  have ordered := sorted_pairwise ranges
  have sorted_words : WordRanges (ranges.mergeSort startsFirst) :=
    fun r member => words r (List.mem_mergeSort.mp member)
  have same : ∀ c, (∃ r ∈ ranges.mergeSort startsFirst, c ∈ r) ↔ ∃ r ∈ ranges, c ∈ r := by
    simp only [List.mem_mergeSort, implies_true]
  unfold normalize
  cases sorted : ranges.mergeSort startsFirst with
  | nil =>
    rw [sorted] at same
    exact ⟨List.Pairwise.nil, same⟩
  | cons first rest =>
    rw [sorted] at ordered sorted_words same
    refine (joinTo_covers sorted_words ordered).1.congr fun c => ?_
    rw [← same]
    simp

theorem ofBounds_eq_ok {low high : Nat} (ordered : low ≤ high) :
    ofBounds low high = .ok ⟨low, high, ordered⟩ := dif_pos ordered

theorem remainder_covers (max next : Nat) : ∃ pieces, remainder max next = .ok pieces ∧
    Covers pieces fun c => next ≤ c ∧ c ≤ max := by
  unfold remainder
  split
  next inside =>
    rw [ofBounds_eq_ok inside]
    exact ⟨_, rfl, List.pairwise_singleton _ _, by simp [mem_def]⟩
  next outside =>
    refine ⟨[], rfl, List.Pairwise.nil, fun c => ?_⟩
    simp only [List.not_mem_nil, false_and, exists_false, false_iff]
    omega

/-- A symbol from `next` up to `max` that none of the ranges holds. -/
def Missing (max next : Nat) (ranges : List SymbolRange) (c : Nat) : Prop :=
  next ≤ c ∧ c ≤ max ∧ ¬∃ r ∈ ranges, c ∈ r

section Missing

variable {r : SymbolRange} (separated : (r :: rest).Pairwise Before)

include separated

/-- Separated ranges hold nothing in front of the first one. -/
theorem not_mem_of_lt (small : c < r.low) : ¬∃ s ∈ r :: rest, c ∈ s := by
  rintro ⟨s, member, s_low, -⟩
  rcases List.mem_cons.mp member with rfl | later
  · omega
  · have before : r.high + 1 < s.low := (List.pairwise_cons.mp separated).1 s later
    have ends := r.low_le_high
    omega

theorem missing_iff_of_outside (outside : max < r.low) :
    Missing max next (r :: rest) c ↔ next ≤ c ∧ c ≤ max :=
  and_congr_right fun _ => and_iff_left_of_imp fun small =>
    not_mem_of_lt separated (Nat.lt_of_le_of_lt small outside)

/-- What is missing stands in front of the first range or behind it. The greatest number is no symbol,
so nothing is lost where there is no number behind the range. -/
theorem missing_cons_iff (room : max < maxWord) (low : next ≤ r.low) (inside : r.low ≤ max) :
    Missing max next (r :: rest) c ↔
      (next ≤ c ∧ c < r.low) ∨ Missing max (nextWord r.high) rest c := by
  have ends := r.low_le_high
  have front : c < r.low → ¬∃ s ∈ r :: rest, c ∈ s := not_mem_of_lt separated
  unfold Missing
  rw [List.exists_mem_cons_iff] at front ⊢
  generalize (∃ s ∈ rest, c ∈ s) = later at front ⊢
  simp only [mem_def, nextWord] at front ⊢
  grind

end Missing

/-- The gaps between separated ranges are never inverted. -/
theorem negateFrom_covers (room : max < maxWord) (separated : ranges.Pairwise Before)
    (above : ∀ r ∈ ranges, next ≤ r.low) :
    ∃ pieces, negateFrom max next ranges = .ok pieces ∧ Covers pieces (Missing max next ranges) := by
  induction ranges generalizing next with
  | nil =>
    obtain ⟨pieces, made, covers⟩ := remainder_covers max next
    exact ⟨pieces, made, covers.congr fun c => by simp [Missing]⟩
  | cons r rest ih =>
    have ends := r.low_le_high
    have low : next ≤ r.low := above r List.mem_cons_self
    obtain ⟨before, rest_separated⟩ := List.pairwise_cons.mp separated
    rw [negateFrom]
    by_cases outside : max < r.low
    · rw [if_pos outside]
      obtain ⟨pieces, made, covers⟩ := remainder_covers max next
      exact ⟨pieces, made, covers.congr fun c => (missing_iff_of_outside separated outside).symm⟩
    · rw [if_neg outside]
      have split : ∀ c, Missing max next (r :: rest) c ↔
          (next ≤ c ∧ c < r.low) ∨ Missing max (nextWord r.high) rest c :=
        fun c => missing_cons_iff separated room low (Nat.le_of_not_lt outside)
      have next_low : ∀ s ∈ rest, nextWord r.high ≤ s.low := by
        intro s later
        have gap : r.high + 1 < s.low := before s later
        unfold nextWord
        omega
      obtain ⟨pieces, made, covers⟩ := ih rest_separated next_low
      by_cases gap : next < r.low
      · rw [if_pos gap, ofBounds_eq_ok (by omega : next ≤ r.low - 1), made]
        refine ⟨_, rfl, List.pairwise_cons.mpr ⟨fun s member => ?_, covers.separated⟩, fun c => ?_⟩
        · obtain ⟨behind, small, -⟩ := (covers.members s.low).mp ⟨s, member, s.low_mem⟩
          unfold nextWord at behind
          simp only [Before]
          omega
        · have same : c ≤ r.low - 1 ↔ c < r.low := by omega
          rw [List.exists_mem_cons_iff, covers.members, split, mem_def, same]
      · rw [if_neg gap]
        refine ⟨pieces, made, covers.congr fun c => ?_⟩
        rw [split, or_iff_right (by omega)]

/-- The part of separated ranges that lies in the alphabet is never inverted. -/
theorem clamp_eq (alphabet : Alphabet) (s : SymbolSet) :
    clamp alphabet s.ranges = .ok (s.restrict alphabet).ranges := by
  show clamp alphabet s.ranges = .ok (SymbolSet.cut alphabet.maxSymbol s.ranges)
  unfold clamp
  induction s.ranges with
  | nil => rfl
  | cons r rest ih =>
    rw [SymbolSet.cut]
    split
    next inside =>
      have ends := r.low_le_high
      rw [List.filter_cons_of_pos (by simpa using inside), List.mapM_cons,
        ofBounds_eq_ok (by omega : r.low ≤ min r.high alphabet.maxSymbol), ih]
      rfl
    next outside =>
      rw [List.filter_cons_of_neg (by simpa using outside), ih]

theorem negate_eq (alphabet : Alphabet) (s : SymbolSet) :
    negate alphabet s.ranges = .ok (s.complement alphabet).ranges := by
  obtain ⟨pieces, made, covers⟩ := negateFrom_covers (maxSymbol_lt_maxWord alphabet) s.separated
    (fun r _ => Nat.zero_le r.low)
  have same : pieces = (s.complement alphabet).ranges := by
    refine (covers.congr fun c => ?_).eq_ranges
    rw [SymbolSet.mem_complement]
    exact ⟨fun left_out => left_out.2, fun left_out => ⟨Nat.zero_le c, left_out⟩⟩
  rw [negate, made, same]

theorem normalize_eq_ofRanges (words : WordRanges ranges) :
    normalize ranges = (SymbolSet.ofRanges ranges).ranges :=
  ((normalize_covers words).congr fun _ => SymbolSet.mem_ofRanges.symm).eq_ranges

/-- The lower ends of separated ranges ascend, so the search finds the only range that a symbol can
be in. -/
theorem search_eq (s : SymbolSet) (c : Nat) : search s.ranges c = s.contains c := by
  obtain ⟨entries, listed⟩ : ∃ entries,
      entries = (s.ranges.map fun r => (r.low, some r.high)).toArray := ⟨_, rfl⟩
  have entry_iff : ∀ (i : Nat) (entry : Nat × Option Nat), entries[i]? = some entry ↔
      ∃ r, s.ranges[i]? = some r ∧ (r.low, some r.high) = entry := by
    intro i entry
    rw [listed, List.getElem?_toArray, List.getElem?_map, Option.map_eq_some_iff]
  have ascending : Row.Ascending entries := by
    rw [listed]
    refine List.pairwise_map.mpr (s.separated.imp fun {a b} before => ?_)
    have := a.low_le_high
    simp only [Before] at before
    omega
  obtain ⟨left, few, searching⟩ :=
    Row.locate_spec ascending entries.size (Row.searching_all entries c) (by omega)
  rw [Bool.eq_iff_iff, SymbolSet.contains_iff]
  unfold search
  dsimp only
  rw [← listed]
  generalize Row.locate entries c entries.size 0 entries.size = i at searching
  constructor
  · intro held
    split at held
    next low high found =>
      obtain ⟨r, there, same⟩ := (entry_iff i _).mp found
      cases same
      exact ⟨r, List.mem_of_getElem? there, by simpa [mem_def] using held⟩
    next => cases held
  · rintro ⟨r, member, inside⟩
    obtain ⟨j, there⟩ := List.mem_iff_getElem?.mp member
    have found := (entry_iff j _).mpr ⟨r, there, rfl⟩
    rw [mem_def] at inside
    have within : j < i + left := by
      by_contra outside
      have above : c < r.low := searching.behind (Nat.le_of_not_lt outside) found
      omega
    have last : j = i := by
      by_contra different
      rcases searching.first with zero | ⟨entry, middle, below⟩
      · omega
      · obtain ⟨r', there', rfl⟩ := (entry_iff i _).mp middle
        have before : r.Before r' := by
          obtain ⟨j_lt, rfl⟩ := List.getElem?_eq_some_iff.mp there
          obtain ⟨i_lt, rfl⟩ := List.getElem?_eq_some_iff.mp there'
          exact List.pairwise_iff_getElem.mp s.separated j i j_lt i_lt (by omega)
        simp only [Before] at before
        omega
    rw [← last, found]
    simpa using inside

end Passes

end Scangen
