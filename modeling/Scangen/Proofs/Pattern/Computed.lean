import Scangen.Pattern.Computed
import Scangen.Proofs.Pattern.Lengths
import Scangen.Proofs.Pattern.Read

/-!
The arithmetic of fixed lengths. In 32 bits it goes as in unlimited numbers as long as all sums and
products fit, and these are limited by the length of the text and the counts in it.
-/

namespace Scangen.Regex

/-! Sums and products that fit are the same in both kinds of number. -/

/-- In 32 bits, everything on the way to the fixed length is as it should be. -/
structure Faithful (r : Regex) : Prop where
  computed : r.computedIn Nat.toUInt32 = (r.computedIn id).map Nat.toUInt32
  length : r.lengthIn Nat.toUInt32 = (r.lengthIn id).map Nat.toUInt32
  small : ∀ n ∈ r.lengthIn id, n < UInt32.size

section Repetition

variable {length : Option Nat} {least : Nat} {most : Option Nat}

theorem productIn_map (small : ∀ n ∈ length, n < UInt32.size) :
    productIn Nat.toUInt32 (length.map Nat.toUInt32) least most =
      (productIn id length least most).map Nat.toUInt32 := by
  cases length with
  | none => rfl
  | some n =>
    have same := toUInt32_inj (small n rfl) (by decide : 0 < UInt32.size)
    by_cases zero : n = 0
    · subst zero
      rfl
    · have nonzero : ¬n.toUInt32 = Nat.toUInt32 0 := fun zero' => zero (same.mp zero')
      simp only [productIn, Option.map_some, if_neg nonzero, id_eq, if_neg zero]
      by_cases exact_count : most = some least
      · rw [if_pos exact_count, if_pos exact_count, List.map_singleton]
        exact congrArg (fun product => [product]) (UInt32.ofNat_mul n least).symm
      · rw [if_neg exact_count, if_neg exact_count, List.map_nil]

theorem mem_productIn {product : Nat} : product ∈ productIn id length least most ↔
    ∃ n, length = some n ∧ n ≠ 0 ∧ most = some least ∧ product = n * least := by
  cases length with
  | none => simp [productIn]
  | some n =>
    by_cases zero : n = 0
    · simp [productIn, zero]
    · by_cases exact_count : most = some least
      · simp [productIn, zero, exact_count]
      · simp [productIn, zero, exact_count]

end Repetition

namespace Faithful

variable {inner outer : Regex}

/-- What may be repeated or left out has a fixed length only if it is empty. -/
theorem of_inner (faithful : inner.Faithful)
    (computed : outer.computedIn Nat.toUInt32 = inner.computedIn Nat.toUInt32)
    (computed' : outer.computedIn id = inner.computedIn id)
    (length : outer.lengthIn Nat.toUInt32 =
      (inner.lengthIn Nat.toUInt32).filter (· = Nat.toUInt32 0))
    (length' : outer.lengthIn id = (inner.lengthIn id).filter (· = id 0)) : outer.Faithful where
  computed := by rw [computed, computed', faithful.computed]
  length := by rw [length, length', faithful.length, filter_zero_map faithful.small]
  small := by
    rw [length']
    exact fun n filtered => faithful.small n (Option.filter_eq_some_iff.mp filtered).1

theorem repetition {least : Nat} {most : Option Nat} (faithful : inner.Faithful)
    (fits : ∀ n ∈ productIn id (inner.lengthIn id) least most, n < UInt32.size) :
    (Regex.repetition inner least most).Faithful where
  computed := by
    rw [computedIn, computedIn, faithful.computed, faithful.length, productIn_map faithful.small,
      List.map_append]
  length := lengthIn_repetition_map faithful.length faithful.small
  small := by
    intro n fixed
    obtain ⟨length, inner_fixed, ⟨-, rfl⟩ | ⟨exact_count, rfl⟩⟩ := lengthIn_of_repetition fixed
    · decide
    · by_cases zero : length = 0
      · rw [zero, Nat.zero_mul]
        decide
      · exact fits _ (mem_productIn.mpr ⟨length, inner_fixed, zero, exact_count, rfl⟩)

end Faithful

mutual

/-- What fits in unlimited numbers is computed in the same way in 32 bits, step by step. -/
theorem faithful_of_fits : ∀ r : Regex, (∀ n ∈ r.computedIn id, n < UInt32.size) → r.Faithful
  | symbol _, _ => ⟨rfl, rfl, fun n fixed => by cases fixed; decide⟩
  | symbolClass _, _ => ⟨rfl, rfl, fun n fixed => by cases fixed; decide⟩
  | empty, _ => ⟨rfl, rfl, fun n fixed => by cases fixed; decide⟩
  | concatenation factors, fits => by
    rw [computedIn] at fits
    obtain ⟨computed, length, small⟩ := sums_faithful factors 0 (by decide) fits
    refine ⟨?_, ?_, ?_⟩
    · rw [computedIn, computedIn]
      exact computed
    · rw [lengthIn, lengthIn]
      exact length
    · rw [lengthIn]
      intro n fixed
      have := small n fixed
      omega
  | alternation [], _ => ⟨rfl, rfl, fun n fixed => nomatch fixed⟩
  | alternation (first :: rest), fits => by
    rw [computedIn, computedSameIn, List.forall_mem_append] at fits
    obtain ⟨first_fits, rest_fits⟩ := fits
    have faithful := faithful_of_fits first first_fits
    have known := faithful.length
    cases fixed : first.lengthIn id with
    | none =>
      rw [fixed] at known
      refine ⟨?_, ?_, ?_⟩
      · simp only [computedIn, computedSameIn, fixed, known, faithful.computed, Option.map_none,
          List.append_nil]
      · simp only [lengthIn, lengthsIn, fixed, known, Option.map_none]
      · simp only [lengthIn, lengthsIn, fixed]
        exact fun n nothing => nomatch nothing
    | some length =>
      rw [fixed] at known rest_fits
      have small := faithful.small length fixed
      obtain ⟨computed, agree⟩ := same_faithful rest length small rest_fits
      refine ⟨?_, ?_, ?_⟩
      · simp only [computedIn, computedSameIn, fixed, known, faithful.computed, Option.map_some,
          Option.all_none, if_true, List.map_append, computed]
      · simp only [lengthIn, lengthsIn, fixed, known, Option.map_some, agree]
        split <;> rfl
      · simp only [lengthIn, lengthsIn, fixed]
        split
        · intro n same
          cases same
          exact small
        · exact fun n nothing => nomatch nothing
  | star inner, fits => (faithful_of_fits inner fits).of_inner rfl rfl rfl rfl
  | plus inner, fits => (faithful_of_fits inner fits).of_inner rfl rfl rfl rfl
  | optional inner, fits => (faithful_of_fits inner fits).of_inner rfl rfl rfl rfl
  | repetition inner least most, fits => by
    rw [computedIn, List.forall_mem_append] at fits
    exact (faithful_of_fits inner fits.1).repetition fits.2

/-- The same for factors behind others with this sum. -/
theorem sums_faithful : ∀ (factors : List Regex) (sum : Nat), sum < UInt32.size →
    (∀ n ∈ computedSumsIn id factors sum, n < UInt32.size) →
    computedSumsIn Nat.toUInt32 factors sum.toUInt32 =
        (computedSumsIn id factors sum).map Nat.toUInt32 ∧
      totalLengthIn Nat.toUInt32 factors = (totalLengthIn id factors).map Nat.toUInt32 ∧
      ∀ n ∈ totalLengthIn id factors, sum + n < UInt32.size
  | [], sum, small, _ => ⟨rfl, rfl, fun n fixed => by cases fixed; exact small⟩
  | first :: rest, sum, small, fits => by
    rw [computedSumsIn, List.forall_mem_append] at fits
    obtain ⟨first_fits, rest_fits⟩ := fits
    have faithful := faithful_of_fits first first_fits
    have known := faithful.length
    cases fixed : first.lengthIn id with
    | none =>
      rw [fixed] at known
      simp only [computedSumsIn, totalLengthIn, fixed, known, faithful.computed, Option.map_none,
        List.append_nil, true_and]
      exact fun n nothing => nomatch nothing
    | some length =>
      rw [fixed] at known rest_fits
      dsimp only at rest_fits
      obtain ⟨sum_fits, later_fits⟩ := List.forall_mem_cons.mp rest_fits
      obtain ⟨computed, total, later_small⟩ := sums_faithful rest (sum + length) sum_fits later_fits
      have added : (sum + length).toUInt32 = sum.toUInt32 + length.toUInt32 :=
        counting_toUInt32.add sum length
      refine ⟨?_, ?_, ?_⟩
      · simp only [computedSumsIn, fixed, known, faithful.computed, Option.map_some, List.map_append,
          List.map_cons, ← added, computed]
      · simp only [totalLengthIn, fixed, known, total, Option.map_some]
        cases totalLengthIn id rest with
        | none => rfl
        | some others => exact congrArg some (counting_toUInt32.add length others).symm
      · intro n whole
        simp only [totalLengthIn, fixed] at whole
        cases others : totalLengthIn id rest with
        | none =>
          rw [others] at whole
          cases whole
        | some m =>
          rw [others] at whole
          cases whole
          have := later_small m others
          omega

/-- The same for alternates behind others of this length. -/
theorem same_faithful : ∀ (others : List Regex) (expected : Nat), expected < UInt32.size →
    (∀ n ∈ computedSameIn id others (some expected), n < UInt32.size) →
    computedSameIn Nat.toUInt32 others (some expected.toUInt32) =
        (computedSameIn id others (some expected)).map Nat.toUInt32 ∧
      (lengthsIn Nat.toUInt32 others).all (· = some expected.toUInt32) =
        (lengthsIn id others).all (· = some expected)
  | [], expected, _, _ => ⟨rfl, rfl⟩
  | first :: rest, expected, small, fits => by
    rw [computedSameIn, List.forall_mem_append] at fits
    obtain ⟨first_fits, rest_fits⟩ := fits
    have faithful := faithful_of_fits first first_fits
    have known := faithful.length
    cases fixed : first.lengthIn id with
    | none =>
      rw [fixed] at known
      simp [computedSameIn, lengthsIn, fixed, known, faithful.computed]
    | some length =>
      rw [fixed] at known rest_fits
      have same := toUInt32_inj small (faithful.small length fixed)
      by_cases agrees : expected = length
      · subst agrees
        simp only [Option.all_some, decide_true, if_true] at rest_fits
        obtain ⟨computed, agree⟩ := same_faithful rest expected small rest_fits
        simp only [computedSameIn, lengthsIn, fixed, known, faithful.computed, Option.map_some,
          Option.all_some, decide_true, if_true, List.map_append, computed, List.all_cons, agree,
          and_self]
      · have differs : ¬expected.toUInt32 = length.toUInt32 := fun agrees' => agrees (same.mp agrees')
        simp [computedSameIn, lengthsIn, fixed, known, faithful.computed, agrees, differs,
          Ne.symm agrees, Ne.symm differs]

end

/-! Symbols and counts limit all sums and products. -/

mutual

theorem counts_pos : ∀ r : Regex, 0 < r.counts
  | symbol _ => Nat.one_pos
  | symbolClass _ => Nat.one_pos
  | empty => Nat.one_pos
  | concatenation factors => countsOfAll_pos factors
  | alternation alternates => countsOfAll_pos alternates
  | star inner => counts_pos inner
  | plus inner => counts_pos inner
  | optional inner => counts_pos inner
  | repetition inner least _ => Nat.mul_pos (counts_pos inner) (Nat.le_max_left 1 least)

theorem countsOfAll_pos : ∀ rs : List Regex, 0 < countsOfAll rs
  | [] => Nat.one_pos
  | first :: rest => Nat.mul_pos (counts_pos first) (countsOfAll_pos rest)

end

/-- What all symbols and counts of an expression can come to. -/
def limit (r : Regex) : Nat := r.leaves * r.counts

def limitOfAll (rs : List Regex) : Nat := leavesOfAll rs * countsOfAll rs

theorem limit_add_le (first : Regex) (rest : List Regex) :
    first.limit + limitOfAll rest ≤ limitOfAll (first :: rest) := by
  have own := Nat.le_mul_of_pos_right first.counts (countsOfAll_pos rest)
  have others := Nat.le_mul_of_pos_left (countsOfAll rest) (counts_pos first)
  calc first.leaves * first.counts + leavesOfAll rest * countsOfAll rest
      ≤ first.leaves * (first.counts * countsOfAll rest) +
          leavesOfAll rest * (first.counts * countsOfAll rest) :=
        Nat.add_le_add (Nat.mul_le_mul_left _ own) (Nat.mul_le_mul_left _ others)
    _ = (first.leaves + leavesOfAll rest) * (first.counts * countsOfAll rest) :=
        (Nat.add_mul _ _ _).symm

theorem limit_repetition (inner : Regex) (least : Nat) (most : Option Nat) :
    (repetition inner least most).limit = inner.limit * max 1 least :=
  (Nat.mul_assoc _ _ _).symm

mutual

theorem length_le_limit : ∀ (r : Regex) {n : Nat}, r.lengthIn id = some n → n ≤ r.limit
  | symbol _, n, fixed => by
    cases fixed
    exact Nat.le_refl 1
  | symbolClass _, n, fixed => by
    cases fixed
    exact Nat.le_refl 1
  | empty, n, fixed => by
    cases fixed
    exact Nat.zero_le _
  | concatenation factors, n, fixed => by
    rw [lengthIn] at fixed
    exact totalLength_le_limit factors fixed
  | alternation [], n, fixed => nomatch fixed
  | alternation (first :: rest), n, fixed => by
    have own : first.lengthIn id = some n := by
      have same := lengthsIn_of_alternation fixed
      rw [lengthsIn] at same
      exact same _ List.mem_cons_self
    have total : _ ≤ (alternation (first :: rest)).limit := limit_add_le first rest
    exact Nat.le_trans (length_le_limit first own) (Nat.le_trans (Nat.le_add_right _ _) total)
  | star inner, n, fixed => length_le_limit inner (Option.filter_eq_some_iff.mp fixed).1
  | plus inner, n, fixed => length_le_limit inner (Option.filter_eq_some_iff.mp fixed).1
  | optional inner, n, fixed => length_le_limit inner (Option.filter_eq_some_iff.mp fixed).1
  | repetition inner least most, n, fixed => by
    obtain ⟨length, inner_fixed, empty | counted⟩ := lengthIn_of_repetition fixed
    · rw [empty.2]
      exact Nat.zero_le _
    · rw [counted.2, limit_repetition]
      exact Nat.mul_le_mul (length_le_limit inner inner_fixed) (Nat.le_max_right 1 least)

theorem totalLength_le_limit : ∀ (factors : List Regex) {n : Nat},
    totalLengthIn id factors = some n → n ≤ limitOfAll factors
  | [], n, fixed => by
    cases fixed
    exact Nat.zero_le _
  | first :: rest, n, fixed => by
    rw [totalLengthIn] at fixed
    split at fixed
    next a b own others =>
      cases fixed
      have one := length_le_limit first own
      have more := totalLength_le_limit rest others
      exact Nat.le_trans (Nat.add_le_add one more) (limit_add_le first rest)
    next => cases fixed

end

mutual

theorem computed_le_limit : ∀ r : Regex, ∀ n ∈ r.computedIn id, n ≤ r.limit
  | symbol _ => nofun
  | symbolClass _ => nofun
  | empty => nofun
  | concatenation factors => by
    intro n member
    rw [computedIn] at member
    have bound := sums_le_limit factors 0 n member
    rwa [Nat.zero_add] at bound
  | alternation alternates => by
    intro n member
    rw [computedIn] at member
    exact same_le_limit alternates none n member
  | star inner => computed_le_limit inner
  | plus inner => computed_le_limit inner
  | optional inner => computed_le_limit inner
  | repetition inner least most => by
    intro n member
    rw [computedIn] at member
    rcases List.mem_append.mp member with inside | product
    · rw [limit_repetition]
      exact Nat.le_trans (computed_le_limit inner n inside)
        (Nat.le_mul_of_pos_right _ (Nat.le_max_left 1 least))
    · obtain ⟨length, fixed, -, -, rfl⟩ := mem_productIn.mp product
      rw [limit_repetition]
      exact Nat.mul_le_mul (length_le_limit inner fixed) (Nat.le_max_right 1 least)

theorem sums_le_limit : ∀ (factors : List Regex) (sum : Nat),
    ∀ n ∈ computedSumsIn id factors sum, n ≤ sum + limitOfAll factors
  | [], sum => nofun
  | first :: rest, sum => by
    intro n member
    have total := limit_add_le first rest
    rw [computedSumsIn] at member
    rcases List.mem_append.mp member with inside | later
    · have := computed_le_limit first n inside
      omega
    · cases fixed : first.lengthIn id with
      | none =>
        rw [fixed] at later
        cases later
      | some length =>
        rw [fixed] at later
        have own := length_le_limit first fixed
        rcases List.mem_cons.mp later with here | behind
        · omega
        · have := sums_le_limit rest (sum + length) n behind
          omega

theorem same_le_limit : ∀ (alternates : List Regex) (expected : Option Nat),
    ∀ n ∈ computedSameIn id alternates expected, n ≤ limitOfAll alternates
  | [], expected => nofun
  | first :: rest, expected => by
    intro n member
    have total := limit_add_le first rest
    rw [computedSameIn] at member
    rcases List.mem_append.mp member with inside | later
    · have := computed_le_limit first n inside
      omega
    · cases fixed : first.lengthIn id with
      | none =>
        rw [fixed] at later
        cases later
      | some length =>
        rw [fixed] at later
        dsimp only at later
        split at later
        next =>
          have := same_le_limit rest (some length) n later
          omega
        next => cases later

end

theorem toNat_toUInt32 {n : Nat} (small : n < UInt32.size) : n.toUInt32.toNat = n :=
  UInt32.toNat_ofNat_of_lt' small

theorem map_toNat_toUInt32 {numbers : List Nat} (small : ∀ n ∈ numbers, n < UInt32.size) :
    (numbers.map Nat.toUInt32).map UInt32.toNat = numbers := by
  rw [List.map_map]
  conv => rhs; rw [← List.map_id numbers]
  exact List.map_congr_left fun n member => toNat_toUInt32 (small n member)

/-- In 32 bits, the sums and products for the fixed length of an expression that was read from a text
are those in unlimited numbers exactly if all of these fit, and then the fixed length is the right one.
None of them exceeds the length of the text times the least counts of all repetitions in it. -/
theorem computed_ofText {text : List Char} {r : Regex} (accepted : ofText text = .ok r) :
    ((r.computedIn Nat.toUInt32).map UInt32.toNat = r.computedIn id ↔
      ∀ n ∈ r.computedIn id, n < UInt32.size) ∧
    ((∀ n ∈ r.computedIn id, n < UInt32.size) →
      r.fixedLength.map UInt32.toNat = r.exactLength) ∧
    ∀ n ∈ r.computedIn id, n ≤ text.length * r.counts := by
  refine ⟨⟨?_, fun fits => ?_⟩, fun fits => ?_, fun n member => ?_⟩
  · intro same n member
    rw [← same] at member
    obtain ⟨stored, _, rfl⟩ := List.mem_map.mp member
    exact stored.toNat_lt
  · rw [(faithful_of_fits r fits).computed]
    exact map_toNat_toUInt32 fits
  · have faithful := faithful_of_fits r fits
    rw [fixedLength, faithful.length, exactLength]
    cases fixed : r.lengthIn id with
    | none => rfl
    | some n => exact congrArg some (toNat_toUInt32 (faithful.small n fixed))
  · exact Nat.le_trans (computed_le_limit r n member)
      (Nat.mul_le_mul_right r.counts (leaves_ofText accepted))

/-- Three times two letters and two more. -/
def eightLetters : Regex :=
  .concatenation [.repetition (.concatenation [.symbol 97, .symbol 98]) 3 (some 3),
    .repetition (.symbol 99) 2 (some 2)]

theorem eightLetters_computed :
    ofText "(ab)\x7b3\x7dc\x7b2\x7d".toList = .ok eightLetters ∧
      eightLetters.computedIn id = [1, 2, 6, 6, 2, 8] ∧
      (eightLetters.computedIn Nat.toUInt32).map UInt32.toNat = [1, 2, 6, 6, 2, 8] ∧
      eightLetters.fixedLength.map UInt32.toNat = some 8 := by
  have accepted : ofText "(ab)\x7b3\x7dc\x7b2\x7d".toList = .ok eightLetters := rfl
  have numbers : eightLetters.computedIn id = [1, 2, 6, 6, 2, 8] := by decide
  obtain ⟨same, length, limited⟩ := computed_ofText accepted
  have fits : ∀ n ∈ eightLetters.computedIn id, n < UInt32.size := fun n member =>
    Nat.lt_of_le_of_lt (limited n member) (by decide)
  refine ⟨accepted, numbers, ?_, ?_⟩
  · rw [same.mpr fits, numbers]
  · rw [length fits]
    decide

/-- As many letters as there are words, any number of times. -/
def wordsOfLetters : Regex :=
  .star (.repetition (.repetition (.symbol 97) 65536 (some 65536)) 65536 (some 65536))

/-- The product of the counts is one more than the greatest word. What is repeated is taken to be
empty, so the whole gets a fixed length that it has not. -/
theorem wordsOfLetters_overflows :
    ofText "(a\x7b65536\x7d\x7b65536\x7d)*".toList = .ok wordsOfLetters ∧
      wordsOfLetters.computedIn id = [65536, 4294967296] ∧
      wordsOfLetters.computedIn Nat.toUInt32 = [65536, 0] ∧
      ¬(∀ n ∈ wordsOfLetters.computedIn id, n < UInt32.size) ∧
      wordsOfLetters.fixedLength = some 0 ∧ wordsOfLetters.exactLength = none := by
  refine ⟨rfl, ?_⟩
  decide +kernel

end Scangen.Regex
