import Mathlib.Data.List.Basic
import Scangen.Pattern.Language

/-!
All words of an expression with a fixed length have that length, in every kind of number that
lengths can be counted in. In 32 bits the length is right up to multiples of the size of a word, and
it is exact where all lengths fit.
-/

namespace Scangen

/-- Lengths can be added up and multiplied by counts in this kind of number. -/
structure Counting {α : Type} [Add α] [Mul α] (ofNat : Nat → α) : Prop where
  add : ∀ a b, ofNat (a + b) = ofNat a + ofNat b
  mul_zero : ∀ n, n * ofNat 0 = ofNat 0
  mul_succ : ∀ n count, n * ofNat (count + 1) = n * ofNat count + n

theorem counting_id : Counting (id : Nat → Nat) := ⟨fun _ _ => rfl, Nat.mul_zero, Nat.mul_succ⟩

theorem counting_toUInt32 : Counting Nat.toUInt32 := by
  constructor
  · intro a b
    exact UInt32.ofNat_add a b
  · intro n
    exact UInt32.mul_zero
  · intro n count
    show n * UInt32.ofNat (count + 1) = n * UInt32.ofNat count + n
    rw [UInt32.ofNat_add, UInt32.mul_add]
    exact congrArg (n * UInt32.ofNat count + ·) (UInt32.mul_one n)

section

variable {α : Type} [Add α] [Mul α] {ofNat : Nat → α} {reads : SymbolClass → Nat → Prop}

theorem Counting.zero_mul (counting : Counting ofNat) (count : Nat) :
    ofNat 0 * ofNat count = ofNat 0 := by
  induction count with
  | zero => exact counting.mul_zero _
  | succ count ih => rw [counting.mul_succ, ih, ← counting.add]

theorem Repeated.length (counting : Counting ofNat) {language : List Nat → Prop} {n : α}
    (each : ∀ word, language word → ofNat word.length = n) {count : Nat} {word : List Nat}
    (reads : Repeated language count word) : ofNat word.length = n * ofNat count := by
  induction reads with
  | none => exact (counting.mul_zero n).symm
  | @more count first rest one _ ih =>
    rw [List.length_append, Nat.add_comm, counting.add, each first one, ih, counting.mul_succ]

theorem Repeated.length_zero (counting : Counting ofNat) {language : List Nat → Prop}
    (each : ∀ word, language word → ofNat word.length = ofNat 0) {count : Nat} {word : List Nat}
    (reads : Repeated language count word) : ofNat word.length = ofNat 0 := by
  rw [reads.length counting each, counting.zero_mul]

namespace Regex

variable [DecidableEq α] {n : α}

/-- Alternates with a fixed length have it all of them. -/
theorem lengthsIn_of_alternation {alternates : List Regex}
    (fixed : (alternation alternates).lengthIn ofNat = some n) :
    ∀ length ∈ lengthsIn ofNat alternates, length = some n := by
  rw [lengthIn] at fixed
  split at fixed
  next first others lengths =>
    split at fixed
    next same =>
      cases fixed
      intro length member
      rw [lengths] at member
      rcases List.mem_cons.mp member with here | later
      · exact here
      · simpa using List.all_eq_true.mp same length later
    next => cases fixed
  next => cases fixed

/-- What a repetition with a fixed length repeats is empty, or it is repeated a fixed number of
times. -/
theorem lengthIn_of_repetition {inner : Regex} {least : Nat} {most : Option Nat}
    (fixed : (repetition inner least most).lengthIn ofNat = some n) :
    ∃ length, inner.lengthIn ofNat = some length ∧ ((length = ofNat 0 ∧ n = ofNat 0) ∨
      (most = some least ∧ n = length * ofNat least)) := by
  rw [lengthIn] at fixed
  split at fixed
  next => cases fixed
  next length inner_fixed =>
    refine ⟨length, inner_fixed, ?_⟩
    split at fixed
    next zero =>
      cases fixed
      exact Or.inl ⟨zero, rfl⟩
    next =>
      split at fixed
      next same =>
        cases fixed
        exact Or.inr ⟨same, rfl⟩
      next => cases fixed

mutual

theorem length_of_matchesBy (counting : Counting ofNat) : ∀ (r : Regex) {n : α} {word : List Nat},
    r.lengthIn ofNat = some n → r.ordered.MatchesBy reads word → ofNat word.length = n
  | alternation alternates, n, word, fixed, matched => by
    rw [ordered, MatchesBy] at matched
    exact length_of_matchesSome counting alternates (lengthsIn_of_alternation fixed) matched
  | concatenation factors, n, word, fixed, matched => by
    rw [lengthIn] at fixed
    rw [ordered, MatchesBy] at matched
    exact length_of_matchesEach counting factors fixed matched
  | star inner, n, word, fixed, matched => by
    rw [lengthIn] at fixed
    obtain ⟨fixed, zero⟩ := Option.filter_eq_some_iff.mp fixed
    rw [ordered, MatchesBy] at matched
    obtain ⟨count, matched⟩ := matched
    rw [of_decide_eq_true zero] at fixed ⊢
    exact matched.length_zero counting fun word => length_of_matchesBy counting inner fixed
  | plus inner, n, word, fixed, matched => by
    rw [lengthIn] at fixed
    obtain ⟨fixed, zero⟩ := Option.filter_eq_some_iff.mp fixed
    rw [ordered, MatchesBy] at matched
    obtain ⟨count, matched⟩ := matched
    rw [of_decide_eq_true zero] at fixed ⊢
    exact matched.length_zero counting fun word => length_of_matchesBy counting inner fixed
  | optional inner, n, word, fixed, matched => by
    rw [lengthIn] at fixed
    obtain ⟨fixed, zero⟩ := Option.filter_eq_some_iff.mp fixed
    rw [ordered, MatchesBy] at matched
    rcases matched with rfl | matched
    · exact (of_decide_eq_true zero).symm
    · exact length_of_matchesBy counting inner fixed matched
  | repetition inner least most, n, word, fixed, matched => by
    obtain ⟨length, inner_fixed, cases⟩ := lengthIn_of_repetition fixed
    have each : ∀ word, inner.ordered.MatchesBy reads word → ofNat word.length = length :=
      fun word => length_of_matchesBy counting inner inner_fixed
    rw [ordered, MatchesBy] at matched
    obtain ⟨count, enough, limit, matched⟩ := matched
    rcases cases with ⟨zero, rfl⟩ | ⟨same, rfl⟩
    · exact matched.length_zero counting (zero ▸ each)
    · have few : count ≤ least := limit least (by simp [same])
      have exact_count : count = least := by omega
      rw [← exact_count]
      exact matched.length counting each
  | symbol c, n, word, fixed, matched => by
    rw [lengthIn] at fixed
    rw [ordered, MatchesBy] at matched
    obtain ⟨x, _, rfl⟩ := matched
    cases fixed
    rfl
  | symbolClass k, n, word, fixed, matched => by
    rw [lengthIn] at fixed
    rw [ordered, MatchesBy] at matched
    obtain ⟨x, _, rfl⟩ := matched
    cases fixed
    rfl
  | empty, n, word, fixed, matched => by
    rw [lengthIn] at fixed
    rw [ordered, MatchesBy] at matched
    cases fixed
    rw [matched]
    rfl

theorem length_of_matchesSome (counting : Counting ofNat) :
    ∀ (alternates : List Regex) {n : α} {word : List Nat},
    (∀ length ∈ lengthsIn ofNat alternates, length = some n) → MatchesSome reads
    (orderedAll alternates) word →
    ofNat word.length = n
  | [], n, word, _, matched => by
    rw [orderedAll, MatchesSome] at matched
    cases matched
  | first :: rest, n, word, fixed, matched => by
    rw [orderedAll, MatchesSome] at matched
    rw [lengthsIn] at fixed
    rcases matched with matched | matched
    · exact length_of_matchesBy counting first (fixed _ List.mem_cons_self) matched
    · exact length_of_matchesSome counting rest (fun length member =>
        fixed length (List.mem_cons_of_mem _ member))
        matched

theorem length_of_matchesEach (counting : Counting ofNat) :
    ∀ (factors : List Regex) {n : α} {word : List Nat},
    totalLengthIn ofNat factors = some n → MatchesEach reads (orderedAll factors) word →
      ofNat word.length = n
  | [], n, word, fixed, matched => by
    rw [totalLengthIn] at fixed
    rw [orderedAll, MatchesEach] at matched
    cases fixed
    rw [matched]
    rfl
  | first :: rest, n, word, fixed, matched => by
    rw [totalLengthIn] at fixed
    rw [orderedAll, MatchesEach] at matched
    obtain ⟨before, after, rfl, one, others⟩ := matched
    split at fixed
    next a b first_fixed rest_fixed =>
      cases fixed
      rw [List.length_append, counting.add, length_of_matchesBy counting first first_fixed one,
        length_of_matchesEach counting rest rest_fixed others]
    next => cases fixed

end

/-- The stored length is never larger than a word. -/
theorem fixedLength_le {r : Regex} {n : UInt32} {word : List Nat} (fixed : r.fixedLength = some n)
    (matched : r.ordered.MatchesBy reads word) : n.toNat ≤ word.length := by
  have same := length_of_matchesBy counting_toUInt32 r fixed matched
  rw [← same]
  show (UInt32.ofNat word.length).toNat ≤ word.length
  rw [UInt32.toNat_ofNat']
  exact Nat.mod_le _ _

end Regex

end

/-! Lengths that fit are the same in both kinds of number. -/

namespace Regex

theorem toUInt32_inj {m n : Nat} (small : m < UInt32.size) (small' : n < UInt32.size) :
    m.toUInt32 = n.toUInt32 ↔ m = n := by
  constructor
  · intro same
    have numbers := congrArg UInt32.toNat same
    simpa only [Nat.toUInt32_eq, UInt32.toNat_ofNat', Nat.mod_eq_of_lt small,
      Nat.mod_eq_of_lt small'] using numbers
  · exact congrArg Nat.toUInt32

theorem self_mem_parts (r : Regex) : r ∈ r.parts := by
  cases r <;> simp [parts]

theorem LengthsFit.self {r : Regex} (fit : r.LengthsFit) : ∀ n ∈ r.exactLength, n < UInt32.size :=
  fit r r.self_mem_parts

/-- An empty length is one in both kinds of number. -/
theorem filter_zero_map {length : Option Nat} (fits : ∀ n ∈ length, n < UInt32.size) :
    (length.map Nat.toUInt32).filter (· = Nat.toUInt32 0) =
    (length.filter (· = id 0)).map Nat.toUInt32 := by
  cases length with
  | none => rfl
  | some n =>
    have same := toUInt32_inj (fits n rfl) (by decide : 0 < UInt32.size)
    by_cases zero : n = 0
    · subst zero
      rfl
    · have nonzero : ¬n.toUInt32 = Nat.toUInt32 0 := fun zero' => zero (same.mp zero')
      rw [Option.map_some, Option.filter_some_neg (by simpa using nonzero),
        Option.filter_some_neg (by simpa using zero), Option.map_none]

theorem lengthIn_alternation_map {alternates : List Regex}
    (same : lengthsIn Nat.toUInt32 alternates =
      (lengthsIn id alternates).map (Option.map Nat.toUInt32))
    (small : ∀ n, some n ∈ lengthsIn id alternates → n < UInt32.size) :
    (alternation alternates).lengthIn Nat.toUInt32 =
      ((alternation alternates).lengthIn id).map Nat.toUInt32 := by
  rw [lengthIn, lengthIn, same]
  cases lengths : lengthsIn id alternates with
  | nil => rfl
  | cons first others =>
    cases first with
    | none => rfl
    | some first =>
      have first_small := small first (by simp [lengths])
      have agree : (others.map (Option.map Nat.toUInt32)).all (· = some first.toUInt32) =
          others.all (· = some first) := by
        rw [List.all_map, Bool.eq_iff_iff, List.all_eq_true, List.all_eq_true]
        apply forall₂_congr
        intro length member
        cases length with
        | none => simp
        | some n => simpa using toUInt32_inj (small n (by simp [lengths, member])) first_small
      simp only [List.map_cons, Option.map_some, agree]
      split <;> rfl

theorem lengthIn_repetition_map {inner : Regex} {least : Nat} {most : Option Nat}
    (same : inner.lengthIn Nat.toUInt32 = (inner.lengthIn id).map Nat.toUInt32)
    (small : ∀ n ∈ inner.lengthIn id, n < UInt32.size) :
    (repetition inner least most).lengthIn Nat.toUInt32 =
      ((repetition inner least most).lengthIn id).map Nat.toUInt32 := by
  rw [lengthIn, lengthIn, same]
  cases fixed : inner.lengthIn id with
  | none => rfl
  | some length =>
    have same_zero := toUInt32_inj (small length fixed) (by decide : 0 < UInt32.size)
    by_cases zero : length = 0
    · simp [zero]
    · have nonzero : ¬length.toUInt32 = Nat.toUInt32 0 := fun zero' => zero (same_zero.mp zero')
      simp only [Option.map_some, if_neg nonzero, id_eq, if_neg zero]
      by_cases exact_count : most = some least
      · rw [if_pos exact_count, if_pos exact_count, Option.map_some]
        exact congrArg some (UInt32.ofNat_mul length least).symm
      · rw [if_neg exact_count, if_neg exact_count, Option.map_none]

mutual

theorem fixedLength_eq : ∀ r : Regex, r.LengthsFit → r.lengthIn Nat.toUInt32 =
    (r.lengthIn id).map Nat.toUInt32
  | alternation alternates, fit => by
    have inner : ∀ part ∈ partsOfAll alternates, ∀ n ∈ part.exactLength, n < UInt32.size :=
      fun part member => fit part (by simp [parts, member])
    obtain ⟨same, small⟩ := fixedLengths_eq alternates inner
    exact lengthIn_alternation_map same small
  | concatenation factors, fit => by
    have inner : ∀ part ∈ partsOfAll factors, ∀ n ∈ part.exactLength, n < UInt32.size :=
      fun part member => fit part (by simp [parts, member])
    rw [lengthIn, lengthIn]
    exact fixedTotal_eq factors inner
  | star inner, fit => by
    have inner_fit : inner.LengthsFit := fun part member => fit part (by simp [parts, member])
    rw [lengthIn, lengthIn, fixedLength_eq inner inner_fit]
    exact filter_zero_map inner_fit.self
  | plus inner, fit => by
    have inner_fit : inner.LengthsFit := fun part member => fit part (by simp [parts, member])
    rw [lengthIn, lengthIn, fixedLength_eq inner inner_fit]
    exact filter_zero_map inner_fit.self
  | optional inner, fit => by
    have inner_fit : inner.LengthsFit := fun part member => fit part (by simp [parts, member])
    rw [lengthIn, lengthIn, fixedLength_eq inner inner_fit]
    exact filter_zero_map inner_fit.self
  | repetition inner least most, fit => by
    have inner_fit : inner.LengthsFit := fun part member => fit part (by simp [parts, member])
    exact lengthIn_repetition_map (fixedLength_eq inner inner_fit) inner_fit.self
  | symbol _, _ => by simp [lengthIn]
  | symbolClass _, _ => by simp [lengthIn]
  | empty, _ => by simp [lengthIn]

theorem fixedLengths_eq : ∀ rs : List Regex,
    (∀ part ∈ partsOfAll rs, ∀ n ∈ part.exactLength, n < UInt32.size) →
    lengthsIn Nat.toUInt32 rs = (lengthsIn id rs).map (Option.map Nat.toUInt32) ∧
      ∀ n, some n ∈ lengthsIn id rs → n < UInt32.size
  | [], _ => by simp [lengthsIn]
  | first :: rest, fit => by
    have first_fit : first.LengthsFit := fun part member => fit part (by simp [partsOfAll, member])
    obtain ⟨same, small⟩ := fixedLengths_eq rest fun part member =>
      fit part (by simp [partsOfAll, member])
    constructor
    · rw [lengthsIn, lengthsIn, fixedLength_eq first first_fit, same, List.map_cons]
    · intro n member
      rw [lengthsIn] at member
      rcases List.mem_cons.mp member with here | later
      · exact first_fit.self n here.symm
      · exact small n later

theorem fixedTotal_eq : ∀ rs : List Regex,
    (∀ part ∈ partsOfAll rs, ∀ n ∈ part.exactLength, n < UInt32.size) →
    totalLengthIn Nat.toUInt32 rs = (totalLengthIn id rs).map Nat.toUInt32
  | [], _ => by simp [totalLengthIn]
  | first :: rest, fit => by
    have first_fit : first.LengthsFit := fun part member => fit part (by simp [partsOfAll, member])
    rw [totalLengthIn, totalLengthIn, fixedLength_eq first first_fit,
      fixedTotal_eq rest fun part member => fit part (by simp [partsOfAll, member])]
    cases first.lengthIn id with
    | none => rfl
    | some a =>
      cases totalLengthIn id rest with
      | none => rfl
      | some b => simp [counting_toUInt32.add]

end

/-- Where all lengths fit, the stored one is that of every word. -/
theorem LengthsFit.length {r : Regex} (fit : r.LengthsFit) {n : UInt32}
    {reads : SymbolClass → Nat → Prop}
    {word : List Nat} (fixed : r.fixedLength = some n) (matched : r.ordered.MatchesBy reads word) :
    word.length = n.toNat := by
  have same := fixedLength_eq r fit
  rw [fixedLength, same, Option.map_eq_some_iff] at fixed
  obtain ⟨length, exact_length, rfl⟩ := fixed
  have right : word.length = length := length_of_matchesBy counting_id r exact_length matched
  rw [Nat.toUInt32_eq, UInt32.toNat_ofNat', Nat.mod_eq_of_lt (fit.self length exact_length), right]

end Regex

end Scangen
