import Scangen.Proofs.Pattern.Uniform

/-!
Fixed lengths are found wherever all words have the same length, apart from what is repeated no times
at all: that does not show in the words, but it needs a fixed length of its own.
-/

namespace Scangen

/-- The class stands for this letter over the charset. -/
def Charset.Reads (charset : Charset) (k : SymbolClass) (x : Nat) : Prop := x ∈ k.resolve charset

namespace Regex

variable {reads : SymbolClass → Nat → Prop}

/-- The expression itself, whatever its parts are, does not rob a language of all its words. -/
def Productive (reads : SymbolClass → Nat → Prop) : Regex → Prop
  | alternation alternates => alternates ≠ []
  | repetition _ least most => ∀ limit ∈ most, least ≤ limit
  | symbol c => ∃ x, reads ⟨.single c, false⟩ x
  | symbolClass k => ∃ x, reads k x
  | _ => True

/-- What is repeated no times at all has words of one length only. -/
def Settled (reads : SymbolClass → Nat → Prop) : Regex → Prop
  | repetition inner _ most => most = some 0 → ∃ n, Uniform (inner.MatchesBy reads) n
  | _ => True

/-! Parts that are productive give the expression words. -/

mutual

theorem exists_matchesBy : ∀ r : Regex, (∀ part ∈ r.parts, part.Productive reads) →
    ∃ word, r.MatchesBy reads word
  | alternation [], productive => by
    have given := productive _ (self_mem_parts _)
    exact absurd rfl given
  | alternation (first :: rest), productive => by
    obtain ⟨word, matched⟩ := exists_matchesBy first fun part member =>
      productive part (by simp [parts, partsOfAll, member])
    refine ⟨word, ?_⟩
    rw [MatchesBy, MatchesSome]
    exact Or.inl matched
  | concatenation factors, productive => by
    obtain ⟨word, matched⟩ := exists_matchesEach factors fun part member =>
      productive part (by simp [parts, member])
    exact ⟨word, by rwa [MatchesBy]⟩
  | star inner, _ => by
    refine ⟨[], ?_⟩
    rw [MatchesBy]
    exact ⟨0, .none⟩
  | plus inner, productive => by
    obtain ⟨word, matched⟩ := exists_matchesBy inner fun part member =>
      productive part (by simp [parts, member])
    refine ⟨word, ?_⟩
    rw [MatchesBy]
    exact ⟨0, .once matched⟩
  | optional inner, _ => by
    refine ⟨[], ?_⟩
    rw [MatchesBy]
    exact Or.inl rfl
  | repetition inner least most, productive => by
    have inOrder := productive _ (self_mem_parts _)
    obtain ⟨word, matched⟩ := exists_matchesBy inner fun part member =>
      productive part (by simp [parts, member])
    obtain ⟨words, repeated, _⟩ := exists_repeated matched least
    refine ⟨words, ?_⟩
    rw [MatchesBy]
    exact ⟨least, Nat.le_refl least, inOrder, repeated⟩
  | symbol c, productive => by
    obtain ⟨x, read⟩ := productive _ (self_mem_parts _)
    refine ⟨[x], ?_⟩
    rw [MatchesBy]
    exact ⟨x, read, rfl⟩
  | symbolClass k, productive => by
    obtain ⟨x, read⟩ := productive _ (self_mem_parts _)
    refine ⟨[x], ?_⟩
    rw [MatchesBy]
    exact ⟨x, read, rfl⟩
  | empty, _ => ⟨[], by rw [MatchesBy]⟩

theorem exists_matchesEach : ∀ rs : List Regex,
    (∀ part ∈ partsOfAll rs, part.Productive reads) → ∃ word, MatchesEach reads rs word
  | [], _ => ⟨[], by rw [MatchesEach]⟩
  | first :: rest, productive => by
    obtain ⟨before, one⟩ := exists_matchesBy first fun part member =>
      productive part (by simp [partsOfAll, member])
    obtain ⟨after, others⟩ := exists_matchesEach rest fun part member =>
      productive part (by simp [partsOfAll, member])
    refine ⟨before ++ after, ?_⟩
    rw [MatchesEach]
    exact ⟨before, after, rfl, one, others⟩

end

/-! The length of all words is found, part by part. -/

theorem exactLength_alternation {alternates : List Regex} {n : Nat} (given : alternates ≠ [])
    (all : ∀ length ∈ lengthsIn id alternates, length = some n) :
    (alternation alternates).exactLength = some n := by
  cases alternates with
  | nil => exact absurd rfl given
  | cons first rest =>
    rw [lengthsIn, List.forall_mem_cons] at all
    have same : (lengthsIn id rest).all (· = some n) = true :=
      List.all_eq_true.mpr fun length member => decide_eq_true (all.2 length member)
    rw [exactLength, lengthIn, lengthsIn, all.1]
    simp [same]

theorem exactLength_repetition {inner : Regex} {least length : Nat} {most : Option Nat}
    (fixed : inner.exactLength = some length) (still : length = 0 ∨ most = some least) :
    (repetition inner least most).exactLength = some (length * least) := by
  rw [exactLength] at fixed
  rw [exactLength, lengthIn, fixed]
  cases still with
  | inl zero => simp [zero]
  | inr counted =>
    by_cases zero : length = 0
    · simp [zero]
    · simp [zero, counted]

section Zero

variable {inner : Regex} (fixed : inner.exactLength = some 0)

include fixed

theorem filter_zero_eq : (inner.lengthIn id).filter (· = id 0) = some 0 := by
  rw [exactLength] at fixed
  simp [fixed]

theorem exactLength_star : (star inner).exactLength = some 0 := by
  rw [exactLength, lengthIn, filter_zero_eq fixed]

theorem exactLength_plus : (plus inner).exactLength = some 0 := by
  rw [exactLength, lengthIn, filter_zero_eq fixed]

theorem exactLength_optional : (optional inner).exactLength = some 0 := by
  rw [exactLength, lengthIn, filter_zero_eq fixed]

end Zero

/-! What the length of all words tells of the words of a part. -/

section Uniform

variable {inner : Regex} {n : Nat}

theorem uniform_of_star (uniform : Uniform ((star inner).MatchesBy reads) n) :
    n = 0 ∧ Uniform (inner.MatchesBy reads) 0 := by
  have repeats : ∀ count, Uniform (Repeated (inner.MatchesBy reads) count) n := by
    intro count word matched
    apply uniform
    rw [MatchesBy]
    exact ⟨count, matched⟩
  have nothing : 0 = n := repeats 0 [] .none
  exact ⟨nothing.symm, fun word matched => nothing ▸ repeats 1 word (.once matched)⟩

/-- A word is as long as two copies of it. -/
theorem uniform_of_plus {word : List Nat} (one : inner.MatchesBy reads word)
    (uniform : Uniform ((plus inner).MatchesBy reads) n) :
    n = 0 ∧ Uniform (inner.MatchesBy reads) 0 := by
  have repeats : ∀ count, Uniform (Repeated (inner.MatchesBy reads) (count + 1)) n := by
    intro count word matched
    apply uniform
    rw [MatchesBy]
    exact ⟨count, matched⟩
  have short : ∀ word, inner.MatchesBy reads word → word.length = 0 ∧ 0 = n := by
    intro word matched
    have once := (repeats 0).mul_length matched
    have twice := (repeats 1).mul_length matched
    omega
  exact ⟨(short word one).2.symm, fun word matched => (short word matched).1⟩

theorem uniform_of_optional (uniform : Uniform ((optional inner).MatchesBy reads) n) :
    n = 0 ∧ Uniform (inner.MatchesBy reads) 0 := by
  have nothing : 0 = n := uniform [] (by rw [MatchesBy]; exact Or.inl rfl)
  refine ⟨nothing.symm, fun word matched => ?_⟩
  exact nothing ▸ uniform word (by rw [MatchesBy]; exact Or.inr matched)

/-- What is repeated no times at all does not show in the words, but is settled on its own. -/
theorem uniform_of_repetition {word : List Nat} {least : Nat} {most : Option Nat}
    (one : inner.MatchesBy reads word) (inOrder : ∀ limit ∈ most, least ≤ limit)
    (settled : most = some 0 → ∃ length, Uniform (inner.MatchesBy reads) length)
    (uniform : Uniform ((repetition inner least most).MatchesBy reads) n) :
    ∃ length, Uniform (inner.MatchesBy reads) length ∧ n = length * least ∧
      (length = 0 ∨ most = some least) := by
  have repeats : ∀ count, least ≤ count → (∀ limit ∈ most, count ≤ limit) →
      Uniform (Repeated (inner.MatchesBy reads) count) n := by
    intro count enough few word matched
    apply uniform
    rw [MatchesBy]
    exact ⟨count, enough, few, matched⟩
  by_cases used : most = some 0
  · obtain ⟨length, each⟩ := settled used
    have never : least = 0 := Nat.le_zero.mp (inOrder 0 used)
    have nothing := (repeats least (Nat.le_refl least) inOrder).mul_length one
    rw [never, Nat.zero_mul] at nothing
    exact ⟨length, each, by rw [never, ← nothing, Nat.mul_zero], Or.inr (by rw [used, never])⟩
  · exact ⟨word.length, Uniform.of_repetition one inOrder used repeats⟩

end Uniform

mutual

theorem exactLength_of_uniform : ∀ (r : Regex) {n : Nat},
    (∀ part ∈ r.parts, part.Productive reads ∧ part.Settled reads) →
    Uniform (r.MatchesBy reads) n → r.exactLength = some n
  | alternation alternates, n, known, uniform => by
    have given := (known _ (self_mem_parts _)).1
    apply exactLength_alternation given
    apply lengthsIn_of_uniform alternates
    · exact fun part member => known part (by simp [parts, member])
    · intro word matched
      exact uniform word (by rwa [MatchesBy])
  | concatenation factors, n, known, uniform => by
    rw [exactLength, lengthIn]
    apply totalLengthIn_of_uniform factors
    · exact fun part member => known part (by simp [parts, member])
    · intro word matched
      exact uniform word (by rwa [MatchesBy])
  | star inner, n, known, uniform => by
    obtain ⟨rfl, each⟩ := uniform_of_star uniform
    apply exactLength_star
    exact exactLength_of_uniform inner (fun part member => known part (by simp [parts, member])) each
  | plus inner, n, known, uniform => by
    have inner_known : ∀ part ∈ inner.parts, part.Productive reads ∧ part.Settled reads :=
      fun part member => known part (by simp [parts, member])
    obtain ⟨word, one⟩ := exists_matchesBy inner fun part member => (inner_known part member).1
    obtain ⟨rfl, each⟩ := uniform_of_plus one uniform
    exact exactLength_plus (exactLength_of_uniform inner inner_known each)
  | optional inner, n, known, uniform => by
    obtain ⟨rfl, each⟩ := uniform_of_optional uniform
    apply exactLength_optional
    exact exactLength_of_uniform inner (fun part member => known part (by simp [parts, member])) each
  | repetition inner least most, n, known, uniform => by
    have inner_known : ∀ part ∈ inner.parts, part.Productive reads ∧ part.Settled reads :=
      fun part member => known part (by simp [parts, member])
    obtain ⟨inOrder, settled⟩ := known _ (self_mem_parts _)
    rw [Productive] at inOrder
    rw [Settled] at settled
    obtain ⟨word, one⟩ := exists_matchesBy inner fun part member => (inner_known part member).1
    obtain ⟨length, each, rfl, still⟩ := uniform_of_repetition one inOrder settled uniform
    exact exactLength_repetition (exactLength_of_uniform inner inner_known each) still
  | symbol c, n, known, uniform => by
    obtain ⟨x, read⟩ := (known _ (self_mem_parts _)).1
    have one : 1 = n := uniform [x] (by rw [MatchesBy]; exact ⟨x, read, rfl⟩)
    rw [exactLength, lengthIn, id_eq, one]
  | symbolClass k, n, known, uniform => by
    obtain ⟨x, read⟩ := (known _ (self_mem_parts _)).1
    have one : 1 = n := uniform [x] (by rw [MatchesBy]; exact ⟨x, read, rfl⟩)
    rw [exactLength, lengthIn, id_eq, one]
  | empty, n, _, uniform => by
    have nothing : 0 = n := uniform [] (by rw [MatchesBy])
    rw [exactLength, lengthIn, id_eq, nothing]

theorem lengthsIn_of_uniform : ∀ (alternates : List Regex) {n : Nat},
    (∀ part ∈ partsOfAll alternates, part.Productive reads ∧ part.Settled reads) →
    Uniform (MatchesSome reads alternates) n → ∀ length ∈ lengthsIn id alternates, length = some n
  | [], n, _, _ => by simp [lengthsIn]
  | first :: rest, n, known, uniform => by
    rw [lengthsIn, List.forall_mem_cons]
    constructor
    · apply exactLength_of_uniform first
      · exact fun part member => known part (by simp [partsOfAll, member])
      · intro word matched
        exact uniform word (by rw [MatchesSome]; exact Or.inl matched)
    · apply lengthsIn_of_uniform rest
      · exact fun part member => known part (by simp [partsOfAll, member])
      · intro word matched
        exact uniform word (by rw [MatchesSome]; exact Or.inr matched)

theorem totalLengthIn_of_uniform : ∀ (factors : List Regex) {n : Nat},
    (∀ part ∈ partsOfAll factors, part.Productive reads ∧ part.Settled reads) →
    Uniform (MatchesEach reads factors) n → totalLengthIn id factors = some n
  | [], n, _, uniform => by
    have nothing : 0 = n := uniform [] (by rw [MatchesEach])
    rw [totalLengthIn, id_eq, nothing]
  | first :: rest, n, known, uniform => by
    have first_known : ∀ part ∈ first.parts, part.Productive reads ∧ part.Settled reads :=
      fun part member => known part (by simp [partsOfAll, member])
    have rest_known : ∀ part ∈ partsOfAll rest, part.Productive reads ∧ part.Settled reads :=
      fun part member => known part (by simp [partsOfAll, member])
    have joined : ∀ before after, first.MatchesBy reads before → MatchesEach reads rest after →
        before.length + after.length = n := by
      intro before after one others
      rw [← List.length_append]
      apply uniform
      rw [MatchesEach]
      exact ⟨before, after, rfl, one, others⟩
    -- One word of each side is enough to compare all words of the other side.
    obtain ⟨before, one⟩ := exists_matchesBy first fun part member => (first_known part member).1
    obtain ⟨after, others⟩ := exists_matchesEach rest fun part member => (rest_known part member).1
    have total := joined before after one others
    have first_fixed : first.lengthIn id = some before.length := by
      apply exactLength_of_uniform first first_known
      intro word matched
      have other := joined word after matched others
      omega
    have rest_fixed : totalLengthIn id rest = some after.length := by
      apply totalLengthIn_of_uniform rest rest_known
      intro word matched
      have other := joined before word one matched
      omega
    rw [totalLengthIn, first_fixed, rest_fixed]
    exact congrArg some total

end

/-! Where an expression has a fixed length, all its parts have one. -/

theorem exists_fixed_cons {r : Regex} {others : List Regex} {n : Nat} (fixed : r.exactLength = some n)
    (rest : ∀ part ∈ others, ∃ m, part.exactLength = some m) :
    ∀ part ∈ r :: others, ∃ m, part.exactLength = some m :=
  List.forall_mem_cons.mpr ⟨⟨n, fixed⟩, rest⟩

mutual

theorem parts_fixed : ∀ (r : Regex) {n : Nat}, r.exactLength = some n →
    ∀ part ∈ r.parts, ∃ m, part.exactLength = some m
  | alternation alternates, _, fixed => by
    rw [parts]
    refine exists_fixed_cons fixed (partsOfAll_fixed alternates ?_)
    exact fun length member => ⟨_, lengthsIn_of_alternation fixed length member⟩
  | concatenation factors, _, fixed => by
    rw [parts]
    have total := fixed
    rw [exactLength, lengthIn] at total
    exact exists_fixed_cons fixed (partsOfAll_fixed_total factors total)
  | star inner, _, fixed => by
    rw [parts]
    have shape := fixed
    rw [exactLength, lengthIn] at shape
    exact exists_fixed_cons fixed (parts_fixed inner (Option.filter_eq_some_iff.mp shape).1)
  | plus inner, _, fixed => by
    rw [parts]
    have shape := fixed
    rw [exactLength, lengthIn] at shape
    exact exists_fixed_cons fixed (parts_fixed inner (Option.filter_eq_some_iff.mp shape).1)
  | optional inner, _, fixed => by
    rw [parts]
    have shape := fixed
    rw [exactLength, lengthIn] at shape
    exact exists_fixed_cons fixed (parts_fixed inner (Option.filter_eq_some_iff.mp shape).1)
  | repetition inner least most, _, fixed => by
    rw [parts]
    obtain ⟨_, inner_fixed, _⟩ := lengthIn_of_repetition fixed
    exact exists_fixed_cons fixed (parts_fixed inner inner_fixed)
  | symbol c, _, fixed => by
    rw [parts]
    exact exists_fixed_cons fixed (List.forall_mem_nil _)
  | symbolClass k, _, fixed => by
    rw [parts]
    exact exists_fixed_cons fixed (List.forall_mem_nil _)
  | empty, _, fixed => by
    rw [parts]
    exact exists_fixed_cons fixed (List.forall_mem_nil _)

theorem partsOfAll_fixed : ∀ alternates : List Regex,
    (∀ length ∈ lengthsIn id alternates, ∃ n, length = some n) →
    ∀ part ∈ partsOfAll alternates, ∃ m, part.exactLength = some m
  | [], _ => by simp [partsOfAll]
  | first :: rest, fixed => by
    rw [lengthsIn, List.forall_mem_cons] at fixed
    obtain ⟨⟨_, first_fixed⟩, rest_fixed⟩ := fixed
    rw [partsOfAll, List.forall_mem_append]
    exact ⟨parts_fixed first first_fixed, partsOfAll_fixed rest rest_fixed⟩

theorem partsOfAll_fixed_total : ∀ (factors : List Regex) {n : Nat},
    totalLengthIn id factors = some n → ∀ part ∈ partsOfAll factors, ∃ m, part.exactLength = some m
  | [], _, _ => by simp [partsOfAll]
  | first :: rest, _, fixed => by
    rw [totalLengthIn] at fixed
    rw [partsOfAll, List.forall_mem_append]
    split at fixed
    next first_fixed rest_fixed =>
      exact ⟨parts_fixed first first_fixed, partsOfAll_fixed_total rest rest_fixed⟩
    next => cases fixed

end

theorem settled_of_exactLength {r : Regex} {n : Nat} (fixed : r.exactLength = some n) :
    ∀ part ∈ r.parts, part.Settled reads := by
  intro part member
  obtain ⟨m, part_fixed⟩ := parts_fixed r fixed part member
  cases part with
  | repetition inner least most =>
    obtain ⟨length, inner_fixed, _⟩ := lengthIn_of_repetition part_fixed
    rw [Settled]
    exact fun _ => ⟨length, uniform_of_exactLength inner_fixed⟩
  | _ => trivial

/-- The length of all words is found exactly if what is repeated no times has one as well. -/
theorem exactLength_eq_some_iff {r : Regex} (productive : ∀ part ∈ r.parts, part.Productive reads)
    {n : Nat} : r.exactLength = some n ↔
      Uniform (r.MatchesBy reads) n ∧ ∀ part ∈ r.parts, part.Settled reads := by
  constructor
  · intro fixed
    exact ⟨uniform_of_exactLength fixed, settled_of_exactLength fixed⟩
  · intro known
    exact exactLength_of_uniform r (fun part member => ⟨productive part member,
      known.2 part member⟩) known.1

/-- Lengths that fit are stored without a change. -/
theorem LengthsFit.stored {r : Regex} (fit : r.LengthsFit) :
    r.fixedLength.map UInt32.toNat = r.exactLength := by
  have same : r.fixedLength = r.exactLength.map Nat.toUInt32 := fixedLength_eq r fit
  rw [same, Option.map_map]
  cases fixed : r.exactLength with
  | none => rfl
  | some n =>
    have small := fit.self n fixed
    simp [Nat.mod_eq_of_lt small]

end Regex

end Scangen
