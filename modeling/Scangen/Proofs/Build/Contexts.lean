import Scangen.Proofs.Build.Reports
import Scangen.Proofs.Pattern.Rigid

/-!
Rules with a context are turned down where neither side of them has a fixed length. A side without
empty parts has one if all its words have the same length and nothing in it, repeated no times at
all, has words of several lengths.
-/

namespace Scangen

open Classical

theorem Pattern.variable_mem_defects_iff {charset : Charset} {p : Pattern} :
    .variableTrailingContext ∈ p.defects charset ↔ p.Has charset .variableTrailingContext := by
  have listed : .variableTrailingContext ∈
      [DiagnosticKind.anchorWithContext, .variableTrailingContext].filter (p.Has charset ·) ↔
      p.Has charset .variableTrailingContext := by simp
  rw [← listed, ← trailing_problems charset p]
  unfold defects
  cases p.trailing with
  | ok trailing => simp
  | error kind => simp

namespace Spec

variable {spec : Spec} {config : Config} {id : Nat} {rule : Rule} {pattern : Pattern}

/-- What a build reports is a problem of a rule, or that the rule is of no use. -/
theorem exists_rule_of_reported {d : Diagnostic} (reported : d ∈ (spec.build config []).1) :
    ∃ rule id, spec.rules[id]? = some rule ∧
      (d ∈ spec.ruleDefects config.charset rule id ∨
        d = DiagnosticKind.unreachableRule.report rule id) := by
  have all : d ∈ spec.defects config.charset ++ spec.uselessRules config.charset := by
    rw [build_eq, List.nil_append] at reported
    dsimp only at reported
    split at reported
    next => exact List.mem_append_left _ reported
    next => split at reported <;> exact reported
  cases List.mem_append.mp all with
  | inl found =>
    obtain ⟨⟨rule, id⟩, listed, found⟩ := List.mem_flatMap.mp found
    exact ⟨rule, id, List.mem_zipIdx_iff_getElem?.mp listed, Or.inl found⟩
  | inr useless =>
    obtain ⟨⟨rule, id⟩, listed, same⟩ := List.mem_filterMap.mp useless
    refine ⟨rule, id, List.mem_zipIdx_iff_getElem?.mp listed, Or.inr ?_⟩
    dsimp only at same
    split at same
    next => cases same
    next =>
      split at same
      next => cases same
      next => exact (Option.some.inj same).symm

/-- Only a rule that has the problem is turned down for it. -/
theorem has_of_reported (found : spec.rules[id]? = some rule)
    (matching : rule.pattern = .matching pattern) {d : Diagnostic}
    (reported : d ∈ (spec.build config []).1) (about : d.rule = some id)
    (kind : d.kind = .variableTrailingContext) :
    pattern.Has config.charset .variableTrailingContext := by
  obtain ⟨rule', id', found', problem⟩ := exists_rule_of_reported reported
  cases problem with
  | inl problem =>
    obtain ⟨kind', listed, rfl⟩ := List.mem_map.mp problem
    cases about
    cases found.symm.trans found'
    cases kind
    rw [matching] at listed
    simpa [Pattern.variable_mem_defects_iff] using listed
  | inr useless =>
    rw [useless] at kind
    cases kind

/-- The rule has the expression in front of its context, or as the context. -/
def HasSide (spec : Spec) (id : Nat) (r : Regex) : Prop :=
  ∃ rule pattern, spec.rules[id]? = some rule ∧ rule.pattern = .matching pattern ∧
    (pattern.body = r ∨ pattern.context = some r)

/-- The build reports that neither side of the rule has a fixed length. -/
def Refuses (spec : Spec) (config : Config) (id : Nat) : Prop :=
  ∃ d ∈ (spec.build config []).1, d.rule = some id ∧ d.kind = .variableTrailingContext

theorem Refuses.not_fixed {r : Regex} (refuses : spec.Refuses config id)
    (side : spec.HasSide id r) : r.fixedLength = none := by
  obtain ⟨d, reported, about, kind⟩ := refuses
  obtain ⟨rule, pattern, found, matching, side⟩ := side
  obtain ⟨⟨context, given, behind⟩, _, front⟩ := has_of_reported found matching reported about kind
  cases side with
  | inl body => exact body ▸ front
  | inr other =>
    cases other.symm.trans given
    exact behind

/-- The fixed length of an expression whose lengths can be stored is that of all its words, and it is
found exactly if what is repeated no times has words of one length only as well. No rule is turned
down for its context if one side of it is like that. -/
theorem fixedLength_exact {charset : Charset} {r : Regex}
    (productive : ∀ part ∈ r.parts, part.Productive charset.Reads) (fit : r.LengthsFit) :
    (∀ n, r.fixedLength.map UInt32.toNat = some n ↔
      Uniform (r.Matches charset) n ∧ ∀ part ∈ r.parts, part.Settled charset.Reads) ∧
    ((∃ n, Uniform (r.Matches charset) n) → (∀ part ∈ r.parts, part.Settled charset.Reads) →
      ∀ (spec : Spec) (config : Config) (id : Nat), spec.HasSide id r →
        ¬spec.Refuses config id) := by
  have found : ∀ n, r.fixedLength.map UInt32.toNat = some n ↔
      Uniform (r.Matches charset) n ∧ ∀ part ∈ r.parts, part.Settled charset.Reads := by
    intro n
    rw [fit.stored]
    exact Regex.exactLength_eq_some_iff productive
  refine ⟨found, ?_⟩
  intro known settled spec config id side refuses
  obtain ⟨n, uniform⟩ := known
  have stored := (found n).mpr ⟨uniform, settled⟩
  rw [refuses.not_fixed side] at stored
  cases stored

theorem reads_letter {c : Nat} (letter : c ∈ [97, 98, 99, 120]) :
    ∃ x, byteConfig.charset.Reads ⟨.single c, false⟩ x := by
  refine ⟨c, ?_⟩
  rw [Charset.Reads, ← SymbolSet.contains_iff]
  revert c
  decide +kernel

/-- Six letters, and any number of letters behind them. -/
def sixBefore : Spec :=
  ⟨[⟨initialName, false⟩],
    [⟨none, .matching ⟨false, Regex.sixLetters, some (.star (.symbol 98)), false⟩, .inclusive,
      ⟨1, 1⟩⟩]⟩

/-- The length of the letters in front is found, so it does not matter how many there are behind. -/
theorem sixLetters_exact :
    (∀ part ∈ Regex.sixLetters.parts, part.Productive byteConfig.charset.Reads) ∧
      Regex.sixLetters.LengthsFit ∧ Uniform (Regex.sixLetters.Matches byteConfig.charset) 6 ∧
      ¬sixBefore.Refuses byteConfig 0 := by
  have productive : ∀ part ∈ Regex.sixLetters.parts,
      part.Productive byteConfig.charset.Reads := by
    simp [Regex.sixLetters, Regex.twoLetters, Regex.parts, Regex.partsOfAll, Regex.Productive,
      reads_letter]
  obtain ⟨found, accepts⟩ := fixedLength_exact productive Regex.sixLetters_fit
  obtain ⟨uniform, settled⟩ := (found 6).mp (by decide +kernel)
  have side : sixBefore.HasSide 0 Regex.sixLetters := ⟨_, _, rfl, rfl, Or.inl rfl⟩
  exact ⟨productive, Regex.sixLetters_fit, uniform,
    accepts ⟨6, uniform⟩ settled sixBefore byteConfig 0 side⟩

/-- One letter, and another one any number of times, but all this no times. -/
def letterOnly : Regex :=
  .concatenation [.symbol 120, .repetition (.star (.symbol 97)) 0 (some 0)]

def letterBefore : Spec :=
  ⟨[⟨initialName, false⟩],
    [⟨none, .matching ⟨false, letterOnly, some (.plus (.symbol 98)), false⟩, .inclusive, ⟨1, 1⟩⟩]⟩

/-- All words are one letter, but this length is not found, and the rule is turned down. -/
theorem letterOnly_refused :
    (∀ part ∈ letterOnly.parts, part.Productive byteConfig.charset.Reads) ∧
      letterOnly.LengthsFit ∧ Uniform (letterOnly.Matches byteConfig.charset) 1 ∧
      letterOnly.fixedLength = none ∧ letterBefore.HasSide 0 letterOnly ∧
      letterBefore.Refuses byteConfig 0 ∧
      (letterBefore.build byteConfig []).2 = .error .beforeSubsets := by
  have productive : ∀ part ∈ letterOnly.parts, part.Productive byteConfig.charset.Reads := by
    simp [letterOnly, Regex.parts, Regex.partsOfAll, Regex.Productive, reads_letter]
  have fit : letterOnly.LengthsFit := by
    unfold Regex.LengthsFit
    decide +kernel
  have uniform : Uniform (letterOnly.Matches byteConfig.charset) 1 := by
    intro word matched
    rw [letterOnly, Regex.Matches, Regex.MatchesBy, Regex.MatchesEach] at matched
    obtain ⟨before, after, rfl, one, matched⟩ := matched
    rw [Regex.MatchesBy] at one
    obtain ⟨x, _, rfl⟩ := one
    rw [Regex.MatchesEach] at matched
    obtain ⟨middle, rest, rfl, repeated, nothing⟩ := matched
    rw [Regex.MatchesEach] at nothing
    rw [Regex.MatchesBy] at repeated
    obtain ⟨count, _, few, repeated⟩ := repeated
    cases Nat.le_zero.mp (few 0 rfl)
    cases repeated
    rw [nothing]
    rfl
  refine ⟨productive, fit, uniform, by decide +kernel, ⟨_, _, rfl, rfl, Or.inl rfl⟩, ?_, ?_⟩
  · unfold Refuses
    decide +kernel
  · decide +kernel

end Spec

end Scangen
