import Scangen.Proofs.Build.Offers
import Scangen.Proofs.Build.Winners

/-!
Rules that are reported to be unreachable are those whose words all belong to earlier rules as well, in
each condition, at the start of a line and elsewhere.
-/

namespace Scangen

/-- The word is one of the body with one of the context behind it. -/
def Pattern.MatchesWhole (charset : Charset) (p : Pattern) (word : List Nat) : Prop :=
  ∃ token following, word = token ++ following ∧ p.Matches charset token following

/-- A list that is gone through with its positions is gone through by its positions. -/
theorem filterMap_zipIdx {α β : Type} (xs : List α) (f : α × Nat → Option β) :
    xs.zipIdx.filterMap f =
      (List.range xs.length).filterMap fun i => xs[i]?.bind fun x => f (x, i) := by
  have entries : xs.zipIdx.map some =
      (List.range xs.length).map fun i => xs[i]?.map fun x => (x, i) := by
    apply List.ext_getElem
    · simp
    · intro i inside inside'
      rw [List.length_map, List.length_zipIdx] at inside
      simp [inside]
  calc xs.zipIdx.filterMap f
      = (xs.zipIdx.map some).filterMap (Option.bind · f) := by
        rw [List.filterMap_map]
        rfl
    _ = _ := by
        rw [entries, List.filterMap_map]
        apply List.filterMap_congr
        intro i _
        simp only [Function.comp_apply, Option.bind_map]

namespace Spec

variable {spec : Spec} {config : Config} {charset : Charset} {condition id : Nat}
  {atLineStart : Bool} {word : List Nat} {pattern : Pattern}

/-- An earlier rule of the condition may stand here and matches the word, with the end of the line or
without it. -/
def Taken (spec : Spec) (charset : Charset) (condition : Nat) (atLineStart : Bool) (word : List Nat)
    (id : Nat) (lineEnd : Bool) : Prop :=
  ∃ id' < id, ∃ pattern', spec.HasActive condition id' (.matching pattern') ∧
    pattern'.lineEnd = lineEnd ∧ (pattern'.lineStart = true → atLineStart = true) ∧
    pattern'.MatchesWhole charset word

/-- Wherever the rule is active and may stand, all its words are taken. -/
def Shadowed (spec : Spec) (charset : Charset) (id : Nat) (pattern : Pattern) : Prop :=
  ∀ condition, spec.HasActive condition id (.matching pattern) →
    ∀ atLineStart, (pattern.lineStart = true → atLineStart = true) →
      ∀ word, pattern.MatchesWhole charset word →
        spec.Taken charset condition atLineStart word id pattern.lineEnd

/-- The rule has a pattern and is shadowed. -/
def Unreachable (spec : Spec) (charset : Charset) (id : Nat) : Prop :=
  ∃ rule pattern, spec.rules[id]? = some rule ∧ rule.pattern = .matching pattern ∧
    spec.Shadowed charset id pattern

theorem unreachable_iff {rule : Rule} (found : spec.rules[id]? = some rule) :
    spec.Unreachable charset id ↔
      ∃ pattern, rule.pattern = .matching pattern ∧ spec.Shadowed charset id pattern := by
  simp only [Unreachable, found, Option.some_inj, exists_and_left, exists_eq_left']

theorem Unreachable.lt (unreachable : spec.Unreachable charset id) : id < spec.rules.length := by
  obtain ⟨rule, _, found, _⟩ := unreachable
  exact (List.getElem?_eq_some_iff.mp found).1

section InOrder

variable (inOrder : ∀ pattern ∈ spec.patterns, pattern.CountsOrdered)

include inOrder

theorem fits_iff : spec.Fits charset condition atLineStart word id pattern ↔
    spec.HasActive condition id (.matching pattern) ∧
      (pattern.lineStart = true → atLineStart = true) ∧ pattern.MatchesWhole charset word := by
  constructor
  · intro fits
    have words := fits.words
    rw [Pattern.ordered_eq_self (inOrder pattern fits.mem_patterns)] at words
    exact ⟨fits.hasActive, fits.lineStart, words⟩
  · intro fits
    obtain ⟨active, lineStart, words⟩ := fits
    refine ⟨active, lineStart, ?_⟩
    rw [Pattern.ordered_eq_self (inOrder pattern active.mem_patterns)]
    exact words

/-- A rule leads nowhere if its words are taken. -/
theorem Leads.not_shadowed {input : List Nat} {matched : Nat}
    (leads : spec.Leads charset condition atLineStart input matched id pattern) :
    ¬spec.Shadowed charset id pattern := by
  intro shadowed
  obtain ⟨active, lineStart, words⟩ := (fits_iff inOrder).mp leads.fronts.fits
  obtain ⟨id', earlier, pattern', active', alike, lineStart', words'⟩ :=
    shadowed condition active atLineStart lineStart _ words
  have fronts' : spec.Fronts charset condition atLineStart input matched id' pattern' := by
    refine ⟨leads.fronts.inside, (fits_iff inOrder).mpr ⟨active', lineStart', words'⟩, ?_⟩
    rw [alike]
    exact leads.fronts.lineEnd
  have first := leads.first fronts' alike
  omega

/-- On an input that is a word of the rule the rule leads, unless the word is taken. -/
theorem leads_of_not_taken (active : spec.HasActive condition id (.matching pattern))
    (lineStart : pattern.lineStart = true → atLineStart = true)
    (words : pattern.MatchesWhole charset word)
    (free : ¬spec.Taken charset condition atLineStart word id pattern.lineEnd) :
    spec.Leads charset condition atLineStart word word.length id pattern := by
  have all : word.take word.length = word := List.take_length
  refine ⟨⟨Nat.le_refl _, ?_, fun _ => ?_⟩, ?_⟩
  · rw [all]
    exact (fits_iff inOrder).mpr ⟨active, lineStart, words⟩
  · rw [List.drop_length]
    exact Or.inl rfl
  · intro id' pattern' fronts' alike
    have fits' := fronts'.fits
    rw [all] at fits'
    by_contra later
    exact free ⟨id', by omega, pattern', ((fits_iff inOrder).mp fits').1, alike,
      ((fits_iff inOrder).mp fits').2⟩

/-- A rule is shadowed if and only if it wins nowhere. -/
theorem shadowed_iff {rule : Rule} (found : spec.rules[id]? = some rule)
    (matching : rule.pattern = .matching pattern) :
    spec.Shadowed charset id pattern ↔ ¬spec.Wins charset id := by
  constructor
  · intro shadowed wins
    obtain ⟨condition, _, atLineStart, input, matched, pattern', leads⟩ := wins
    have same : pattern' = pattern := by
      have patterns := leads.fronts.fits.hasActive.pattern_eq found
      rw [matching, RulePattern.matching.injEq] at patterns
      exact patterns.symm
    rw [same] at leads
    exact leads.not_shadowed inOrder shadowed
  · intro useless condition active atLineStart lineStart word words
    by_contra free
    exact useless ⟨condition, active.declared, atLineStart, word, word.length, pattern,
      leads_of_not_taken inOrder active lineStart words free⟩

end InOrder

/-- Reports of unreachable rules are exact. Each rule with a pattern that is shadowed by earlier rules is
reported once, in the order of the rules, and no other rule is. -/
theorem unreachableRules_exact (spec : Spec) (config : Config)
    (inOrder : ∀ pattern ∈ spec.patterns, pattern.CountsOrdered) :
    ∃ ids : List Nat, ids.Pairwise (· < ·) ∧
      (∀ id, id ∈ ids ↔ spec.Unreachable config.charset id) ∧
      (Dfa.ofNfa (Nfa.ofSpec spec (Partition.ofSpec spec config) config.charset).1).unreachableRules
          spec =
        ids.filterMap fun id =>
          spec.rules[id]?.map fun rule => DiagnosticKind.unreachableRule.report rule id := by
  classical
  refine ⟨(List.range spec.rules.length).filter (spec.Unreachable config.charset ·), ?_, ?_, ?_⟩
  · exact List.pairwise_lt_range.filter _
  · intro id
    rw [List.mem_filter, List.mem_range, decide_eq_true_iff]
    constructor
    · exact And.right
    · intro unreachable
      exact ⟨unreachable.lt, unreachable⟩
  · have reports := unreachableRules_ofNfa spec config
    rw [nfa] at reports
    rw [reports, uselessRules, filterMap_zipIdx, List.filterMap_filter]
    apply List.filterMap_congr
    intro id inside
    obtain ⟨rule, found⟩ : ∃ rule, spec.rules[id]? = some rule :=
      ⟨_, List.getElem?_eq_getElem (List.mem_range.mp inside)⟩
    rw [found, Option.bind_some, Option.map_some]
    dsimp only
    simp only [decide_eq_true_eq, unreachable_iff found]
    cases kind : rule.pattern with
    | endOfInput => simp
    | matching pattern => simp [shadowed_iff inOrder found kind]

/-- A letter at the start of a line, anywhere, at the start of a line again and at the end of a line. -/
def letterAgain : Spec :=
  ⟨[⟨initialName, false⟩],
    [⟨none, .matching ⟨true, .symbol 97, none, false⟩, .inclusive, ⟨1, 1⟩⟩,
      ⟨none, .matching ⟨false, .symbol 97, none, false⟩, .inclusive, ⟨2, 1⟩⟩,
      ⟨none, .matching ⟨true, .symbol 97, none, false⟩, .inclusive, ⟨3, 1⟩⟩,
      ⟨none, .matching ⟨false, .symbol 97, none, true⟩, .inclusive, ⟨4, 1⟩⟩]⟩

/-- Only the third rule is shadowed: at the end of a line the last one is the first of its kind. -/
theorem letterAgain_reports :
    (∀ pattern ∈ letterAgain.patterns, pattern.CountsOrdered) ∧
    (∃ ids : List Nat, ids.Pairwise (· < ·) ∧
      (∀ id, id ∈ ids ↔ letterAgain.Unreachable byteConfig.charset id) ∧
      (Dfa.ofNfa (Nfa.ofSpec letterAgain (Partition.ofSpec letterAgain byteConfig)
        byteConfig.charset).1).unreachableRules letterAgain =
        ids.filterMap fun id =>
          letterAgain.rules[id]?.map fun rule => DiagnosticKind.unreachableRule.report rule id) ∧
    ((Dfa.ofNfa (Nfa.ofSpec letterAgain (Partition.ofSpec letterAgain byteConfig)
      byteConfig.charset).1).unreachableRules letterAgain).map Diagnostic.rule = [some 2] := by
  have inOrder : ∀ pattern ∈ letterAgain.patterns, pattern.CountsOrdered := by
    intro pattern member
    simp only [patterns, letterAgain, List.filterMap_cons, List.filterMap_nil, List.mem_cons,
      List.not_mem_nil, or_false] at member
    rcases member with rfl | rfl | rfl | rfl <;>
      simp [Pattern.CountsOrdered, Regex.CountsOrdered]
  exact ⟨inOrder, unreachableRules_exact letterAgain byteConfig inOrder, by decide +kernel⟩

end Spec

end Scangen
