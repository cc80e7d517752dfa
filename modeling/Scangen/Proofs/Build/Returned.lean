import Scangen.Proofs.Build.Lexemes
import Scangen.Proofs.Build.Options

/-!
What a successful build promises of its rules. Each one leads somewhere, but only where it leads with
a token that is not empty does a scanner return it.
-/

namespace Scangen

/-- The rule is found somewhere. -/
def Automaton.Returns (automaton : Automaton) (id : Nat) : Prop :=
  ∃ condition input atLineStart m,
    automaton.longestMatch condition input atLineStart = some m ∧ m.rule = id

namespace Spec

/-- The rule matches all of a word with a token that is not empty. Of the rules that ask for the end
of the line if and only if it does, it is the first one to match the word. -/
structure Yields (spec : Spec) (charset : Charset) (condition : Nat) (atLineStart : Bool)
    (word : List Nat) (id : Nat) (pattern : Pattern) : Prop where
  fits : spec.Fits charset condition atLineStart word id pattern
  first : ∀ {id' pattern'}, spec.Fits charset condition atLineStart word id' pattern' →
    pattern'.lineEnd = pattern.lineEnd → id ≤ id'
  token : pattern.cut.tokenLength word.length ≠ 0

section Words

variable {spec : Spec} {charset : Charset} {condition id : Nat} {atLineStart : Bool}
  {word rest input : List Nat} {pattern : Pattern}

theorem fronts_append_iff :
    spec.Fronts charset condition atLineStart (word ++ rest) word.length id pattern ↔
      spec.Fits charset condition atLineStart word id pattern ∧
        (pattern.lineEnd = true → EndsLine rest) := by
  have front : (word ++ rest).take word.length = word := List.take_left
  have back : (word ++ rest).drop word.length = rest := List.drop_left
  constructor
  · intro fronts
    have fits := fronts.fits
    have ends := fronts.lineEnd
    rw [front] at fits
    rw [back] at ends
    exact ⟨fits, ends⟩
  · intro fits
    refine ⟨(List.prefix_append word rest).length_le, ?_, ?_⟩
    · rw [front]
      exact fits.1
    · rw [back]
      exact fits.2

/-- Which rule leads behind a word depends on the word and on whether a line ends there. -/
theorem leads_append_iff :
    spec.Leads charset condition atLineStart (word ++ rest) word.length id pattern ∧
        pattern.cut.tokenLength word.length ≠ 0 ↔
      spec.Yields charset condition atLineStart word id pattern ∧
        (pattern.lineEnd = true → EndsLine rest) := by
  constructor
  · intro leads
    obtain ⟨⟨fronts, first⟩, token⟩ := leads
    obtain ⟨fits, ends⟩ := fronts_append_iff.mp fronts
    refine ⟨⟨fits, fun fits' alike => ?_, token⟩, ends⟩
    exact first (fronts_append_iff.mpr ⟨fits', alike ▸ ends⟩) alike
  · intro yields
    obtain ⟨⟨fits, first, token⟩, ends⟩ := yields
    refine ⟨⟨fronts_append_iff.mpr ⟨fits, ends⟩, fun fronts' alike => ?_⟩, token⟩
    exact first (fronts_append_iff.mp fronts').1 alike

theorem Leads.yields {matched : Nat}
    (leads : spec.Leads charset condition atLineStart input matched id pattern)
    (token : pattern.cut.tokenLength matched ≠ 0) :
    spec.Yields charset condition atLineStart (input.take matched) id pattern := by
  have count : (input.take matched).length = matched := List.length_take_of_le leads.fronts.inside
  have split : spec.Leads charset condition atLineStart (input.take matched ++ input.drop matched)
      (input.take matched).length id pattern ∧
        pattern.cut.tokenLength (input.take matched).length ≠ 0 := by
    rw [List.take_append_drop, count]
    exact ⟨leads, token⟩
  exact (leads_append_iff.mp split).1

/-- No rule reads a symbol that the alphabet does not have. -/
theorem Fits.le_maxSymbol (fits : spec.Fits charset condition atLineStart word id pattern) :
    ∀ c ∈ word, c ≤ charset.alphabet.maxSymbol := by
  obtain ⟨token, following, rfl, matched⟩ := fits.words
  have only : Regex.ReadsOnly charset (fun k x => x ∈ k.resolve charset)
      (· ≤ charset.alphabet.maxSymbol) (pattern.ordered.symbolSets charset) :=
    fun k _ _ inside => k.le_of_mem_resolve inside
  exact Pattern.letters_of_matchesBy only matched

/-- Nothing is matched beyond such a symbol. -/
theorem Fronts.le_of_outside {c matched : Nat} (outside : charset.alphabet.maxSymbol < c)
    (fronts : spec.Fronts charset condition atLineStart (word ++ [c]) matched id pattern) :
    matched ≤ word.length := by
  by_contra longer
  have inside := fronts.inside
  rw [List.length_append, List.length_singleton] at inside
  have whole : (word ++ [c]).take matched = word ++ [c] := by
    apply List.take_of_length_le
    rw [List.length_append, List.length_singleton]
    omega
  have fits := fronts.fits
  rw [whole] at fits
  have known := fits.le_maxSymbol c (List.mem_append_right _ (List.mem_singleton_self c))
  omega

end Words

section Built

variable {spec : Spec} {config : Config} {condition id : Nat} {atLineStart : Bool}
  {word rest : List Nat} {pattern : Pattern} {log : Diagnostics} {automaton : Automaton}
  (built : (spec.build config log).2 = .ok automaton)

include built

theorem longestMatch_automaton (condition : Nat) (input : List Nat) (atLineStart : Bool) :
    ∃ best : Option Candidate,
      Chosen Candidate.Beats (spec.Offers config.charset condition atLineStart input) best ∧
        automaton.longestMatch condition input atLineStart = best.map Candidate.toMatch := by
  have stage : spec.AddressableAt config (.deterministic config.minimize) := True.intro
  rw [build_ok built]
  exact longestMatchAt_chosen stage condition input atLineStart

/-- A rule that yields a word is found there if nothing longer matches and no earlier rule yields the
word as well. -/
theorem Yields.longestMatch (yields : spec.Yields config.charset condition atLineStart word id pattern)
    (ends : pattern.lineEnd = true → EndsLine rest)
    (longest : ∀ matched id' pattern',
      spec.Fronts config.charset condition atLineStart (word ++ rest) matched id' pattern' →
        matched ≤ word.length)
    (earliest : ∀ id' pattern',
      spec.Yields config.charset condition atLineStart word id' pattern' →
        (pattern'.lineEnd = true → EndsLine rest) → id ≤ id') :
    automaton.longestMatch condition (word ++ rest) atLineStart =
      some ⟨id, pattern.cut.tokenLength word.length, word.length⟩ := by
  obtain ⟨best, chosen, same⟩ := longestMatch_automaton built condition (word ++ rest) atLineStart
  obtain ⟨leads, token⟩ := leads_append_iff.mpr ⟨yields, ends⟩
  have unbeaten : Chosen Candidate.Beats
      (spec.Offers config.charset condition atLineStart (word ++ rest))
      (some ⟨word.length, pattern.tag id⟩) := by
    refine ⟨.intro leads token, ?_⟩
    rintro _ ⟨leads', token'⟩ (more | ⟨rfl, before⟩)
    · have enough := longest _ _ _ leads'.fronts
      dsimp only at more
      omega
    · obtain ⟨yields', ends'⟩ := leads_append_iff.mp ⟨leads', token'⟩
      have after := earliest _ _ yields' ends'
      rcases before_tag_iff.mp before with earlier | ⟨rfl, earlier⟩
      · omega
      · cases yields'.fits.pattern_unique yields.fits
        omega
  rw [same, chosen.unique Candidate.eq_of_not_beats unbeaten]
  rfl

/-- On a word alone the first of the rules that yield it is found. -/
theorem Yields.longestMatch_self
    (yields : spec.Yields config.charset condition atLineStart word id pattern)
    (earliest : ∀ id' pattern',
      spec.Yields config.charset condition atLineStart word id' pattern' → id ≤ id') :
    automaton.longestMatch condition word atLineStart =
      some ⟨id, pattern.cut.tokenLength word.length, word.length⟩ := by
  have found : automaton.longestMatch condition (word ++ []) atLineStart =
      some ⟨id, pattern.cut.tokenLength word.length, word.length⟩ := by
    apply yields.longestMatch built
    · exact fun _ => Or.inl rfl
    · intro matched id' pattern' fronts
      have inside := fronts.inside
      rwa [List.append_nil] at inside
    · exact fun id' pattern' yields' _ => earliest id' pattern' yields'
  rwa [List.append_nil] at found

/-- In front of a symbol that belongs to no class no line ends, so that rules for the ends of lines do
not get in the way of others. -/
theorem Yields.longestMatch_outside
    (yields : spec.Yields config.charset condition atLineStart word id pattern)
    (anywhere : pattern.lineEnd = false) {c : Nat}
    (outside : config.charset.alphabet.maxSymbol < c) :
    automaton.longestMatch condition (word ++ [c]) atLineStart =
      some ⟨id, pattern.cut.tokenLength word.length, word.length⟩ := by
  have going : ¬EndsLine [c] := by
    rintro (nothing | feed)
    · cases nothing
    · cases feed
      exact absurd outside (by cases config.charset.alphabet <;> decide)
  apply yields.longestMatch built
  · intro asked
    exact absurd (anywhere.symm.trans asked) Bool.false_ne_true
  · intro matched id' pattern' fronts
    exact fronts.le_of_outside outside
  · intro id' pattern' yields' ends
    apply yields.first yields'.fits
    rw [anywhere, Bool.eq_false_iff]
    exact fun asked => going (ends asked)

/-- What is found is what some rule yields. -/
theorem exists_yields_of_returns (returns : automaton.Returns id) :
    ∃ condition atLineStart word pattern,
      spec.Yields config.charset condition atLineStart word id pattern := by
  obtain ⟨condition, input, atLineStart, m, found, rfl⟩ := returns
  obtain ⟨best, chosen, same⟩ := longestMatch_automaton built condition input atLineStart
  rw [found] at same
  obtain ⟨winner, rfl, rfl⟩ := Option.map_eq_some_iff.mp same.symm
  cases chosen.1 with
  | @intro matched id pattern leads token =>
    exact ⟨condition, atLineStart, _, pattern, leads.yields token⟩

/-- No rule of an automaton is without a state in which it wins. -/
theorem wins_of_built {rule : Rule} (found : spec.rules[id]? = some rule)
    (matching : rule.pattern = .matching pattern) : spec.Wins config.charset id := by
  classical
  by_contra useless
  have reported : DiagnosticKind.unreachableRule.report rule id ∈
      spec.uselessRules config.charset := by
    refine List.mem_filterMap.mpr ⟨(rule, id), List.mem_zipIdx_iff_getElem?.mpr found, ?_⟩
    dsimp only
    rw [matching]
    exact if_neg useless
  have errors : Diagnostics.hasErrors (log ++ spec.defects config.charset ++
      spec.uselessRules config.charset) = true :=
    List.any_eq_true.mpr ⟨_, List.mem_append_right _ reported, rfl⟩
  rw [build_eq] at built
  dsimp only at built
  rw [if_pos errors] at built
  split at built <;> cases built

/-- Rules in a successful build are found where they are the first ones of their kind to match a word
with a token that is not empty: on the word alone if no earlier rule of the other kind is the first one
there as well, and in front of a symbol outside the alphabet if they do not ask for the end of the line.
So each rule is found that has no empty tokens and, if it asks for the end of the line, shares no word
with an earlier rule that does not. -/
theorem returns_of_built {rule : Rule} (found : spec.rules[id]? = some rule)
    (matching : rule.pattern = .matching pattern) :
    (∀ condition atLineStart word,
      spec.Yields config.charset condition atLineStart word id pattern →
        ((∀ id' pattern', spec.Yields config.charset condition atLineStart word id' pattern' →
            id ≤ id') →
          automaton.longestMatch condition word atLineStart =
            some ⟨id, pattern.cut.tokenLength word.length, word.length⟩) ∧
        (pattern.lineEnd = false → ∀ c, config.charset.alphabet.maxSymbol < c →
          automaton.longestMatch condition (word ++ [c]) atLineStart =
            some ⟨id, pattern.cut.tokenLength word.length, word.length⟩)) ∧
      ((∀ condition atLineStart word,
        spec.Fits config.charset condition atLineStart word id pattern →
          pattern.cut.tokenLength word.length ≠ 0 ∧
            (pattern.lineEnd = true → ∀ id' pattern',
              spec.Fits config.charset condition atLineStart word id' pattern' →
                pattern'.lineEnd = false → id ≤ id')) →
        automaton.Returns id) := by
  refine ⟨fun condition atLineStart word yields => ⟨?_, ?_⟩, fun tokens => ?_⟩
  · exact yields.longestMatch_self built
  · exact fun anywhere c outside => yields.longestMatch_outside built anywhere outside
  · obtain ⟨condition, _, atLineStart, input, matched, pattern', leads⟩ :=
      wins_of_built built found matching
    have patterns := leads.fronts.fits.hasActive.pattern_eq found
    rw [matching] at patterns
    cases patterns
    obtain ⟨token, alone⟩ := tokens condition atLineStart _ leads.fronts.fits
    rw [List.length_take_of_le leads.fronts.inside] at token
    have yields := leads.yields token
    cases asked : pattern.lineEnd with
    | false =>
      have outside := Nat.lt_succ_self config.charset.alphabet.maxSymbol
      exact ⟨_, _, _, _, yields.longestMatch_outside built asked outside, rfl⟩
    | true =>
      refine ⟨_, _, _, _, yields.longestMatch_self built fun id' pattern' yields' => ?_, rfl⟩
      cases kind : pattern'.lineEnd with
      | true => exact yields.first yields'.fits (kind.trans asked.symm)
      | false => exact alone asked id' pattern' yields'.fits kind

end Built

/-- The rule for the end of a line matches one letter, and the rule before it only two. -/
theorem lines_returns : ∃ automaton, (lines.build byteConfig []).2 = .ok automaton ∧
    automaton.Returns 1 := by
  have one : ∀ {condition atLineStart word},
      lines.Fits byteConfig.charset condition atLineStart word 1
        ⟨false, .symbol 98, none, true⟩ → word.length = 1 := by
    intro condition atLineStart word fits
    obtain ⟨token, following, rfl, body, nothing⟩ := fits.words
    cases nothing
    rw [List.append_nil]
    exact Regex.length_of_matchesBy counting_id _ rfl body
  refine ⟨_, lines_built, (returns_of_built lines_built rfl rfl).2 ?_⟩
  intro condition atLineStart word fits
  refine ⟨?_, fun _ id' pattern' fits' _ => ?_⟩
  · rw [one fits]
    decide
  · by_contra earlier
    have first : id' = 0 := by omega
    subst first
    obtain ⟨rule, found, matching, _⟩ := fits'.active
    cases found
    cases matching
    obtain ⟨token, following, rfl, body, context⟩ := fits'.words
    have token_length : token.length = 1 := Regex.length_of_matchesBy counting_id _ rfl body
    have context_length : following.length = 1 :=
      Regex.length_of_matchesBy counting_id _ rfl context
    have count := one fits
    rw [List.length_append, token_length, context_length] at count
    cases count

/-- Letters, and as many letters or none. -/
def lettersOrNone : Spec :=
  ⟨[⟨initialName, false⟩],
    [⟨none, .matching ⟨false, .plus (.symbol 97), none, false⟩, .inclusive, ⟨1, 1⟩⟩,
      ⟨none, .matching ⟨false, .star (.symbol 97), none, false⟩, .inclusive, ⟨2, 1⟩⟩]⟩

/-- Only the empty word is left for the second rule, so the build succeeds and the rule is never
found. -/
theorem lettersOrNone_silent : ∃ automaton pattern,
    (lettersOrNone.build byteConfig []).2 = .ok automaton ∧
      lettersOrNone.rules[1]?.map Rule.pattern = some (.matching pattern) ∧
      pattern.Matches byteConfig.charset [97] [] ∧ pattern.cut.tokenLength 1 = 1 ∧
      ¬automaton.Returns 1 := by
  have built : (lettersOrNone.build byteConfig []).2 = .ok _ :=
    build_of_no_errors (by decide +kernel)
  refine ⟨_, _, built, rfl, ?_, rfl, fun returns => ?_⟩
  · have letter : 97 ∈ SymbolClass.resolve ⟨.single 97, false⟩ byteConfig.charset := by
      rw [← SymbolSet.contains_iff]
      decide
    refine ⟨?_, rfl⟩
    rw [Regex.MatchesBy]
    have once : Regex.MatchesBy (fun k x => x ∈ k.resolve byteConfig.charset) (.symbol 97) [97] := by
      rw [Regex.MatchesBy]
      exact ⟨97, letter, rfl⟩
    exact ⟨1, .more once .none⟩
  · obtain ⟨condition, atLineStart, word, pattern, yields⟩ := exists_yields_of_returns built returns
    obtain ⟨rule, found, matching, active⟩ := yields.fits.active
    cases found
    cases matching
    obtain ⟨token, following, rfl, body, nothing⟩ := yields.fits.words
    cases nothing
    rw [Pattern.ordered, Regex.ordered, Regex.MatchesBy] at body
    obtain ⟨count, letters⟩ := body
    cases count with
    | zero =>
      cases letters
      exact yields.token rfl
    | succ more =>
      -- the first rule matches the word as well
      have fits : lettersOrNone.Fits byteConfig.charset condition atLineStart (token ++ []) 0
          ⟨false, .plus (.symbol 97), none, false⟩ := by
        refine ⟨⟨_, rfl, rfl, active⟩, yields.fits.lineStart, token, [], rfl, ?_, rfl⟩
        rw [Pattern.ordered, Regex.ordered, Regex.MatchesBy]
        exact ⟨more, letters⟩
      exact absurd (yields.first fits rfl) (by decide)

end Spec

end Scangen
