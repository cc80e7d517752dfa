import Scangen.Proofs.Build.Tokens

/-!
Longest matches as they are meant: the tables find what the languages of the rules ask for.
-/

namespace Scangen

namespace Spec

variable {spec : Spec} {config : Config} {condition : Nat} {atLineStart : Bool} {input : List Nat}

section Takes

variable (inOrder : ∀ pattern ∈ spec.patterns, pattern.CountsOrdered)
  (possible : ∀ pattern ∈ spec.patterns, ∃ trailing, pattern.trailing = .ok trailing)
  (fit : ∀ pattern ∈ spec.patterns, ∀ context ∈ pattern.context, pattern.body.LengthsFit ∧
    context.LengthsFit)

include inOrder possible fit

/-- Where counts are in order and lengths fit, a match is a front with the token that is cut out of
it. -/
theorem takes_iff {charset : Charset} {m : Match} :
    spec.Takes charset condition atLineStart input m ↔
      ∃ pattern, spec.Fronts charset condition atLineStart input m.matched m.rule pattern ∧
        m.length = pattern.cut.tokenLength m.matched := by
  constructor
  · rintro ⟨found, matching, active, lineStart, matched, lineEnd⟩
    rename_i id rule pattern token following rest
    have member := mem_patterns found matching
    have same : pattern.ordered = pattern := Pattern.ordered_eq_self (inOrder pattern member)
    have front : (token ++ following ++ rest).take (token ++ following).length = token ++
      following := List.take_left
    have back : (token ++ following ++ rest).drop (token ++ following).length = rest :=
      List.drop_left
    refine ⟨pattern, ⟨?_, ⟨⟨rule, found, matching, active⟩, lineStart, ?_⟩, ?_⟩, ?_⟩
    · exact (List.prefix_append (token ++ following) rest).length_le
    · exact ⟨token, following, front, by rwa [same]⟩
    · dsimp only
      rwa [back]
    · rw [← same] at matched
      exact (Pattern.tokenLength_eq (possible pattern member) (fit pattern member) matched).symm
  · rintro ⟨pattern, fronts, length⟩
    obtain ⟨id, tokenLength, matched⟩ := m
    have member := fronts.fits.mem_patterns
    obtain ⟨rule, found, matching, active⟩ := fronts.fits.active
    obtain ⟨token, following, whole, count, reads⟩ := fronts.split
    have cut : tokenLength = token.length := by
      rw [← Pattern.tokenLength_eq (possible pattern member) (fit pattern member) reads, count]
      exact length
    rw [Pattern.ordered_eq_self (inOrder pattern member)] at reads
    have takes := Takes.intro found matching active fronts.fits.lineStart reads fronts.lineEnd
    rw [← whole, count, ← cut] at takes
    exact takes

/-- A rule and the number of symbols that it takes determine its token. -/
theorem Takes.unique {charset : Charset} {m m' : Match}
    (first : spec.Takes charset condition atLineStart input m)
    (second : spec.Takes charset condition atLineStart input m') (rule : m.rule = m'.rule)
    (matched : m.matched = m'.matched) : m = m' := by
  obtain ⟨pattern, fronts, length⟩ := (takes_iff inOrder possible fit).mp first
  obtain ⟨pattern', fronts', length'⟩ := (takes_iff inOrder possible fit).mp second
  rw [← rule] at fronts'
  have same := fronts.fits.pattern_unique fronts'.fits
  have tokens : m.length = m'.length := by rw [length, length', same, matched]
  cases m
  cases m'
  simp_all

/-- Of two best ways to take the front of an input neither is better. -/
theorem Best.unique {charset : Charset} {best best' : Option Match}
    (first : spec.Best charset condition atLineStart input best)
    (second : spec.Best charset condition atLineStart input best') : best = best' := by
  cases best with
  | none =>
    cases best' with
    | none => rfl
    | some m' =>
      have nothing := first m' second.1
      have something := second.2.1
      omega
  | some m =>
    cases best' with
    | none =>
      have nothing := second m first.1
      have something := first.2.1
      omega
    | some m' =>
      have ahead : m.NotWorse m' := first.2.2 m' second.1
      have behind : m'.NotWorse m := second.2.2 m first.1
      unfold Match.NotWorse at ahead behind
      rw [first.1.unique inOrder possible fit second.1 (by omega) (by omega)]

variable {charset : Charset}
  (nonempty : ∀ pattern ∈ spec.patterns, pattern.context ≠ none → ¬pattern.body.Matches charset [])

include nonempty

/-- A token is empty only if nothing at all was read. -/
theorem Fronts.tokenLength_ne_zero {matched id : Nat} {pattern : Pattern}
    (fronts : spec.Fronts charset condition atLineStart input matched id pattern)
    (something : matched ≠ 0) :
    pattern.cut.tokenLength matched ≠ 0 := by
  have member := fronts.fits.mem_patterns
  by_cases alone : pattern.context = none
  · rwa [Pattern.cut_of_no_context alone, Trailing.tokenLength]
  · obtain ⟨token, following, _, count, reads⟩ := fronts.split
    have length := Pattern.tokenLength_eq (possible pattern member) (fit pattern member) reads
    rw [count] at length
    rw [length]
    intro empty
    have body := reads.1
    rw [Pattern.ordered_eq_self (inOrder pattern member),
      List.eq_nil_of_length_eq_zero empty] at body
    exact nonempty pattern member alone body

/-- The best of what the rules offer is the best of all. -/
theorem best_of_offers {best : Option Candidate}
    (chosen : Chosen Candidate.Beats (spec.Offers charset condition atLineStart input) best) :
    spec.Best charset condition atLineStart input (best.map Candidate.toMatch) := by
  -- each match that reads anything stands behind one that is offered
  have offered : ∀ m, spec.Takes charset condition atLineStart input m → m.matched ≠ 0 →
    ∃ id, ∃ pattern : Pattern,
      spec.Offers charset condition atLineStart input ⟨m.matched, pattern.tag id⟩ ∧
        id ≤ m.rule := by
    intro m takes something
    obtain ⟨pattern, fronts, _⟩ := (takes_iff inOrder possible fit).mp takes
    obtain ⟨id, pattern', leads, before, _⟩ := fronts.exists_leads
    have token := leads.fronts.tokenLength_ne_zero inOrder possible fit nonempty something
    exact ⟨id, pattern', .intro leads token, before⟩
  cases best with
  | none =>
    intro m takes
    by_contra something
    obtain ⟨id, pattern, offer, _⟩ := offered m takes something
    exact chosen _ offer
  | some found =>
    obtain ⟨offer, unbeaten⟩ := chosen
    cases offer with
    | @intro matched id pattern leads token =>
      have token_le := leads.fronts.tokenLength_le
      have positive : 1 ≤ matched := by omega
      refine ⟨(takes_iff inOrder possible fit).mpr ⟨pattern, leads.fronts, rfl⟩, positive, ?_⟩
      intro other takes
      show other.matched < matched ∨ matched = other.matched ∧ id ≤ other.rule
      by_cases something : other.matched = 0
      · omega
      · obtain ⟨id', pattern', offer', before⟩ := offered other takes something
        have unbeaten' := unbeaten _ offer'
        have shorter : ¬matched < other.matched := fun more => unbeaten' (Or.inl more)
        have later : other.matched = matched → ¬id' < id :=
          fun equal earlier => unbeaten' (Or.inr ⟨equal, before_tag_iff.mpr (Or.inl earlier)⟩)
        omega

end Takes

/-- The tables find the longest match as it is meant: of all rules that match the front of an input,
one that takes the most symbols, and the first of these. Tables that are not compressed may have no more
successors than there are words. -/
theorem longestMatch_eq_iff_best {log : Diagnostics} {automaton : Automaton}
    (built : (spec.build config log).2 = .ok automaton)
    (inOrder : ∀ pattern ∈ spec.patterns, pattern.CountsOrdered)
    (fit : ∀ pattern ∈ spec.patterns, ∀ context ∈ pattern.context, pattern.body.LengthsFit ∧
      context.LengthsFit)
    (nonempty : ∀ pattern ∈ spec.patterns, pattern.context ≠ none →
      ¬pattern.body.Matches config.charset [])
    (declared : condition < spec.conditions.length) {layout : Layout}
    (room : (automaton.tables layout).Addressable) (input : List Nat) (atLineStart : Bool)
    (best : Option Match) :
    (automaton.tables layout).recognizer.longestMatch condition input atLineStart = best ↔
      spec.Best config.charset condition atLineStart input best := by
  have possible : ∀ pattern ∈ spec.patterns, ∃ trailing, pattern.trailing = .ok trailing :=
    fun pattern member => trailing_possible built member
  obtain ⟨found, chosen, same⟩ := longestMatch_offers built declared room input atLineStart
  have right := best_of_offers inOrder possible fit nonempty chosen
  rw [same]
  constructor
  · rintro rfl
    exact right
  · intro asked
    exact right.unique inOrder possible fit asked

/-- A letter in front of another one, at the end of a line, and another one at the start of a
line. -/
def letters : Spec :=
  ⟨[⟨initialName, false⟩],
    [⟨none, .matching ⟨false, .symbol 97, some (.symbol 98), false⟩, .inclusive, ⟨1, 1⟩⟩,
      ⟨none, .matching ⟨false, .symbol 97, none, true⟩, .inclusive, ⟨2, 1⟩⟩,
      ⟨none, .matching ⟨true, .symbol 98, none, false⟩, .inclusive, ⟨3, 1⟩⟩]⟩

theorem mem_letters {pattern : Pattern} (member : pattern ∈ letters.patterns) :
    ∃ c, pattern.body = .symbol c ∧ ∀ context ∈ pattern.context, ∃ c, context = .symbol c := by
  simp only [patterns, letters, List.filterMap_cons, List.filterMap_nil, List.mem_cons,
    List.not_mem_nil, or_false] at member
  rcases member with rfl | rfl | rfl
  · exact ⟨97, rfl, by simp⟩
  · exact ⟨97, rfl, by simp⟩
  · exact ⟨98, rfl, by simp⟩

theorem lengthsFit_symbol (c : Nat) : (Regex.symbol c).LengthsFit := by
  intro part member n length
  cases List.mem_singleton.mp member
  cases length
  decide

/-- The first letter is a token in front of the other one, which is none if no line starts there. -/
theorem letters_best : letters.Best byteConfig.charset 0 false [97, 98] (some ⟨0, 1, 2⟩) ∧
    letters.Best byteConfig.charset 0 false [98] none := by
  have built : (letters.build byteConfig []).2 = .ok _ := build_of_no_errors (by decide +kernel)
  have inOrder : ∀ pattern ∈ letters.patterns, pattern.CountsOrdered := by
    intro pattern member
    obtain ⟨c, body, behind⟩ := mem_letters member
    constructor
    · rw [body, Regex.CountsOrdered]
      trivial
    · intro context found
      obtain ⟨c', rfl⟩ := behind context found
      rw [Regex.CountsOrdered]
      trivial
  have fit : ∀ pattern ∈ letters.patterns, ∀ context ∈ pattern.context, pattern.body.LengthsFit ∧
    context.LengthsFit := by
    intro pattern member context found
    obtain ⟨c, body, behind⟩ := mem_letters member
    obtain ⟨c', rfl⟩ := behind context found
    rw [body]
    exact ⟨lengthsFit_symbol c, lengthsFit_symbol c'⟩
  have nonempty : ∀ pattern ∈ letters.patterns, pattern.context ≠ none →
      ¬pattern.body.Matches byteConfig.charset [] := by
    intro pattern member _ matched
    obtain ⟨c, body, _⟩ := mem_letters member
    rw [body, Regex.Matches, Regex.MatchesBy] at matched
    obtain ⟨x, _, same⟩ := matched
    cases same
  have room : (Automaton.tables ⟨Partition.ofSpec letters byteConfig, letters.dfa byteConfig true,
      letters.endActions⟩ ⟨.dense, true⟩).Addressable := by decide +kernel
  have right := fun input best =>
    longestMatch_eq_iff_best built inOrder fit nonempty Nat.zero_lt_one room input false best
  constructor
  · apply (right [97, 98] _).mp
    rw [longestMatch_built built room]
    decide +kernel
  · apply (right [98] _).mp
    rw [longestMatch_built built room]
    decide +kernel

end Spec

end Scangen
