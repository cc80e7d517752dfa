import Scangen.Proofs.Build.Stages
import Scangen.Proofs.Pattern.Lengths

/-!
What is found at the front of an input, in terms of rules: at each length, the first of the rules
that match there with the end of a line behind them, and the first of the others.
-/

namespace Scangen

variable {spec : Spec} {config : Config} {pattern : Pattern}

namespace Spec

/-- The scanner over the nondeterministic automaton. -/
def scanner (spec : Spec) (config : Config) : Recognizer IndexSet :=
  (spec.nfa config).recognizer (Partition.ofSpec spec config)

theorem classOf_scanner (spec : Spec) (config : Config) :
    (spec.scanner config).classOf = (Partition.ofSpec spec config).classOf := rfl

theorem mem_patterns {id : Nat} {rule : Rule} (found : spec.rules[id]? = some rule)
    (matching : rule.pattern = .matching pattern) : pattern ∈ spec.patterns :=
  List.mem_filterMap.mpr ⟨rule, List.mem_of_getElem? found, by rw [matching]⟩

/-- The partition sorts the symbols for each pattern of the specification. -/
theorem pattern_sorts (member : pattern ∈ spec.patterns) :
    (Partition.ofSpec spec config).Sorts (pattern.ordered.symbolSets config.charset) := by
  apply (Partition.ofSpec_sorts spec config).subset
  rw [Pattern.symbolSets_ordered]
  exact fun s inside => List.mem_flatMap.mpr ⟨pattern, member, inside⟩

/-- Symbols that a pattern of the specification reads have a class. -/
theorem knows_of_matches (member : pattern ∈ spec.patterns) {token following : List Nat}
    (matched : pattern.ordered.Matches config.charset token following) :
    (spec.scanner config).Knows (token ++ following) := by
  have only : Regex.ReadsOnly config.charset (fun k x => x ∈ k.resolve config.charset)
      (fun x => ∃ classId, (Partition.ofSpec spec config).classOf x = some classId)
      (pattern.ordered.symbolSets config.charset) := by
    intro k _ x inside
    apply (pattern_sorts member).covers
    rw [Partition.alphabet_ofSpec]
    exact k.le_of_mem_resolve inside
  exact Pattern.letters_of_matchesBy only matched

/-- Words of classes that a pattern of the specification reads hold classes of symbols only. -/
theorem small_of_matchesBy (member : pattern ∈ spec.patterns) {token following : List Nat}
    (matched : pattern.ordered.MatchesBy ((Partition.ofSpec spec config).Reads config.charset)
      token following) :
    ∀ classId ∈ token ++ following, classId < (Partition.ofSpec spec config).numSymbolClasses := by
  have only : Regex.ReadsOnly config.charset ((Partition.ofSpec spec config).Reads config.charset)
      (fun classId => classId < (Partition.ofSpec spec config).numSymbolClasses)
      (pattern.ordered.symbolSets config.charset) :=
    fun k listed classId inside => (pattern_sorts member).label_small listed inside
  exact Pattern.letters_of_matchesBy only matched

theorem small_of_knows {read : List Nat} (known : (spec.scanner config).Knows read) :
    ∀ classId ∈ read.map (spec.scanner config).classNumber,
      classId < (Partition.ofSpec spec config).numSymbolClasses := by
  intro classId member
  obtain ⟨x, inside, rfl⟩ := List.mem_map.mp member
  obtain ⟨classId, found⟩ := known x inside
  rw [Recognizer.classNumber, found, Option.getD_some]
  exact (Partition.ofSpec_sorts spec config).small found

/-- The class of a symbol tells to which sets of the pattern the symbol belongs. -/
theorem pattern_agrees (member : pattern ∈ spec.patterns) :
    Regex.Agrees (Partition.ofSpec spec config) (spec.scanner config).classNumber
      (fun x => ∃ classId, (Partition.ofSpec spec config).classOf x = some classId)
      (pattern.ordered.symbolSets config.charset) := by
  rintro s listed x ⟨classId, found⟩
  have found' : (spec.scanner config).classOf x = some classId := found
  rw [Recognizer.classNumber, found', Option.getD_some]
  exact (pattern_sorts member).tells listed found

theorem matches_classes_iff (member : pattern ∈ spec.patterns) {token following : List Nat}
    (known : (spec.scanner config).Knows (token ++ following)) :
    pattern.ordered.Matches config.charset token following ↔
      pattern.ordered.MatchesBy ((Partition.ofSpec spec config).Reads config.charset)
        (token.map (spec.scanner config).classNumber)
          (following.map (spec.scanner config).classNumber) :=
  Pattern.matches_map_iff (pattern_agrees member)
    (fun x inside => known x (List.mem_append_left _ inside))
    fun x inside => known x (List.mem_append_right _ inside)

/-! The ends of a line have classes behind those of the symbols, so they tell where the symbols of a
word end. -/

/-- Where large numbers follow small ones, the two parts are known from the whole. -/
theorem append_inj_of_bound {n : Nat} {small large small' large' : List Nat}
    (below : ∀ x ∈ small, x < n)
    (above : ∀ x ∈ large, n ≤ x) (below' : ∀ x ∈ small', x < n) (above' : ∀ x ∈ large', n ≤ x)
    (same : small ++ large = small' ++ large') : small = small' ∧ large = large' := by
  have kept : ∀ {l r : List Nat}, (∀ x ∈ l, x < n) → (∀ x ∈ r, n ≤ x) →
    (l ++ r).filter (· < n) = l := by
    intro l r l_below r_above
    rw [List.filter_append, List.filter_eq_self.mpr (by simpa using l_below),
      List.filter_eq_nil_iff.mpr (by simpa using r_above),
      List.append_nil]
  have first : small = small' := by rw [← kept below above, same, kept below' above']
  rw [first] at same
  exact ⟨first, List.append_cancel_left same⟩

theorem le_lineEnd {classId : Nat} (used : (Partition.ofSpec spec config).lineEnd = some classId) :
    (Partition.ofSpec spec config).numSymbolClasses ≤ classId := by
  rw [Partition.lineEnd_ofSpec] at used
  split at used
  · cases used
    omega
  · cases used

theorem large_of_closes {rest ending : List Nat}
    (closes : (spec.scanner config).Closes rest ending) :
    ∀ classId ∈ ending, (Partition.ofSpec spec config).numSymbolClasses ≤ classId := by
  rcases closes with rfl | ⟨_, e, used, rfl⟩
  · simp
  · intro classId member
    rw [List.mem_singleton.mp member]
    exact le_lineEnd used

theorem large_of_ends {ending : List Nat}
    (ends : pattern.Ends (Partition.ofSpec spec config) ending) :
    ∀ classId ∈ ending, (Partition.ofSpec spec config).numSymbolClasses ≤ classId := by
  unfold Pattern.Ends at ends
  split at ends
  · obtain ⟨e, used, rfl⟩ := ends
    intro classId member
    rw [List.mem_singleton.mp member]
    exact le_lineEnd used
  · rw [ends]
    simp

/-- The class for the start of a line is not one of the others. -/
theorem lineStart_not_mem {classId : Nat}
    (used : (Partition.ofSpec spec config).lineStart = some classId)
    {symbols ending : List Nat} (small : ∀ c ∈ symbols,
      c < (Partition.ofSpec spec config).numSymbolClasses)
    (last : ending = [] ∨ ∃ e, (Partition.ofSpec spec config).lineEnd = some e ∧ ending = [e]) :
    classId ∉ symbols ++ ending := by
  rw [Partition.lineStart_ofSpec] at used
  split at used
  next uses =>
    cases used
    intro member
    rcases List.mem_append.mp member with early | late
    · exact Nat.lt_irrefl _ (small _ early)
    · rcases last with rfl | ⟨e, used, rfl⟩
      · cases late
      · rw [Partition.lineEnd_ofSpec] at used
        split at used
        · cases used
          have same := List.mem_singleton.mp late
          rw [uses] at same
          have one : true.toNat = 1 := rfl
          omega
        · cases used
  next => cases used

theorem lineStart_not_mem_of_spells {classId : Nat}
    (used : (Partition.ofSpec spec config).lineStart = some classId)
    (member : pattern ∈ spec.patterns) {word : List Nat}
    (spells : pattern.Spells (Partition.ofSpec spec config) config.charset word) :
      classId ∉ word := by
  obtain ⟨token, following, ending, rfl, reads, ends⟩ := spells
  apply lineStart_not_mem used (small_of_matchesBy member reads)
  unfold Pattern.Ends at ends
  split at ends
  · exact Or.inr ends
  · exact Or.inl ends

theorem lineStart_used (member : pattern ∈ spec.patterns) (asked : pattern.lineStart = true) :
    ∃ classId, (Partition.ofSpec spec config).lineStart = some classId := by
  have uses : spec.usesLineStart = true := List.any_eq_true.mpr ⟨pattern, member, asked⟩
  exact ⟨_, by rw [Partition.lineStart_ofSpec, if_pos uses]⟩

theorem lineEnd_used (member : pattern ∈ spec.patterns) (asked : pattern.lineEnd = true) :
    ∃ classId, (Partition.ofSpec spec config).lineEnd = some classId := by
  have uses : spec.usesLineEnd = true := List.any_eq_true.mpr ⟨pattern, member, asked⟩
  exact ⟨_, by rw [Partition.lineEnd_ofSpec, if_pos uses]⟩

/-- Behind what is read at the start of a line, or elsewhere, a pattern reads its symbols if it may
stand there. -/
theorem begins_iff (member : pattern ∈ spec.patterns) (atLineStart : Bool) {word : List Nat}
    (fresh : ∀ classId, (Partition.ofSpec spec config).lineStart = some classId → classId ∉ word) :
    pattern.Begins (Partition.ofSpec spec config) config.charset
      ((spec.scanner config).opening atLineStart ++ word) ↔
      (pattern.lineStart = true → atLineStart = true) ∧ pattern.Spells
        (Partition.ofSpec spec config) config.charset word := by
  have opening : (spec.scanner config).opening atLineStart =
      if atLineStart then (Partition.ofSpec spec config).lineStart.toList else [] := rfl
  unfold Pattern.Begins
  rw [opening]
  cases atLineStart with
  | false =>
    have off : ¬false = true := Bool.false_ne_true
    rw [if_neg off, List.nil_append]
    constructor
    · rintro (⟨free, spells⟩ | ⟨classId, rest, used, rfl, _⟩)
      · exact ⟨fun asked => absurd (free.symm.trans asked) off, spells⟩
      · exact absurd List.mem_cons_self (fresh classId used)
    · rintro ⟨unasked, spells⟩
      exact Or.inl ⟨Bool.eq_false_iff.mpr fun asked => off (unasked asked), spells⟩
  | true =>
    rw [if_pos rfl]
    cases used : (Partition.ofSpec spec config).lineStart with
    | none =>
      have free : pattern.lineStart = false := by
        apply Bool.eq_false_iff.mpr
        intro asked
        obtain ⟨classId, used'⟩ :
            ∃ classId, (Partition.ofSpec spec config).lineStart = some classId :=
          lineStart_used member asked
        rw [used] at used'
        cases used'
      rw [Option.toList_none, List.nil_append]
      simp [free]
    | some classId =>
      rw [Option.toList_some, List.singleton_append]
      constructor
      · rintro (⟨_, spells⟩ | ⟨_, _, _, same, spells⟩)
        · exact absurd List.mem_cons_self (lineStart_not_mem_of_spells used member spells)
        · cases same
          exact ⟨fun _ => rfl, spells⟩
      · rintro ⟨_, spells⟩
        exact Or.inr ⟨classId, word, rfl, rfl, spells⟩

/-- A pattern reads the classes of symbols as it reads the symbols. -/
theorem spells_map_iff (member : pattern ∈ spec.patterns) {read rest ending : List Nat}
    (known : (spec.scanner config).Knows read) (closes : (spec.scanner config).Closes rest ending) :
    pattern.Spells (Partition.ofSpec spec config) config.charset
      (read.map (spec.scanner config).classNumber ++ ending) ↔
      (∃ token following, read = token ++ following ∧
        pattern.ordered.Matches config.charset token following) ∧
        pattern.Ends (Partition.ofSpec spec config) ending := by
  constructor
  · rintro ⟨token, following, last, same, reads, ends⟩
    obtain ⟨image, rfl⟩ := append_inj_of_bound (small_of_knows known) (large_of_closes closes)
      (small_of_matchesBy member reads) (large_of_ends ends) same
    obtain ⟨token', following', rfl, rfl, rfl⟩ := List.map_eq_append_iff.mp image
    exact ⟨⟨token', following', rfl, (matches_classes_iff member known).mpr reads⟩, ends⟩
  · rintro ⟨⟨token, following, rfl, matched⟩, ends⟩
    exact ⟨_, _, ending, by rw [List.map_append], (matches_classes_iff member known).mp matched,
      ends⟩

/-! Which rule a tag belongs to. -/

section Tags

variable {condition : Nat} {atLineStart : Bool} {input read rest ending : List Nat}

/-- The rule is active in the condition and has this pattern. -/
def HasActive (spec : Spec) (condition id : Nat) (pattern : RulePattern) : Prop :=
  ∃ rule, spec.rules[id]? = some rule ∧ rule.pattern = pattern ∧
    condition ∈ spec.activeConditions rule.conditions

namespace HasActive

variable {id : Nat} {pattern : RulePattern} (active : spec.HasActive condition id pattern)

include active

theorem lt : id < spec.rules.length := by
  obtain ⟨rule, found, _⟩ := active
  exact (List.getElem?_eq_some_iff.mp found).1

theorem declared : condition < spec.conditions.length := by
  obtain ⟨rule, _, _, member⟩ := active
  exact Nfa.lt_of_mem_activeConditions member

/-- Each rule has one pattern only. -/
theorem pattern_eq {rule : Rule} (found : spec.rules[id]? = some rule) : rule.pattern = pattern := by
  obtain ⟨rule', found', same, _⟩ := active
  rw [found] at found'
  cases found'
  exact same

end HasActive

theorem HasActive.mem_patterns {id : Nat}
    (active : spec.HasActive condition id (.matching pattern)) : pattern ∈ spec.patterns := by
  obtain ⟨rule, found, matching, _⟩ := active
  exact Spec.mem_patterns found matching

theorem Fits.hasActive {charset : Charset} {id : Nat}
    (fits : spec.Fits charset condition atLineStart read id pattern) :
    spec.HasActive condition id (.matching pattern) := fits.active

theorem Fits.mem_patterns {charset : Charset} {id : Nat}
    (fits : spec.Fits charset condition atLineStart read id pattern) : pattern ∈ spec.patterns :=
  fits.hasActive.mem_patterns

theorem Fits.pattern_unique {charset : Charset} {id : Nat} {read' : List Nat} {pattern' : Pattern}
    (fits : spec.Fits charset condition atLineStart read id pattern)
    (fits' : spec.Fits charset condition atLineStart read' id pattern') : pattern = pattern' := by
  obtain ⟨rule, found, matching, _⟩ := fits.hasActive
  have matching' := fits'.hasActive.pattern_eq found
  rw [matching] at matching'
  cases matching'
  rfl

/-- The words of a rule stand at the front of the input. -/
theorem Fronts.split {charset : Charset} {matched id : Nat}
    (fronts : spec.Fronts charset condition atLineStart input matched id pattern) :
    ∃ token following, input = token ++ following ++ input.drop matched ∧
      (token ++ following).length = matched ∧
      pattern.ordered.Matches charset token following := by
  obtain ⟨token, following, split, reads⟩ := fronts.fits.words
  refine ⟨token, following, ?_, ?_, reads⟩
  · rw [← split]
    exact (List.take_append_drop matched input).symm
  · rw [← split]
    exact List.length_take_of_le fronts.inside

/-- The automaton reads the symbols and what is around them to the ends of all rules that match
there. -/
theorem finds_tag_iff (declared : condition < spec.conditions.length)
    (known : (spec.scanner config).Knows read)
    (closes : (spec.scanner config).Closes rest ending) {tag : Tag} :
    Arena.Finds (spec.nfa config).states condition
        ((spec.scanner config).opening atLineStart ++ read.map (spec.scanner config).classNumber ++
          ending) tag ↔
      ∃ id pattern, spec.Fits config.charset condition atLineStart read id pattern ∧
        pattern.Ends (Partition.ofSpec spec config) ending ∧ tag = pattern.tag id := by
  have last : ending = [] ∨ ∃ e, (Partition.ofSpec spec config).lineEnd = some e ∧ ending = [e] :=
    closes.imp_right And.right
  have reads : ∀ pattern ∈ spec.patterns,
    (pattern.Begins (Partition.ofSpec spec config) config.charset
        ((spec.scanner config).opening atLineStart ++ read.map (spec.scanner config).classNumber ++
          ending) ↔
      (pattern.lineStart = true → atLineStart = true) ∧
        (∃ token following, read = token ++ following ∧
          pattern.ordered.Matches config.charset token following) ∧
          pattern.Ends (Partition.ofSpec spec config) ending) := by
    intro pattern member
    rw [List.append_assoc, begins_iff member atLineStart fun classId used =>
      lineStart_not_mem used (small_of_knows known) last,
      spells_map_iff member known closes]
  rw [nfa, Nfa.ofSpec_finds declared]
  constructor
  · rintro ⟨id, rule, pattern, found, matching, active, same, begins⟩
    obtain ⟨lineStart, words, ends⟩ := (reads pattern (Spec.mem_patterns found matching)).mp begins
    exact ⟨id, pattern, ⟨⟨rule, found, matching, active⟩, lineStart, words⟩, ends, same⟩
  · rintro ⟨id, pattern, fits, ends, same⟩
    have begins := (reads pattern fits.mem_patterns).mpr ⟨fits.lineStart, fits.words, ends⟩
    obtain ⟨rule, found, matching, active⟩ := fits.active
    exact ⟨id, rule, pattern, found, matching, active, same, begins⟩

theorem before_tag_iff {id id' : Nat} {pattern' : Pattern} :
    (pattern'.tag id').Before (pattern.tag id) ↔ id' < id ∨ id' = id ∧
      (pattern'.cut.rank.1 < pattern.cut.rank.1 ∨ pattern'.cut.rank.1 = pattern.cut.rank.1 ∧
        pattern'.cut.rank.2 < pattern.cut.rank.2) := by
  unfold Tag.Before Pattern.tag
  dsimp only
  omega

/-- The tag behind symbols is that of the first rule that matches them with the same end. -/
theorem tagAfter_iff (declared : condition < spec.conditions.length)
    (known : (spec.scanner config).Knows read)
    (closes : (spec.scanner config).Closes rest ending) {tag : Tag} :
    (spec.scanner config).tagAfter condition
        ((spec.scanner config).opening atLineStart ++ read.map (spec.scanner config).classNumber ++
          ending) = some tag ↔
      ∃ id pattern, spec.Fits config.charset condition atLineStart read id pattern ∧
        pattern.Ends (Partition.ofSpec spec config) ending ∧ tag = pattern.tag id ∧
        ∀ id' pattern', spec.Fits config.charset condition atLineStart read id' pattern' →
          pattern'.Ends (Partition.ofSpec spec config) ending → id ≤ id' := by
  have start : (spec.nfa config).starts[condition]? = some condition := List.getElem?_range declared
  have small := nfa_started condition (List.mem_of_getElem? start)
  have reached : Chosen Tag.Before _ ((spec.scanner config).tagAfter condition
      ((spec.scanner config).opening atLineStart ++ read.map (spec.scanner config).classNumber ++
        ending)) :=
    Nfa.tagAfter_chosen nfa_closed start small _
  have chosen := reached.congr fun tag => finds_tag_iff declared known closes
  constructor
  · intro found
    rw [found] at chosen
    obtain ⟨⟨id, pattern, fits, ends, rfl⟩, first⟩ := chosen
    refine ⟨id, pattern, fits, ends, rfl, fun id' pattern' fits' ends' => ?_⟩
    by_contra later
    exact first _ ⟨id', pattern', fits', ends', rfl⟩ (before_tag_iff.mpr (Or.inl (by omega)))
  · rintro ⟨id, pattern, fits, ends, rfl, first⟩
    have best : Chosen Tag.Before (fun tag => ∃ id pattern, spec.Fits config.charset condition
      atLineStart read id pattern ∧
        pattern.Ends (Partition.ofSpec spec config) ending ∧ tag = pattern.tag id)
          (some (pattern.tag id)) := by
      refine ⟨⟨id, pattern, fits, ends, rfl⟩, ?_⟩
      rintro _ ⟨id', pattern', fits', ends', rfl⟩ before
      have after := first id' pattern' fits' ends'
      rcases before_tag_iff.mp before with earlier | ⟨rfl, earlier⟩
      · omega
      · cases fits.pattern_unique fits'
        omega
    exact chosen.unique Tag.eq_of_not_before best

theorem ends_iff (closes : (spec.scanner config).Closes rest ending) :
    pattern.Ends (Partition.ofSpec spec config) ending ↔
      (pattern.lineEnd = true ↔ ending ≠ []) := by
  unfold Pattern.Ends
  by_cases asked : pattern.lineEnd = true
  · rw [if_pos asked]
    rcases closes with rfl | ⟨_, e, used, rfl⟩
    · simp [asked]
    · have used' : (Partition.ofSpec spec config).lineEnd = some e := used
      simp [asked, used']
  · rw [if_neg asked]
    simp [asked]

/-- A pattern that asks for the end of the line only meets tags at the end of a line. -/
theorem endsLine_of_ends (closes : (spec.scanner config).Closes rest ending)
    (ends : pattern.Ends (Partition.ofSpec spec config) ending) (asked : pattern.lineEnd = true) :
    EndsLine rest := by
  have nonempty := ((ends_iff closes).mp ends).mp asked
  rcases closes with nothing | ⟨lineEnd, _⟩
  · exact absurd nothing nonempty
  · exact lineEnd

theorem Fronts.knows {matched id : Nat}
    (fronts : spec.Fronts config.charset condition atLineStart input matched id pattern) :
    (spec.scanner config).Knows (input.take matched) := by
  obtain ⟨token, following, split, matches'⟩ := fronts.fits.words
  have split : input.take matched = token ++ following := split
  rw [split]
  exact knows_of_matches fronts.fits.mem_patterns matches'

/-- The end of the line is read behind a pattern that asks for it, and nothing behind others. -/
theorem Fronts.closes {matched id : Nat}
    (fronts : spec.Fronts config.charset condition atLineStart input matched id pattern) :
    ∃ ending, (spec.scanner config).Closes (input.drop matched) ending ∧
      pattern.Ends (Partition.ofSpec spec config) ending := by
  by_cases asked : pattern.lineEnd = true
  · obtain ⟨e, used⟩ : ∃ e, (Partition.ofSpec spec config).lineEnd = some e :=
      lineEnd_used fronts.fits.mem_patterns asked
    refine ⟨[e], Or.inr ⟨fronts.lineEnd asked, e, used, rfl⟩, ?_⟩
    rw [Pattern.Ends, if_pos asked]
    exact ⟨e, used, rfl⟩
  · exact ⟨[], Or.inl rfl, by rw [Pattern.Ends, if_neg asked]⟩

/-- What is behind the first symbols of an input is the tag of the rule that leads there. -/
theorem meets_iff (declared : condition < spec.conditions.length) {met : Candidate} :
    (spec.scanner config).Meets condition atLineStart input met ↔
      ∃ id pattern, spec.Leads config.charset condition atLineStart input met.matched id pattern ∧
        met.tag = pattern.tag id := by
  obtain ⟨matched, tag⟩ := met
  constructor
  · rintro ⟨read, rest, ending, rfl, rfl, known, closes, found⟩
    obtain ⟨id, pattern, fits, ends, same, first⟩ := (tagAfter_iff declared known closes).mp found
    have front : (read ++ rest).take read.length = read := List.take_left
    have back : (read ++ rest).drop read.length = rest := List.drop_left
    refine ⟨id, pattern, ⟨⟨?_, ?_, ?_⟩, ?_⟩, same⟩
    · rw [List.length_append]
      exact Nat.le_add_right _ _
    · show spec.Fits _ _ _ ((read ++ rest).take read.length) _ _
      rwa [front]
    · intro asked
      show EndsLine ((read ++ rest).drop read.length)
      rw [back]
      exact endsLine_of_ends closes ends asked
    · intro id' pattern' fronts' alike
      have fits' : spec.Fits _ _ _ ((read ++ rest).take read.length) _ _ := fronts'.fits
      rw [front] at fits'
      apply first id' pattern' fits'
      rw [ends_iff closes, alike]
      exact (ends_iff closes).mp ends
  · rintro ⟨id, pattern, ⟨fronts, first⟩, same⟩
    obtain ⟨ending, closes, ends⟩ := fronts.closes
    refine ⟨input.take matched, input.drop matched, ending, (List.take_append_drop _ _).symm,
      (List.length_take_of_le fronts.inside).symm, fronts.knows, closes, ?_⟩
    rw [tagAfter_iff declared fronts.knows closes]
    refine ⟨id, pattern, fronts.fits, ends, same, fun id' pattern' fits' ends' => ?_⟩
    have alike : pattern'.lineEnd = true ↔ pattern.lineEnd = true := by
      rw [(ends_iff closes).mp ends', (ends_iff closes).mp ends]
    refine first ⟨fronts.inside, fits', fun asked => fronts.lineEnd (alike.mp asked)⟩
      (Bool.eq_iff_iff.mpr alike)

/-- At each length the first rule of its kind leads all others. -/
theorem Fronts.exists_leads {charset : Charset} {matched id : Nat}
    (fronts : spec.Fronts charset condition atLineStart input matched id pattern) :
    ∃ id' pattern', spec.Leads charset condition atLineStart input matched id' pattern' ∧ id' ≤ id ∧
      pattern'.lineEnd = pattern.lineEnd := by
  induction id using Nat.strong_induction_on generalizing pattern with
  | _ id ih =>
    by_cases leads : spec.Leads charset condition atLineStart input matched id pattern
    · exact ⟨id, pattern, leads, Nat.le_refl _, rfl⟩
    · obtain ⟨id', pattern', fronts', alike, earlier⟩ : ∃ id' pattern',
          spec.Fronts charset condition atLineStart input matched id' pattern' ∧
            pattern'.lineEnd = pattern.lineEnd ∧ id' < id := by
        by_contra none
        push Not at none
        exact leads ⟨fronts, fun fronts' alike => none _ _ fronts' alike⟩
      obtain ⟨id'', pattern'', leads'', before, alike'⟩ := ih id' earlier fronts'
      exact ⟨id'', pattern'', leads'', by omega, alike'.trans alike⟩

/-- What the rules that lead somewhere offer, as far as their tokens are not empty. -/
inductive Offers (spec : Spec) (charset : Charset) (condition : Nat)
    (atLineStart : Bool) (input : List Nat) :
    Candidate → Prop
  | intro {matched id : Nat} {pattern : Pattern} :
      spec.Leads charset condition atLineStart input matched id pattern →
        pattern.cut.tokenLength matched ≠ 0 →
      Offers spec charset condition atLineStart input ⟨matched, pattern.tag id⟩

theorem finds_iff_offers (declared : condition < spec.conditions.length) {found : Candidate} :
    (spec.scanner config).Finds condition atLineStart input found ↔
      spec.Offers config.charset condition atLineStart input found := by
  unfold Recognizer.Finds
  rw [meets_iff declared]
  constructor
  · rintro ⟨⟨id, pattern, leads, same⟩, token⟩
    obtain ⟨matched, tag⟩ := found
    cases same
    exact .intro leads token
  · rintro ⟨leads, token⟩
    exact ⟨⟨_, _, leads, rfl⟩, token⟩

/-- The longest match on tables is the best of what the rules offer. -/
theorem longestMatch_offers {log : Diagnostics} {automaton : Automaton}
    (built : (spec.build config log).2 = .ok automaton)
    (declared : condition < spec.conditions.length) {layout : Layout}
    (room : (automaton.tables layout).Addressable) (input : List Nat) (atLineStart : Bool) :
    ∃ best : Option Candidate,
      Chosen Candidate.Beats (spec.Offers config.charset condition atLineStart input) best ∧
        (automaton.tables layout).recognizer.longestMatch condition input atLineStart =
          best.map Candidate.toMatch := by
  obtain ⟨best, chosen, same⟩ := (spec.scanner config).longestMatch_chosen
    condition input atLineStart
  refine ⟨best, chosen.congr fun found => finds_iff_offers declared, ?_⟩
  rw [longestMatch_built built room input atLineStart]
  exact same

end Tags

end Spec

end Scangen
