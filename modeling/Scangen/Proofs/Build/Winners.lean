import Scangen.Proofs.Automaton.Least
import Scangen.Proofs.Build.Defects

/-!
The rules that win in some state of the deterministic automaton are those that win on some input. All
of its states can be reached, and what leads there is what some input reads.
-/

namespace Scangen

theorem Dfa.mem_acceptedRules {d : Dfa} {id : Nat} :
    id ∈ d.acceptedRules ↔ ∃ s tag, d.accept s = some tag ∧ tag.rule = id := by
  rw [acceptedRules, IndexSet.mem_toList, IndexSet.mem_ofList, List.mem_filterMap]
  constructor
  · intro found
    obtain ⟨s, _, same⟩ := found
    obtain ⟨tag, accepts, rule⟩ := Option.map_eq_some_iff.mp same
    exact ⟨s, tag, accepts, rule⟩
  · intro found
    obtain ⟨s, tag, accepts, rfl⟩ := found
    exact ⟨s, List.mem_range.mpr (lt_of_accept accepts), by rw [accepts, Option.map_some]⟩

namespace Spec

variable {spec : Spec} {config : Config} {pattern : Pattern} {condition : Nat}

/-- A word that a pattern begins with is what a scanner reads of some input, all of it. -/
theorem exists_reading (member : pattern ∈ spec.patterns) {word : List Nat}
    (begins : pattern.Begins (Partition.ofSpec spec config) config.charset word) :
    ∃ atLineStart read ending, (spec.scanner config).Knows read ∧
      (spec.scanner config).Closes [] ending ∧
      word = (spec.scanner config).opening atLineStart ++
        read.map (spec.scanner config).classNumber ++ ending := by
  have spelled : ∀ {word}, pattern.Spells (Partition.ofSpec spec config) config.charset word →
      ∃ read ending, (spec.scanner config).Knows read ∧
        (spec.scanner config).Closes [] ending ∧
        word = read.map (spec.scanner config).classNumber ++ ending := by
    intro word spells
    obtain ⟨token, following, ending, rfl, reads, ends⟩ := spells
    obtain ⟨read, known, image⟩ := exists_symbols (small_of_matchesBy member reads)
    refine ⟨read, ending, known, ?_, by rw [image]⟩
    unfold Pattern.Ends at ends
    split at ends
    · exact Or.inr ⟨Or.inl rfl, ends⟩
    · exact Or.inl ends
  rcases begins with ⟨_, spells⟩ | ⟨classId, rest, used, rfl, spells⟩
  · obtain ⟨read, ending, known, closes, rfl⟩ := spelled spells
    exact ⟨false, read, ending, known, closes, rfl⟩
  · obtain ⟨read, ending, known, closes, rfl⟩ := spelled spells
    have used' : (spec.scanner config).lineStart = some classId := used
    refine ⟨true, read, ending, known, closes, ?_⟩
    rw [Recognizer.opening, if_pos rfl, used']
    rfl

theorem tagAfter_ofNfa {word : List Nat}
    (small : ∀ classId ∈ word, classId < (spec.nfa config).numClasses) :
    (Dfa.ofNfa (spec.nfa config)).tagAfter condition word =
      (spec.scanner config).tagAfter condition word := by
  rw [← Dfa.tagAfter_recognizer (Partition.ofSpec spec config)]
  exact tagAfter_dfa false small

theorem scanner_bounded : (spec.scanner config).Bounded (spec.nfa config).numClasses := nfa_bounded

/-- A tag stands behind what some rule reads. -/
theorem exists_fits (declared : condition < spec.conditions.length) {word : List Nat} {tag : Tag}
    (behind : (spec.scanner config).tagAfter condition word = some tag) :
    ∃ atLineStart read ending id pattern, (spec.scanner config).Knows read ∧
      (spec.scanner config).Closes [] ending ∧
      word = (spec.scanner config).opening atLineStart ++
        read.map (spec.scanner config).classNumber ++ ending ∧
      spec.Fits config.charset condition atLineStart read id pattern ∧ tag = pattern.tag id := by
  have first : (spec.nfa config).starts[condition]? = some condition := List.getElem?_range declared
  have chosen : Chosen Tag.Before _ ((spec.scanner config).tagAfter condition word) :=
    Nfa.tagAfter_chosen nfa_closed first (nfa_started condition (List.mem_of_getElem? first)) word
  rw [behind] at chosen
  obtain ⟨id, rule, pattern, listed, matching, _, _, begins⟩ :=
    (Nfa.ofSpec_finds declared).mp chosen.1
  obtain ⟨atLineStart, read, ending, known, closes, rfl⟩ :=
    exists_reading (mem_patterns listed matching) begins
  obtain ⟨id, pattern, fits, _, same, _⟩ := (tagAfter_iff declared known closes).mp behind
  exact ⟨atLineStart, read, ending, id, pattern, known, closes, rfl, fits, same⟩

/-- A tag of a state stands behind something that can be read. -/
theorem exists_meets {s : Nat} {tag : Tag}
    (accepts : (Dfa.ofNfa (spec.nfa config)).accept s = some tag) :
    ∃ condition < spec.conditions.length, ∃ atLineStart input met,
      (spec.scanner config).Meets condition atLineStart input met ∧ met.tag = tag := by
  obtain ⟨start, started, word, small, path⟩ :=
    Dfa.ofNfa_reached (spec.nfa config) s (Dfa.lt_of_accept accepts)
  obtain ⟨condition, found⟩ := List.mem_iff_getElem?.mp started
  have declared : condition < spec.conditions.length := by
    obtain ⟨inside, _⟩ := List.getElem?_eq_some_iff.mp found
    rwa [length_starts_ofNfa] at inside
  have behind : (spec.scanner config).tagAfter condition word = some tag := by
    rw [← tagAfter_ofNfa small, Dfa.tagAfter_of_start found, Dfa.tagFrom, path]
    exact accepts
  obtain ⟨atLineStart, read, ending, _, _, known, closes, rfl, _⟩ := exists_fits declared behind
  exact ⟨condition, declared, atLineStart, read, ⟨read.length, tag⟩,
    ⟨read, [], ending, (List.append_nil read).symm, rfl, known, closes, behind⟩, rfl⟩

/-- A rule wins in some state exactly if it wins on some input. -/
theorem mem_acceptedRules_iff {id : Nat} :
    id ∈ (Dfa.ofNfa (spec.nfa config)).acceptedRules ↔ spec.Wins config.charset id := by
  rw [Dfa.mem_acceptedRules]
  constructor
  · intro wins
    obtain ⟨s, tag, accepts, rfl⟩ := wins
    obtain ⟨condition, declared, atLineStart, input, met, meets, rfl⟩ := exists_meets accepts
    obtain ⟨id, pattern, leads, same⟩ := (meets_iff declared).mp meets
    rw [same]
    exact ⟨condition, declared, atLineStart, input, met.matched, pattern, leads⟩
  · intro wins
    obtain ⟨condition, declared, atLineStart, input, matched, pattern, leads⟩ := wins
    have meets : (spec.scanner config).Meets condition atLineStart input
        ⟨matched, pattern.tag id⟩ := (meets_iff declared).mpr ⟨id, pattern, leads, rfl⟩
    obtain ⟨read, rest, ending, _, _, known, closes, found⟩ := meets
    rw [← tagAfter_ofNfa (scanner_bounded.word_small known closes), Dfa.tagAfter] at found
    obtain ⟨s, _, accepts⟩ := Option.bind_eq_some_iff.mp found
    exact ⟨s, pattern.tag id, accepts, rfl⟩

/-- The rules that are reported to be unreachable win nowhere. -/
theorem unreachableRules_ofNfa (spec : Spec) (config : Config) :
    (Dfa.ofNfa (spec.nfa config)).unreachableRules spec = spec.uselessRules config.charset := by
  classical
  unfold Dfa.unreachableRules uselessRules
  refine List.filterMap_congr fun entry _ => ?_
  obtain ⟨rule, id⟩ := entry
  dsimp only
  cases rule.pattern with
  | endOfInput => rfl
  | matching pattern => exact if_congr mem_acceptedRules_iff rfl rfl

end Spec

end Scangen
