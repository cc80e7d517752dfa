import Scangen.Proofs.Automaton.Problems
import Scangen.Proofs.Build.WellFormed
import Scangen.Proofs.Partition.Unions
import Scangen.Scan.Defects

/-!
The problems that are found while the automaton is built are those that the words of the rules have.
Classes of symbols stand in for the symbols in every word, so it does not matter which classes the
specification got.
-/

namespace Scangen

namespace Spec

variable {spec : Spec} {config : Config} {pattern : Pattern}

/-- Every word of classes is the image of a word of symbols. -/
theorem exists_symbols {classes : List Nat}
    (small : ∀ classId ∈ classes, classId < (Partition.ofSpec spec config).numSymbolClasses) :
    ∃ read, (spec.scanner config).Knows read ∧
      read.map (spec.scanner config).classNumber = classes := by
  have inhabited : ∀ classId ∈ classes,
      ∃ c, (Partition.ofSpec spec config).classOf c = some classId :=
    fun classId member => Partition.exists_symbol spec config (small classId member)
  obtain ⟨read, classified⟩ := Partition.exists_word inhabited
  exact ⟨read, classified.numbers⟩

/-- The body reads no classes where it matches no symbols. -/
theorem empty_classes_iff (config : Config) (member : pattern ∈ spec.patterns) :
    pattern.body.ordered.MatchesBy ((Partition.ofSpec spec config).Reads config.charset) [] ↔
      pattern.body.ordered.Matches config.charset [] := by
  have agrees : Regex.Agrees (Partition.ofSpec spec config) (spec.scanner config).classNumber
      (fun x => ∃ classId, (Partition.ofSpec spec config).classOf x = some classId)
      (pattern.ordered.symbolSets config.charset) := pattern_agrees member
  rw [Pattern.symbolSets] at agrees
  have nothing : ∀ x ∈ ([] : List Nat), ∃ classId,
      (Partition.ofSpec spec config).classOf x = some classId := List.forall_mem_nil _
  exact (Regex.matches_map_iff pattern.body.ordered agrees.append.1 nothing).symm

/-- A pattern spells some word of classes if it matches some symbols. -/
theorem exists_spells_iff (member : pattern ∈ spec.patterns) :
    (∃ word, pattern.Spells (Partition.ofSpec spec config) config.charset word) ↔
      ∃ token following, pattern.ordered.Matches config.charset token following := by
  constructor
  · intro spells
    obtain ⟨_, token, following, _, rfl, reads, _⟩ := spells
    obtain ⟨read, known, image⟩ := exists_symbols (small_of_matchesBy member reads)
    obtain ⟨token', following', rfl, rfl, rfl⟩ := List.map_eq_append_iff.mp image
    exact ⟨token', following', (matches_classes_iff member known).mpr reads⟩
  · intro matches'
    obtain ⟨token, following, matched⟩ := matches'
    have reads := (matches_classes_iff member (knows_of_matches member matched)).mp matched
    by_cases asked : pattern.lineEnd = true
    · obtain ⟨e, used⟩ : ∃ e, (Partition.ofSpec spec config).lineEnd = some e :=
        lineEnd_used member asked
      refine ⟨_, _, _, [e], rfl, reads, ?_⟩
      rw [Pattern.Ends, if_pos asked]
      exact ⟨e, used, rfl⟩
    · exact ⟨_, _, _, [], rfl, reads, by rw [Pattern.Ends, if_neg asked]⟩

/-- The problems of a pattern are those of its words. -/
theorem problems_eq {arena : Arena} (member : pattern ∈ spec.patterns) (inside : arena.Inside)
    (labelled : arena.Labelled) :
    Nfa.problems pattern (pattern.fragment (Partition.ofSpec spec config) config.charset arena).1
      (pattern.fragment (Partition.ofSpec spec config) config.charset arena).2 =
      pattern.defects config.charset := by
  have inner : (pattern.fragment (Partition.ofSpec spec config) config.charset arena).1.Labelled :=
    Pattern.fragment_labelled labelled
  have silent := (Pattern.reachesSilently_body inside).trans
    (empty_classes_iff config member)
  have some_word := (Pattern.reaches_exit inside inner).trans (exists_spells_iff member)
  classical
  unfold Nfa.problems Pattern.defects
  refine congrArg₂ _ (congrArg _ ?_) ?_
  · exact if_congr silent rfl rfl
  · exact if_congr some_word rfl rfl

/-- A rule reports what its words have wrong. -/
theorem addRule_log {built : Arena × Diagnostics} {rule : Rule} {id : Nat}
    (found : spec.rules[id]? = some rule)
    (formed : Nfa.Formed spec (Partition.ofSpec spec config) id built.1) :
    (Nfa.addRule spec (Partition.ofSpec spec config) config.charset built rule id).2 =
      built.2 ++ spec.ruleDefects config.charset rule id := by
  obtain ⟨arena, log⟩ := built
  unfold Nfa.addRule ruleDefects
  cases kind : rule.pattern with
  | endOfInput => simp
  | matching pattern =>
    have inside : arena.Inside := fun s label t link => (formed.starts.inside s label t link).2
    have labelled : arena.Labelled := fun s label t link => (formed.edges s label t link).1
    dsimp only
    rw [problems_eq (mem_patterns found kind) inside labelled, List.map_append, List.append_assoc]

/-- What is reported along with the automaton is what the words of the rules have wrong. -/
theorem log_ofSpec (spec : Spec) (config : Config) :
    (Nfa.ofSpec spec (Partition.ofSpec spec config) config.charset).2 =
      spec.defects config.charset := by
  have all : Nfa.Formed spec (Partition.ofSpec spec config) spec.rules.length
      (spec.nfa config).states ∧
      (Nfa.ofSpec spec (Partition.ofSpec spec config) config.charset).2 =
        (spec.rules.zipIdx.take spec.rules.length).flatMap fun entry =>
          spec.ruleDefects config.charset entry.1 entry.2 := by
    apply Nfa.ofSpec_induction (motive := fun id built =>
      Nfa.Formed spec (Partition.ofSpec spec config) id built.1 ∧
        built.2 = (spec.rules.zipIdx.take id).flatMap fun entry =>
          spec.ruleDefects config.charset entry.1 entry.2) ⟨Nfa.Formed.blank, rfl⟩
    intro id rule built found kept
    obtain ⟨formed, log⟩ := kept
    refine ⟨formed.addRule built.2 found fun _ => symbolSets_sorts, ?_⟩
    rw [addRule_log found formed, Nfa.take_zipIdx_succ found, List.flatMap_append, ← log]
    simp
  rw [all.2, List.take_of_length_le (by simp)]
  rfl

end Spec

end Scangen
