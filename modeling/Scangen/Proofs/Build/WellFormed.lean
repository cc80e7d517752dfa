import Scangen.Proofs.Automaton.Checked
import Scangen.Proofs.Automaton.Formed
import Scangen.Proofs.Build.Candidates

/-!
The automaton of a specification is well-formed, and words on its paths hold the ends of a line in the
first and the last place only.
-/

namespace Scangen

namespace Spec

variable {spec : Spec} {config : Config}

theorem symbolSets_sorts {id : Nat} {pattern : Pattern} (belongs : spec.HasPattern id pattern) :
    (Partition.ofSpec spec config).Sorts (pattern.symbolSets config.charset) := by
  obtain ⟨rule, found, matching⟩ := belongs
  rw [← Pattern.symbolSets_ordered]
  exact pattern_sorts (mem_patterns found matching)

theorem nfa_formed (spec : Spec) (config : Config) :
    Nfa.Formed spec (Partition.ofSpec spec config) spec.rules.length (spec.nfa config).states := by
  apply Nfa.ofSpec_induction (motive := fun id built =>
    Nfa.Formed spec (Partition.ofSpec spec config) id built.1) Nfa.Formed.blank
  intro id rule built found formed
  exact formed.addRule built.2 found fun _ => symbolSets_sorts

/-- The start and the end of a line have classes of their own. -/
theorem lineStart_ne_lineEnd {first last : Nat}
    (starts : (Partition.ofSpec spec config).lineStart = some first)
    (ends : (Partition.ofSpec spec config).lineEnd = some last) : first ≠ last := by
  intro same
  have apart : first ∉ [] ++ [last] := lineStart_not_mem starts (by simp) (Or.inr ⟨last, ends, rfl⟩)
  exact apart (List.mem_singleton.mpr same)

theorem le_lineStart {first : Nat}
    (starts : (Partition.ofSpec spec config).lineStart = some first) :
    (Partition.ofSpec spec config).numSymbolClasses ≤ first := by
  apply Nat.le_of_not_lt
  intro small
  have apart : first ∉ [first] ++ [] := lineStart_not_mem starts (by simpa using small) (Or.inl rfl)
  exact apart List.mem_cons_self

/-- Edges read classes of the automaton only. -/
theorem lt_numClasses {s t classId : Nat} {label : IndexSet}
    (link : Arena.links (spec.nfa config).states s (some label) t) (member : classId ∈ label) :
    classId < (spec.nfa config).numClasses := by
  cases ((nfa_formed spec config).edges s label t link).2 with
  | symbols small =>
    have := small classId member
    have count : (spec.nfa config).numClasses = (Partition.ofSpec spec config).numClasses := rfl
    rw [count, numClasses_eq]
    omega
  | lineStart used labelled _ =>
    rw [labelled, IndexSet.mem_ofList, List.mem_singleton] at member
    exact member ▸ nfa_bounded.lineStart used
  | lineEnd used labelled _ _ _ =>
    rw [labelled, IndexSet.mem_ofList, List.mem_singleton] at member
    exact member ▸ nfa_bounded.lineEnd used

theorem nfa_wellFormed (spec : Spec) (config : Config) : (spec.nfa config).WellFormed spec := by
  have formed := nfa_formed spec config
  refine ⟨rfl, formed.starts.room, ?_, ?_, ?_, ?_, ?_, formed.final, ?_, ?_, ?_⟩
  · exact fun s label t link => (formed.starts.inside s label t link).2
  · intro s label t link start
    exact Nat.not_lt_of_le (formed.starts.inside s label t link).1 (List.mem_range.mp start)
  · exact fun s label t link =>
      ⟨(formed.edges s label t link).1, fun classId => lt_numClasses link⟩
  · intro id pattern belongs
    have ⟨rule, found, _⟩ := belongs
    exact formed.accepts id (List.getElem?_eq_some_iff.mp found).1 pattern belongs
  · intro s tag here
    obtain ⟨_, pattern, belongs, same⟩ := formed.tagged s tag here
    exact ⟨congrArg Tag.priority same, pattern, belongs, congrArg Tag.trailing same⟩
  · intro first starts s label t link member
    cases (formed.edges s label t link).2 with
    | symbols small => exact absurd (le_lineStart starts) (Nat.not_le_of_lt (small first member))
    | lineStart used labelled start =>
      cases starts.symm.trans used
      exact ⟨labelled, List.mem_range.mpr start⟩
    | lineEnd used labelled _ _ _ =>
      rw [labelled, IndexSet.mem_ofList, List.mem_singleton] at member
      exact absurd member (lineStart_ne_lineEnd starts used)
  · intro last ends s label t link member
    cases (formed.edges s label t link).2 with
    | symbols small => exact absurd (le_lineEnd ends) (Nat.not_le_of_lt (small last member))
    | lineStart used labelled _ =>
      rw [labelled, IndexSet.mem_ofList, List.mem_singleton] at member
      exact absurd member.symm (lineStart_ne_lineEnd used ends)
    | lineEnd used labelled belongs asked accepts =>
      cases ends.symm.trans used
      exact ⟨labelled, _, _, belongs, asked, accepts⟩
  · intro id pattern belongs asked
    obtain ⟨rule, found, matching⟩ := belongs
    exact lineEnd_used (mem_patterns found matching) asked

end Spec

/-! Where the ends of a line stand in the words of paths. -/

namespace Nfa.WellFormed

variable {nfa : Nfa} {spec : Spec} {s t first last : Nat} {word : List Nat}

/-- Behind the starts nothing reads the start of a line. -/
theorem lineStart_not_mem (formed : nfa.WellFormed spec) (used : nfa.lineStart = some first)
    (path : Links.Path (Arena.links nfa.states) s word t) (behind : s ∉ nfa.starts) :
    first ∉ word := by
  induction path with
  | stay => exact List.not_mem_nil
  | silent link _ ih => exact ih (formed.fresh _ _ _ link)
  | read link member _ ih =>
    intro inside
    rcases List.mem_cons.mp inside with rfl | later
    · exact behind (formed.lineStart _ used _ _ _ link member).2
    · exact ih (formed.fresh _ _ _ link) later

/-- The start of a line is read first or not at all. -/
theorem lineStart_first (formed : nfa.WellFormed spec) (used : nfa.lineStart = some first)
    (path : Links.Path (Arena.links nfa.states) s word t) : first ∉ word.tail := by
  cases path with
  | stay => exact List.not_mem_nil
  | silent link rest =>
    intro later
    exact formed.lineStart_not_mem used rest (formed.fresh _ _ _ link) (List.mem_of_mem_tail later)
  | read link _ rest => exact formed.lineStart_not_mem used rest (formed.fresh _ _ _ link)

/-- The end of a line is read last or not at all. -/
theorem lineEnd_last (formed : nfa.WellFormed spec) (used : nfa.lineEnd = some last)
    (path : Links.Path (Arena.links nfa.states) s word t) : last ∉ word.dropLast := by
  induction path with
  | stay => exact List.not_mem_nil
  | silent _ _ ih => exact ih
  | read link member rest ih =>
    rename_i s u _ classId label word
    cases word with
    | nil => exact List.not_mem_nil
    | cons next others =>
      have apart : last ≠ classId := by
        intro same
        obtain ⟨_, _, _, _, _, tag, here, _⟩ :=
          formed.lineEnd last used _ _ _ link (same ▸ member)
        cases rest with
        | silent leaves _ => exact formed.final u tag here _ _ leaves
        | read leaves _ _ => exact formed.final u tag here _ _ leaves
      rw [List.dropLast_cons_cons]
      exact List.not_mem_cons_of_ne_of_not_mem apart ih

end Nfa.WellFormed

/-- Nothing stops the construction of the automaton of a specification, and what it gives is
well-formed. On its paths the start of a line is read first or not at all, and the end of one last or
not at all. -/
theorem Spec.automaton_wellFormed (spec : Spec) (config : Config) :
    ∃ nfa log,
      Nfa.checkedOfSpec spec (Partition.ofSpec spec config) config.charset = .ok (nfa, log) ∧
      nfa.WellFormed spec ∧
      ∀ s word t, Links.Path (Arena.links nfa.states) s word t →
        (∀ first, nfa.lineStart = some first → first ∉ word.tail) ∧
        ∀ last, nfa.lineEnd = some last → last ∉ word.dropLast := by
  have built := Nfa.checkedOfSpec_eq spec (Partition.exists_classesOf_ofSpec spec config)
  have formed := nfa_wellFormed spec config
  refine ⟨_, _, built, formed, fun s word t path => ⟨?_, ?_⟩⟩
  · exact fun first used => formed.lineStart_first used path
  · exact fun last used => formed.lineEnd_last used path

end Scangen
