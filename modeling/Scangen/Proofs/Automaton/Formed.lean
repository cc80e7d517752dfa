import Scangen.Automaton.WellFormed
import Scangen.Proofs.Automaton.Labels
import Scangen.Proofs.Automaton.Rules
import Scangen.Proofs.Partition.Classes

/-!
What holds of the states built so far. Each rule keeps it and adds one state that accepts.
-/

namespace Scangen

/-! What a rule adds to the tags and links. -/

namespace Enters

variable {count : Nat} {before after result : Arena} {fragment : Fragment} {L : List Nat → Prop}
  {tag : Tag} {enters : Nat → Option IndexSet → Prop}
    (e : Enters count before after result fragment L tag enters)

include e

theorem tagAt_iff {s : Nat} {found : Tag} :
    result.tagAt s = some found ↔ s = fragment.exit ∧ found = tag ∨ before.tagAt s = some found := by
  rw [e.tags, e.builds.tags]
  split
  next last =>
    have untagged : ¬before.tagAt s = some found := by
      intro here
      have := Arena.lt_of_tagAt here
      have := e.builds.exit.1
      omega
    simp [last ▸ untagged, last, eq_comm]
  next apart => simp [apart]

theorem acceptsFor_iff {s id : Nat} :
    result.AcceptsFor s id ↔ s = fragment.exit ∧ id = tag.rule ∨ before.AcceptsFor s id := by
  unfold Arena.AcceptsFor
  simp only [e.tagAt_iff, or_and_right, exists_or, and_assoc, exists_and_left, exists_eq_left]
  simp only [eq_comm]

/-- Nothing leaves the exit, and nothing new leaves a state that accepted before. -/
theorem no_links {s : Nat} {found : Tag} (final : ∀ s tag, before.tagAt s = some tag →
    ∀ label t, ¬before.links s label t) (here : result.tagAt s = some found) :
    ∀ label t, ¬result.links s label t := by
  have behind : count ≤ s := by
    apply Nat.le_of_not_lt
    intro low
    rw [e.starts_after.untagged s low] at here
    cases here
  intro label t link
  rcases (e.links s label t).mp link with inner | ⟨entered, _⟩
  · rcases e.tagAt_iff.mp here with ⟨rfl, _⟩ | earlier
    · exact e.builds.exit_no_links label t inner
    · exact final s found earlier label t
        ((e.builds.old s (Arena.lt_of_tagAt earlier) label t).mp inner)
  · exact Nat.not_le_of_lt (e.low s label entered) behind

end Enters

theorem Partition.exists_lineEnd {partition : Partition} (nonempty : partition.lineEndLabel ≠ ∅) :
    ∃ last, partition.lineEnd = some last ∧ partition.lineEndLabel = .ofList [last] := by
  unfold Partition.lineEndLabel at nonempty ⊢
  cases used : partition.lineEnd with
  | none =>
    rw [used] at nonempty
    exact absurd rfl nonempty
  | some last => exact ⟨last, rfl, rfl⟩

namespace Nfa

/-- What an edge may read: symbols, the start of a line behind the start of a condition, or the end of
a line in front of a state that accepts for a rule that asks for it. -/
inductive EdgeKind (spec : Spec) (partition : Partition) (arena : Arena) (s t : Nat)
    (label : IndexSet) : Prop
  | symbols (small : ∀ classId ∈ label, classId < partition.numSymbolClasses)
  | lineStart {first : Nat} (used : partition.lineStart = some first)
      (labelled : label = .ofList [first]) (start : s < spec.conditions.length)
  | lineEnd {last id : Nat} {pattern : Pattern} (used : partition.lineEnd = some last)
      (labelled : label = .ofList [last]) (found : spec.HasPattern id pattern)
      (asked : pattern.lineEnd = true) (accepts : arena.AcceptsFor t id)

/-- The arena holds the starts of the conditions and the states of the first rules. -/
structure Formed (spec : Spec) (partition : Partition) (count : Nat) (arena : Arena) : Prop where
  starts : Starts spec.conditions.length arena
  edges : ∀ s label t, arena.links s (some label) t →
    label ≠ ∅ ∧ EdgeKind spec partition arena s t label
  tagged : ∀ s tag, arena.tagAt s = some tag → tag.rule < count ∧
    ∃ pattern, spec.HasPattern tag.rule pattern ∧ tag = pattern.tag tag.rule
  accepts : ∀ id < count, ∀ pattern, spec.HasPattern id pattern →
    ∃ s, ∀ t, arena.AcceptsFor t id ↔ t = s
  final : ∀ s tag, arena.tagAt s = some tag → ∀ label t, ¬arena.links s label t

variable {spec : Spec} {partition : Partition} {charset : Charset} {arena : Arena} {id : Nat}
  {rule : Rule} {pattern : Pattern}

theorem EdgeKind.mono {result : Arena} {s t : Nat} {label : IndexSet}
    (more : ∀ s tag, arena.tagAt s = some tag → result.tagAt s = some tag)
    (kind : EdgeKind spec partition arena s t label) : EdgeKind spec partition result s t label := by
  cases kind with
  | symbols small => exact .symbols small
  | lineStart used labelled start => exact .lineStart used labelled start
  | lineEnd used labelled found asked accepts =>
    obtain ⟨tag, here, same⟩ := accepts
    exact .lineEnd used labelled found asked ⟨tag, more t tag here, same⟩

namespace Formed

theorem blank :
    Formed spec partition 0 (Array.replicate spec.conditions.length State.blank) where
  starts := starts_blank _
  edges := fun _ _ _ link => absurd link links_blank
  tagged := by simp [tagAt_blank]
  accepts := fun id earlier => absurd earlier (Nat.not_lt_zero id)
  final := by simp [tagAt_blank]

/-- A rule without a pattern adds nothing. -/
theorem skip (formed : Formed spec partition id arena) (found : spec.rules[id]? = some rule)
    (ends : rule.pattern = .endOfInput) : Formed spec partition (id + 1) arena := by
  refine ⟨formed.starts, formed.edges, ?_, ?_, formed.final⟩
  · intro s tag here
    obtain ⟨earlier, belongs⟩ := formed.tagged s tag here
    exact ⟨Nat.lt_succ_of_lt earlier, belongs⟩
  · intro other earlier pattern matching
    rcases Nat.lt_succ_iff_lt_or_eq.mp earlier with before | rfl
    · exact formed.accepts other before pattern matching
    · obtain ⟨rule', found', matching⟩ := matching
      rw [found, Option.some.injEq] at found'
      rw [← found', ends] at matching
      cases matching

/-- The edges of the rule read symbols of its sets or the ends of a line. -/
theorem edges_addRule (formed : Formed spec partition id arena) (log : Diagnostics)
    (found : spec.rules[id]? = some rule) (matching : rule.pattern = .matching pattern)
    (sorts : partition.Sorts (pattern.symbolSets charset))
    {s t : Nat} {label : IndexSet}
    (link : (addRule spec partition charset (arena, log) rule id).1.links s (some label) t) :
    label ≠ ∅ ∧ EdgeKind spec partition (addRule spec partition charset (arena, log) rule id).1 s t
      label := by
  have e : Enters _ _ _ (addRule spec partition charset (arena, log) rule id).1 _ _ _ _ :=
    addRule_enters matching formed.starts
  rcases (e.links s (some label) t).mp link with inner | ⟨⟨active, entry⟩, _⟩
  · rcases Pattern.links_fragment inner with old | ⟨nonempty, set, listed, rfl⟩ |
      ⟨asked, nonempty, rfl, rfl⟩
    · obtain ⟨nonempty, kind⟩ := formed.edges s label t old
      exact ⟨nonempty, kind.mono fun s tag here => e.tagAt_iff.mpr (Or.inr here)⟩
    · exact ⟨nonempty, .symbols fun _ => sorts.label_small listed⟩
    · obtain ⟨last, used, labelled⟩ := Partition.exists_lineEnd nonempty
      have accepts := e.acceptsFor_iff.mpr (Or.inl ⟨rfl, rfl⟩)
      exact ⟨nonempty, .lineEnd used labelled ⟨rule, found, matching⟩ asked accepts⟩
  · rcases entry with ⟨_, silent⟩ | ⟨first, used, same⟩
    · cases silent
    · cases same
      exact ⟨ofList_singleton_ne_empty first,
        .lineStart used rfl (lt_of_mem_activeConditions active)⟩

theorem addRule (formed : Formed spec partition id arena) (log : Diagnostics)
    (found : spec.rules[id]? = some rule)
    (sorts : ∀ pattern, spec.HasPattern id pattern →
      partition.Sorts (pattern.symbolSets charset)) :
    Formed spec partition (id + 1) (addRule spec partition charset (arena, log) rule id).1 := by
  cases kind : rule.pattern with
  | endOfInput =>
    rw [addRule_endOfInput kind]
    exact formed.skip found kind
  | matching pattern =>
    have e : Enters _ _ _ (Nfa.addRule spec partition charset (arena, log) rule id).1 _ _ _ _ :=
      addRule_enters kind formed.starts
    have belongs : spec.HasPattern id pattern := ⟨rule, found, kind⟩
    refine ⟨e.starts_after, ?_, ?_, ?_, ?_⟩
    · intro s label t link
      exact formed.edges_addRule log found kind (sorts pattern belongs) link
    · intro s tag here
      rcases e.tagAt_iff.mp here with ⟨_, rfl⟩ | earlier
      · exact ⟨Nat.lt_succ_self id, pattern, belongs, rfl⟩
      · obtain ⟨lower, belongs⟩ := formed.tagged s tag earlier
        exact ⟨Nat.lt_succ_of_lt lower, belongs⟩
    · intro other lower pattern' belongs'
      rcases Nat.lt_succ_iff_lt_or_eq.mp lower with before | rfl
      -- an earlier rule keeps its state, since the new tag is of another rule
      · obtain ⟨s, only⟩ := formed.accepts other before pattern' belongs'
        have apart : other ≠ (pattern.tag id).rule := Nat.ne_of_lt before
        refine ⟨s, fun t => ?_⟩
        rw [e.acceptsFor_iff, only t, or_iff_right fun last => apart last.2]
      -- no state has accepted for this rule before
      · refine ⟨(pattern.fragment partition charset arena).2.exit, fun t => ?_⟩
        have none_yet : ¬arena.AcceptsFor t other := by
          intro accepts
          obtain ⟨tag, here, same⟩ := accepts
          exact Nat.ne_of_lt (formed.tagged t tag here).1 same
        rw [e.acceptsFor_iff, or_iff_left none_yet]
        exact and_iff_left rfl
    · intro s tag here
      exact e.no_links formed.final here

end Formed

end Nfa

end Scangen
