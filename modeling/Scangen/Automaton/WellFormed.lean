import Scangen.Automaton.Path
import Scangen.Automaton.Rules

/-!
What holds of the states of an automaton that belongs to a specification: where links lead, what stands
on edges, and which states accept for which rule.
-/

namespace Scangen

/-- The rule with this number has this pattern. -/
def Spec.HasPattern (spec : Spec) (id : Nat) (pattern : Pattern) : Prop :=
  ∃ rule, spec.rules[id]? = some rule ∧ rule.pattern = .matching pattern

/-- The state accepts for the rule. -/
def Arena.AcceptsFor (arena : Arena) (s id : Nat) : Prop :=
  ∃ tag, arena.tagAt s = some tag ∧ tag.rule = id

/-- The states of the automaton fit together and belong to the specification. The ends of a line are
read by edges of their own: a start by those that leave the starts of conditions, an end by those that
lead to where a rule that asks for it accepts. -/
structure Nfa.WellFormed (nfa : Nfa) (spec : Spec) : Prop where
  starts : nfa.starts = List.range spec.conditions.length
  room : spec.conditions.length ≤ nfa.states.size
  /-- Links lead to states. -/
  closed : ∀ s label t, Arena.links nfa.states s label t → t < nfa.states.size
  /-- No link leads to a start. -/
  fresh : ∀ s label t, Arena.links nfa.states s label t → t ∉ nfa.starts
  /-- Each edge reads something, and classes of the automaton only. -/
  labels : ∀ s label t, Arena.links nfa.states s (some label) t →
    label ≠ ∅ ∧ ∀ classId ∈ label, classId < nfa.numClasses
  /-- One state accepts for each rule with a pattern. -/
  accepts : ∀ id pattern, spec.HasPattern id pattern →
    ∃ s, ∀ t, Arena.AcceptsFor nfa.states t id ↔ t = s
  /-- States accept for rules with a pattern only, and the place of a rule is its priority. -/
  tagged : ∀ s tag, Arena.tagAt nfa.states s = some tag → tag.priority = tag.rule ∧
    ∃ pattern, spec.HasPattern tag.rule pattern ∧ tag.trailing = pattern.cut
  /-- Nothing leaves a state that accepts. -/
  final : ∀ s tag, Arena.tagAt nfa.states s = some tag → ∀ label t, ¬Arena.links nfa.states s label t
  lineStart : ∀ first, nfa.lineStart = some first → ∀ s label t,
    Arena.links nfa.states s (some label) t → first ∈ label → label = .ofList [first] ∧ s ∈ nfa.starts
  lineEnd : ∀ last, nfa.lineEnd = some last → ∀ s label t, Arena.links nfa.states s (some label) t →
    last ∈ label → label = .ofList [last] ∧ ∃ id pattern,
      spec.HasPattern id pattern ∧ pattern.lineEnd = true ∧ Arena.AcceptsFor nfa.states t id
  /-- There is a class for the end of a line if a rule asks for it. -/
  lineEnd_known : ∀ id pattern, spec.HasPattern id pattern → pattern.lineEnd = true →
    ∃ last, nfa.lineEnd = some last

end Scangen
