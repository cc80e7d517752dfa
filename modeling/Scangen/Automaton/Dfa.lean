import Scangen.Automaton.Tag
import Scangen.Finite.IndexSet
import Scangen.Diagnostic

/-!
Deterministic automata. A class without a successor leads to the dead state, which is not stored.
-/

namespace Scangen

structure Dfa.State where
  /-- The successor for each class. -/
  next : Array (Option Nat)
  accept : Option Tag
deriving DecidableEq

structure Dfa where
  states : Array Dfa.State
  /-- The start state of each condition; conditions with the same rules share one. -/
  starts : List Nat
  numClasses : Nat
  lineStart : Option Nat
  lineEnd : Option Nat
deriving DecidableEq

namespace Dfa

def next (d : Dfa) (s classId : Nat) : Option Nat :=
  match d.states[s]? with
  | none => none
  | some state => state.next[classId]?.join

def accept (d : Dfa) (s : Nat) : Option Tag :=
  match d.states[s]? with
  | none => none
  | some state => state.accept

/-- The successors of a state for all classes in order. -/
def row (d : Dfa) (s : Nat) : List (Option Nat) := (List.range d.numClasses).map (d.next s)

/-- The rules that win in some state, in ascending order. -/
def acceptedRules (d : Dfa) : List Nat :=
  (IndexSet.ofList ((List.range d.states.size).filterMap fun s => (d.accept s).map Tag.rule)).toList

/-- One diagnostic for each pattern rule that wins in no state. -/
def unreachableRules (d : Dfa) (spec : Spec) : Diagnostics :=
  let winners := d.acceptedRules
  spec.rules.zipIdx.filterMap fun (rule, id) =>
    match rule.pattern with
    | .endOfInput => none
    | .matching _ =>
      if id ∈ winners then none else some (DiagnosticKind.unreachableRule.report rule id)

end Dfa

end Scangen
