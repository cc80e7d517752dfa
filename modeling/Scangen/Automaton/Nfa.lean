import Scangen.Automaton.Tag
import Scangen.Finite.Search

/-!
Nondeterministic automata. States are numbered and lead to others on sets of classes or without
reading anything; each start condition has a start state of its own.
-/

namespace Scangen

structure Nfa.State where
  /-- What is read, and the state that follows. -/
  edges : List (IndexSet × Nat)
  epsilons : List Nat
  accept : Option Tag
deriving DecidableEq

structure Nfa where
  states : Array Nfa.State
  /-- The start state of each condition. -/
  starts : List Nat
  numClasses : Nat
  lineStart : Option Nat
  lineEnd : Option Nat

namespace Nfa

def State.blank : State := ⟨[], [], none⟩

/-- The states next to a state without reading anything. -/
def epsilonsFrom (states : Array State) (s : Nat) : List Nat :=
  match states[s]? with
  | none => []
  | some state => state.epsilons

/-- The states next to a state, whatever is read. -/
def neighbours (states : Array State) (s : Nat) : List Nat :=
  match states[s]? with
  | none => []
  | some state => state.epsilons ++ state.edges.map Prod.snd

/-- All states that can be reached from these without reading anything. -/
def closure (nfa : Nfa) (states : List Nat) : IndexSet :=
  Search.reachable nfa.states.size (epsilonsFrom nfa.states) states

/-- The edges that leave a set of states. -/
def edgesFrom (nfa : Nfa) (set : IndexSet) : List (IndexSet × Nat) :=
  set.toList.flatMap fun s =>
    match nfa.states[s]? with
    | none => []
    | some state => state.edges

/-- Where a class leads along some edges. -/
def targets (edges : List (IndexSet × Nat)) (classId : Nat) : List Nat :=
  edges.filterMap fun (label, target) => if label.contains classId then some target else none

/-- The states after reading a class and what can be reached from them; none if there are none. -/
def stepAlong (nfa : Nfa) (edges : List (IndexSet × Nat)) (classId : Nat) : Option IndexSet :=
  match targets edges classId with
  | [] => none
  | first :: others => some (nfa.closure (first :: others))

def step (nfa : Nfa) (set : IndexSet) (classId : Nat) : Option IndexSet :=
  nfa.stepAlong (nfa.edgesFrom set) classId

/-- The tag of the winning rule among the accepting states of a set. -/
def accept (nfa : Nfa) (set : IndexSet) : Option Tag :=
  Tag.first? (set.toList.filterMap fun s => nfa.states[s]?.bind State.accept)

end Nfa

end Scangen
