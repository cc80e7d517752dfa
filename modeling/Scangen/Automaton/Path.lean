import Scangen.Automaton.Dfa
import Scangen.Automaton.Thompson

/-!
Words of classes that lead from one state to another: along the edges of an arena, through the sets
of states of a nondeterministic automaton, and through a deterministic one.
-/

namespace Scangen

/-- Links between states, on one of some classes or without reading anything. -/
abbrev Links := Nat → Option IndexSet → Nat → Prop

/-- The word is read on a way from the first state to the second. -/
inductive Links.Path (links : Links) : Nat → List Nat → Nat → Prop
  | stay (s : Nat) : Path links s [] s
  | silent {s t u : Nat} {word : List Nat} :
      links s none t → Path links t word u → Path links s word u
  | read {s t u classId : Nat} {label : IndexSet} {word : List Nat} : links s (some label) t →
      classId ∈ label → Path links t word u → Path links s (classId :: word) u

/-- The state leads to another one. -/
def Nfa.State.LeadsTo (state : Nfa.State) : Option IndexSet → Nat → Prop
  | none, t => t ∈ state.epsilons
  | some label, t => (label, t) ∈ state.edges

namespace Arena

/-- All edges of the states built so far. -/
def links (arena : Arena) : Links :=
  fun s label t => ∃ state, arena[s]? = some state ∧ state.LeadsTo label t

def tagAt (arena : Arena) (s : Nat) : Option Tag := arena[s]?.bind Nfa.State.accept

/-- The word leads from the state to an accepting one with the tag. -/
def Finds (arena : Arena) (s : Nat) (word : List Nat) (tag : Tag) : Prop :=
  ∃ t, arena.links.Path s word t ∧ arena.tagAt t = some tag

end Arena

/-- The set of states after a word, if it is not empty. -/
def Nfa.after (nfa : Nfa) (set : IndexSet) : List Nat → Option IndexSet
  | [] => some set
  | classId :: word => (nfa.step set classId).bind fun next => nfa.after next word

/-- The state after a word; none if the word leads to the dead state. -/
def Dfa.after (d : Dfa) (s : Nat) : List Nat → Option Nat
  | [] => some s
  | classId :: word => (d.next s classId).bind fun next => d.after next word

/-- The tag of the state that a word leads to from the start of a condition. -/
def Dfa.tagAfter (d : Dfa) (condition : Nat) (word : List Nat) : Option Tag :=
  (d.starts[condition]?.bind fun s => d.after s word).bind d.accept

/-- The tag of the state that a word leads to from another state. -/
def Dfa.tagFrom (d : Dfa) (s : Nat) (word : List Nat) : Option Tag := (d.after s word).bind d.accept

/-- No word of classes tells the state of the first automaton from that of the second. -/
def Dfa.Alike (bound : Nat) (a : Dfa) (s : Nat) (b : Dfa) (t : Nat) : Prop :=
  ∀ word, (∀ classId ∈ word, classId < bound) → a.tagFrom s word = b.tagFrom t word

/-- A word of classes leads to the state from the start of a condition. -/
def Dfa.Reached (d : Dfa) (s : Nat) : Prop :=
  ∃ start ∈ d.starts, ∃ word, (∀ classId ∈ word, classId < d.numClasses) ∧
    d.after start word = some s

end Scangen
