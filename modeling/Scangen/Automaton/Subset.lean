import Scangen.Automaton.Dfa
import Scangen.Automaton.Nfa

/-!
Subset construction: the states of the deterministic automaton are the sets of states that the other
automaton can be in, numbered in breadth-first order from the starts.
-/

namespace Scangen.Dfa

/-- The set after each class in order. -/
def subsetRow (nfa : Nfa) (set : IndexSet) : List (Option IndexSet) :=
  let edges := nfa.edgesFrom set
  (List.range nfa.numClasses).map (nfa.stepAlong edges)

/-- The set of states that a condition starts in. -/
def startSets (nfa : Nfa) : List IndexSet := nfa.starts.map fun s => nfa.closure [s]

/-- All sets that can be reached. There are no more sets than subsets of the states. -/
def subsets (nfa : Nfa) : List IndexSet :=
  Search.breadthFirst (1 <<< nfa.states.size) (fun set => (subsetRow nfa set).filterMap id)
    (startSets nfa)

def ofNfa (nfa : Nfa) : Dfa :=
  let known := subsets nfa
  { states := (known.map fun set => State.mk
      ((subsetRow nfa set).map fun next => next.map known.idxOf).toArray (nfa.accept set)).toArray
    starts := (startSets nfa).map known.idxOf
    numClasses := nfa.numClasses
    lineStart := nfa.lineStart
    lineEnd := nfa.lineEnd }

end Scangen.Dfa
