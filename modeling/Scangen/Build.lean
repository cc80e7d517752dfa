import Scangen.Automaton.Minimal
import Scangen.Automaton.Rules
import Scangen.Automaton.Subset
import Scangen.Scan.Recognizer

/-!
From a specification to an automaton: classes, nondeterministic automaton, deterministic automaton and,
if asked for, the minimal one. Errors of the specification stop the build between two of these steps.
-/

namespace Scangen

/-- The step that was not taken. -/
inductive BuildError where
  | beforeSubsets
  | beforeMinimization
deriving DecidableEq

def BuildError.message : BuildError → String
  | beforeSubsets => "specification has errors, stopped before subset construction"
  | beforeMinimization => "specification has errors, stopped before minimization"

structure Automaton where
  partition : Partition
  dfa : Dfa
  /-- The end-of-input rule of each condition. -/
  endActions : List (Option Nat)

def Nfa.recognizer (nfa : Nfa) (partition : Partition) : Recognizer IndexSet where
  start condition := nfa.starts[condition]?.map fun s => nfa.closure [s]
  step := nfa.step
  accept := nfa.accept
  classOf := partition.classOf
  lineStart := partition.lineStart
  lineEnd := partition.lineEnd

def Dfa.recognizer (dfa : Dfa) (partition : Partition) : Recognizer Nat where
  start condition := dfa.starts[condition]?
  step := dfa.next
  accept := dfa.accept
  classOf := partition.classOf
  lineStart := dfa.lineStart
  lineEnd := dfa.lineEnd

def Automaton.longestMatch (a : Automaton) (condition : Nat) (input : List Nat) (atLineStart : Bool) :
    Option Match :=
  (a.dfa.recognizer a.partition).longestMatch condition input atLineStart

/-- Builds the automaton and adds what is wrong to the diagnostics reported so far. -/
def Spec.build (spec : Spec) (config : Config) (log : Diagnostics) :
    Diagnostics × Except BuildError Automaton :=
  let partition := Partition.ofSpec spec config
  let (nfa, found) := Nfa.ofSpec spec partition config.charset
  let log := log ++ found
  if log.hasErrors then (log, .error .beforeSubsets)
  else
    let dfa := Dfa.ofNfa nfa
    let log := log ++ dfa.unreachableRules spec
    if log.hasErrors then (log, .error .beforeMinimization)
    else (log, .ok ⟨partition, if config.minimize then dfa.minimize else dfa, spec.endActions⟩)

end Scangen
