import Scangen.Build
import Scangen.Table.ClassMap
import Scangen.Table.Transitions

/-!
Scanner tables: all that a scanner needs to know of an automaton.
-/

namespace Scangen

structure Tables where
  alphabet : Alphabet
  numStates : Nat
  /-- The classes of symbols and those of the start and the end of a line. -/
  numClasses : Nat
  classMap : ClassMap
  transitions : Transitions
  /-- The tag of each state. -/
  accept : Array (Option Tag)
  /-- The start state of each condition. -/
  starts : Array Nat
  /-- The end-of-input rule of each condition. -/
  endActions : Array (Option Nat)
  lineStart : Option Nat
  lineEnd : Option Nat
deriving DecidableEq

namespace Tables

def ofDfa (p : Partition) (d : Dfa) (endActions : List (Option Nat)) (layout : Layout) : Tables where
  alphabet := p.alphabet
  numStates := d.states.size
  numClasses := d.numClasses
  classMap := .ofPartition p layout.compressMap
  transitions := .ofRows ((List.range d.states.size).map d.row) d.numClasses layout.compression
  accept := d.states.map Dfa.State.accept
  starts := d.starts.toArray
  endActions := endActions.toArray
  lineStart := p.lineStart
  lineEnd := p.lineEnd

def classOf (t : Tables) (c : Nat) : Option Nat := t.classMap.lookup c

def next (t : Tables) (s classId : Nat) : Option Nat := t.transitions.next t.numClasses s classId

/-- Each successor can be looked up at its own place. -/
def Addressable (t : Tables) : Prop := t.transitions.Addressable t.numStates t.numClasses

instance (t : Tables) : Decidable t.Addressable :=
  inferInstanceAs (Decidable (t.transitions.Addressable _ _))

def tagOf (t : Tables) (s : Nat) : Option Tag := t.accept[s]?.join

def endAction (t : Tables) (condition : Nat) : Option Nat := t.endActions[condition]?.join

def recognizer (t : Tables) : Recognizer Nat where
  start condition := t.starts[condition]?
  step := t.next
  accept := t.tagOf
  classOf := t.classOf
  lineStart := t.lineStart
  lineEnd := t.lineEnd

theorem recognizer_step (t : Tables) : t.recognizer.step = t.next := rfl

theorem recognizer_accept (t : Tables) : t.recognizer.accept = t.tagOf := rfl

end Tables

def Automaton.tables (a : Automaton) (layout : Layout) : Tables :=
  .ofDfa a.partition a.dfa a.endActions layout

end Scangen
