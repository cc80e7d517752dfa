import Scangen.Automaton.Nfa
import Scangen.Partition

/-!
From expressions to automata. An expression becomes a fragment with one entry and one exit; the
words on the paths between the two are those that the expression matches. States are only ever
added, and new edges lead into the fragment or out of its exit, so that a fragment stays what it is.
-/

namespace Scangen

/-- The states built so far. -/
abbrev Arena := Array Nfa.State

namespace Arena

/-- Adds a state, whose number is the size of the arena before. -/
def newState (arena : Arena) : Arena := arena.push .blank

def epsilon (arena : Arena) (source target : Nat) : Arena :=
  arena.modify source fun state => { state with epsilons := target :: state.epsilons }

/-- Adds an edge, unless there is nothing that it could read. -/
def edge (arena : Arena) (source : Nat) (label : IndexSet) (target : Nat) : Arena :=
  if label.isEmpty then arena
  else arena.modify source fun state => { state with edges := (label, target) :: state.edges }

def accept (arena : Arena) (s : Nat) (tag : Tag) : Arena :=
  arena.modify s fun state => { state with accept := some tag }

/-- Whether one state can be reached from another without reading anything. -/
def reachesSilently (arena : Arena) (source target : Nat) : Bool :=
  (Search.reachable arena.size (Nfa.epsilonsFrom arena) [source]).contains target

/-- Whether one state can be reached from another. -/
def reaches (arena : Arena) (source target : Nat) : Bool :=
  (Search.reachable arena.size (Nfa.neighbours arena) [source]).contains target

end Arena

structure Fragment where
  entry : Nat
  exit : Nat

/-- Adds the states of a fragment to an arena. -/
abbrev Builder := Arena → Arena × Fragment

/-- The classes that a set is made of, which has to be made of whole classes. -/
def Partition.label (partition : Partition) (s : SymbolSet) : IndexSet :=
  match partition.classesOf s with
  | .ok classes => classes
  | .error _ => ∅

namespace Builder

/-- Reads one symbol of a set. -/
def ofSet (partition : Partition) (s : SymbolSet) : Builder := fun arena =>
  let entry := arena.size
  let exit := arena.size + 1
  (arena.newState.newState.edge entry (partition.label s) exit, ⟨entry, exit⟩)

def empty : Builder := fun arena =>
  let entry := arena.size
  let exit := arena.size + 1
  (arena.newState.newState.epsilon entry exit, ⟨entry, exit⟩)

/-- Two fragments in a row. -/
def append (first second : Builder) : Builder := fun arena =>
  let (arena, a) := first arena
  let (arena, b) := second arena
  (arena.epsilon a.exit b.entry, ⟨a.entry, b.exit⟩)

/-- Two states around a fragment: in and out, back from its exit if it loops, and past it if it may
be skipped. -/
def around (loops skips : Bool) (inner : Builder) : Builder := fun arena =>
  let (arena, fragment) := inner arena
  let entry := arena.size
  let exit := arena.size + 1
  let arena := arena.newState.newState
  let arena := if loops then arena.epsilon fragment.exit fragment.entry else arena
  let arena := (arena.epsilon fragment.exit exit).epsilon entry fragment.entry
  (if skips then arena.epsilon entry exit else arena, ⟨entry, exit⟩)

def star : Builder → Builder := around true true

def plus : Builder → Builder := around true false

def optional : Builder → Builder := around false true

/-- Puts copies of a fragment behind a state; the second part is the state after the last one. -/
def copies (inner : Builder) : Nat → Arena → Nat → Arena × Nat
  | 0, arena, cursor => (arena, cursor)
  | count + 1, arena, cursor =>
    let (arena, fragment) := inner arena
    copies inner count (arena.epsilon cursor fragment.entry) fragment.exit

/-- Puts copies of a fragment behind a state, with a way to `exit` before each of them. -/
def optionalCopies (inner : Builder) (exit : Nat) : Nat → Arena → Nat → Arena × Nat
  | 0, arena, cursor => (arena, cursor)
  | count + 1, arena, cursor =>
    let (arena, fragment) := inner arena
    optionalCopies inner exit count ((arena.epsilon cursor fragment.entry).epsilon cursor exit)
      fragment.exit

/-- As many copies as there have to be, followed by a starred one or by those that may be. -/
def repetition (inner : Builder) (least : Nat) (most : Option Nat) : Builder := fun arena =>
  let entry := arena.size
  let (arena, cursor) := copies inner least arena.newState entry
  let exit := arena.size
  let arena := arena.newState
  match most with
  | none =>
    let (arena, fragment) := star inner arena
    ((arena.epsilon cursor fragment.entry).epsilon fragment.exit exit, ⟨entry, exit⟩)
  | some most =>
    let (arena, cursor) := optionalCopies inner exit (most - least) arena cursor
    (arena.epsilon cursor exit, ⟨entry, exit⟩)

/-- One more alternate between two states. -/
def alternate (inner : Builder) (entry exit : Nat) (arena : Arena) : Arena :=
  let (arena, fragment) := inner arena
  (arena.epsilon entry fragment.entry).epsilon fragment.exit exit

end Builder

namespace Regex

mutual

/-- The fragment of an expression. -/
def fragment (partition : Partition) (charset : Charset) : Regex → Builder
  | alternation alternates => fun arena =>
    let entry := arena.size
    let exit := arena.size + 1
    (alternatesBetween partition charset alternates entry exit arena.newState.newState,
      ⟨entry, exit⟩)
  | concatenation factors => sequenceFragment partition charset factors
  | star inner => .star (fragment partition charset inner)
  | plus inner => .plus (fragment partition charset inner)
  | optional inner => .optional (fragment partition charset inner)
  | repetition inner least most => .repetition (fragment partition charset inner) least most
  | symbol c => .ofSet partition (literalSet c charset)
  | symbolClass c => .ofSet partition (c.resolve charset)
  | empty => .empty

/-- The alternates one after the other, each between the same two states. -/
def alternatesBetween (partition : Partition) (charset : Charset) :
    List Regex → Nat → Nat → Arena → Arena
  | [], _, _, arena => arena
  | first :: rest, entry, exit, arena =>
    alternatesBetween partition charset rest entry exit
      (Builder.alternate (fragment partition charset first) entry exit arena)

/-- The factors in a row; without factors only the empty word matches. -/
def sequenceFragment (partition : Partition) (charset : Charset) : List Regex → Builder
  | [] => .empty
  | [only] => fragment partition charset only
  | first :: second :: rest =>
    .append (fragment partition charset first) (sequenceFragment partition charset (second :: rest))

end

end Regex

end Scangen
