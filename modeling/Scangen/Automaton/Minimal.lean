import Scangen.Automaton.Dfa
import Scangen.Finite.Search

/-!
Minimal automata. States from which no rule can win any more count as dead. The others are put into
blocks by their tags, the blocks are split until all states of a block lead to the same blocks, and
each block becomes one state. The result is numbered in breadth-first order from the starts.
-/

namespace Scangen.Dfa

/-- The states that lead to each state. -/
def predecessors (d : Dfa) : Array (List Nat) :=
  (List.range d.states.size).foldl (fun lists s =>
    (d.row s).foldl (fun lists next =>
      match next with
      | none => lists
      | some t => lists.modify t (s :: ·)) lists) (Array.replicate d.states.size [])

/-- The states from which an accepting state can be reached. -/
def liveStates (d : Dfa) : IndexSet :=
  let before := d.predecessors
  Search.reachable d.states.size (fun t => before[t]?.getD [])
    ((List.range d.states.size).filter fun s => (d.accept s).isSome)

/-- The live states and the starts, in ascending order. -/
def keptStates (d : Dfa) (live : IndexSet) : List Nat :=
  (List.range d.states.size).filter fun s => live.contains s || d.starts.contains s

/-- The successors of a state for all classes, where only live ones count. -/
def liveRow (d : Dfa) (live : IndexSet) (s : Nat) : List (Option Nat) :=
  (d.row s).map fun next => next.filter live.contains

/-- The block of each state. -/
abbrev Blocks := Array Nat

def blockOf (blocks : Blocks) (s : Nat) : Nat := blocks[s]?.getD 0

/-- Numbers the kept states by their keys: equal keys, equal block. -/
def blocksBy {κ : Type} [DecidableEq κ] (size : Nat) (kept : List Nat) (key : Nat → κ) : Blocks :=
  (kept.zip (ranks (kept.map key))).foldl (fun blocks (s, block) => blocks.setIfInBounds s block)
    (Array.replicate size 0)

/-- The number of blocks that the kept states are in. -/
def blockCount (kept : List Nat) (blocks : Blocks) : Nat :=
  (distinct (kept.map (blockOf blocks))).length

/-- The block of a state and those of its successors. -/
def signature (d : Dfa) (live : IndexSet) (blocks : Blocks) (s : Nat) : Nat × List (Option Nat) :=
  (blockOf blocks s, (d.liveRow live s).map fun next => next.map (blockOf blocks))

/-- Splits blocks until their number stays the same; `fuel` is a bound on the number of blocks. -/
def refine (d : Dfa) (live : IndexSet) (kept : List Nat) : Nat → Blocks → Blocks
  | 0, blocks => blocks
  | fuel + 1, blocks =>
    let finer := blocksBy d.states.size kept (d.signature live blocks)
    if blockCount kept finer = blockCount kept blocks then finer else refine d live kept fuel finer

/-- The first state of a block. -/
def representative (kept : List Nat) (blocks : Blocks) (block : Nat) : Nat :=
  (kept.find? fun s => blockOf blocks s = block).getD 0

/-- The blocks that follow each class. -/
def blockRow (d : Dfa) (live : IndexSet) (kept : List Nat) (blocks : Blocks) (block : Nat) :
    List (Option Nat) :=
  (d.signature live blocks (representative kept blocks block)).2

def minimize (d : Dfa) : Dfa :=
  let live := d.liveStates
  let kept := d.keptStates live
  let blocks := d.refine live kept (kept.length + 1) (blocksBy d.states.size kept d.accept)
  let starts := d.starts.map (blockOf blocks)
  let order := Search.breadthFirst kept.length
    (fun block => (d.blockRow live kept blocks block).filterMap id) starts
  { d with
    states := (order.map fun block => State.mk
      ((d.blockRow live kept blocks block).map fun next => next.map order.idxOf).toArray
      (d.accept (representative kept blocks block))).toArray
    starts := starts.map order.idxOf }

end Scangen.Dfa
