import Scangen.Proofs.Automaton.Minimal
import Scangen.Proofs.Automaton.Subset
import Scangen.Proofs.Finite.Traversal

/-!
The states of the deterministic automata that are built: sets of states, or blocks of them. Starts and
successors are states.
-/

namespace Scangen.Dfa

variable {d : Dfa} {s t i : Nat}

/-- Classes lead to states of the automaton only. -/
def Closed (d : Dfa) : Prop :=
  ∀ {s t classId}, classId < d.numClasses → d.next s classId = some t → t < d.states.size

/-! Sets of states. -/

theorem subsets_nodup (nfa : Nfa) : (subsets nfa).Nodup := Search.breadthFirst_nodup _ _ _

/-- The states of a deterministic automaton are the sets in order. -/
theorem exists_set {nfa : Nfa} (small : s < (ofNfa nfa).states.size) :
    ∃ set ∈ subsets nfa, (subsets nfa).idxOf set = s := by
  rw [ofNfa, List.size_toArray, List.length_map] at small
  exact ⟨_, List.getElem_mem small, (subsets_nodup nfa).idxOf_getElem s small⟩

theorem ofNfa_rooted {nfa : Nfa} : (ofNfa nfa).Rooted := by
  intro s member
  obtain ⟨set, start, rfl⟩ := List.mem_map.mp member
  have known : set ∈ subsets nfa := Search.starts_subset_breadthFirst start
  show _ < ((subsets nfa).map _).toArray.size
  rw [List.size_toArray, List.length_map]
  exact List.idxOf_lt_length_of_mem known

theorem ofNfa_closed {nfa : Nfa} (closed : nfa.Closed) (started : Started nfa) :
    (ofNfa nfa).Closed := by
  intro s t classId class_small stepped
  obtain ⟨set, known, rfl⟩ := exists_set (lt_of_next stepped)
  rw [next_ofNfa known class_small] at stepped
  obtain ⟨later, follows, rfl⟩ := Option.map_eq_some_iff.mp stepped
  rw [ofNfa, List.size_toArray, List.length_map]
  exact List.idxOf_lt_length_of_mem (subsets_closed closed started known class_small follows)

/-! Blocks of states. -/

theorem minimalOrder_nodup (d : Dfa) : d.minimalOrder.Nodup := Search.breadthFirst_nodup _ _ _

theorem starts_minimize :
    d.minimize.starts = d.starts.map fun s => d.minimalOrder.idxOf (blockOf d.minimalBlocks s) := by
  rw [minimize_eq, List.map_map]
  rfl

theorem size_minimize : d.minimize.states.size = d.minimalOrder.length := by
  rw [minimize_eq, List.size_toArray, List.length_map]

theorem start_ordered (start : s ∈ d.starts) : blockOf d.minimalBlocks s ∈ d.minimalOrder :=
  Search.starts_subset_breadthFirst (List.mem_map_of_mem start)

theorem minimize_rooted : d.minimize.Rooted := by
  intro i start
  rw [starts_minimize] at start
  obtain ⟨s, member, rfl⟩ := List.mem_map.mp start
  rw [size_minimize]
  exact List.idxOf_lt_length_of_mem (start_ordered member)

/-- The states of a minimal automaton are its blocks in order. -/
theorem exists_block (rooted : d.Rooted) (small : i < d.minimize.states.size) :
    ∃ s ∈ d.minimalKept, blockOf d.minimalBlocks s ∈ d.minimalOrder ∧
      d.minimalOrder.idxOf (blockOf d.minimalBlocks s) = i := by
  rw [size_minimize] at small
  have blocks : ∀ block ∈ d.minimalOrder, ∃ s ∈ d.minimalKept, blockOf d.minimalBlocks s = block :=
    Search.breadthFirst_induction (start_block rooted) fun block _ kept later follows _ =>
      later_block block kept later follows
  obtain ⟨s, kept, same⟩ := blocks _ (List.getElem_mem small)
  refine ⟨s, kept, same ▸ List.getElem_mem small, ?_⟩
  rw [same]
  exact (minimalOrder_nodup d).idxOf_getElem i small

theorem minimize_closed (rooted : d.Rooted) : d.minimize.Closed := by
  intro i j classId class_small stepped
  obtain ⟨s, kept, ordered, rfl⟩ := exists_block rooted (lt_of_next stepped)
  rw [next_minimize kept ordered class_small] at stepped
  obtain ⟨t, found, rfl⟩ := Option.map_eq_some_iff.mp stepped
  obtain ⟨follows, live⟩ := Option.filter_eq_some_iff.mp found
  rw [size_minimize]
  exact List.idxOf_lt_length_of_mem (blocks_closed kept ordered rooted class_small follows live)

end Scangen.Dfa
