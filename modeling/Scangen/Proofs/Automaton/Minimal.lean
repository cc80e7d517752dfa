import Mathlib.Data.List.Perm.Subperm
import Scangen.Build
import Scangen.Proofs.Automaton.Blocks
import Scangen.Proofs.Automaton.Live
import Scangen.Proofs.Scan.Simulation

/-!
The minimal automaton follows the one that it was made from: each state is stood for by its block,
and steps to states that are not live are dropped.
-/

namespace Scangen.Dfa

variable {d : Dfa}

/-- The start of each condition is a state. -/
def Rooted (d : Dfa) : Prop := ∀ s ∈ d.starts, s < d.states.size

/-- The states that take part in a minimization. -/
def minimalKept (d : Dfa) : List Nat := d.keptStates d.liveStates

/-- The blocks at the end of a minimization. -/
def minimalBlocks (d : Dfa) : Blocks :=
  d.refine d.liveStates d.minimalKept (d.minimalKept.length + 1)
    (blocksBy d.states.size d.minimalKept d.accept)

/-- The blocks in the order in which they are numbered. -/
def minimalOrder (d : Dfa) : List Nat :=
  Search.breadthFirst d.minimalKept.length
    (fun block => (d.blockRow d.liveStates d.minimalKept d.minimalBlocks block).filterMap id)
    (d.starts.map (blockOf d.minimalBlocks))

theorem minimize_eq (d : Dfa) : d.minimize =
    { d with
      states := (d.minimalOrder.map fun block => State.mk
        ((d.blockRow d.liveStates d.minimalKept d.minimalBlocks block).map fun next =>
          next.map d.minimalOrder.idxOf).toArray
        (d.accept (representative d.minimalKept d.minimalBlocks block))).toArray
      starts := (d.starts.map (blockOf d.minimalBlocks)).map d.minimalOrder.idxOf } := rfl

theorem kept_small : ∀ s ∈ d.minimalKept, s < d.states.size :=
  fun _ member => List.mem_range.mp (List.mem_filter.mp member).1

theorem live_kept : ∀ s ∈ d.liveStates, s ∈ d.minimalKept := by
  intro s live
  have contained : d.liveStates.contains s = true := live
  exact List.mem_filter.mpr ⟨List.mem_range.mpr (lt_of_live live), by rw [contained, Bool.true_or]⟩

theorem start_kept (rooted : d.Rooted) : ∀ s ∈ d.starts, s ∈ d.minimalKept := by
  intro s start
  refine List.mem_filter.mpr ⟨List.mem_range.mpr (rooted s start), ?_⟩
  rw [Bool.or_eq_true]
  exact Or.inr (List.contains_iff_mem.mpr start)

theorem minimalBlocks_spec : Refines d.minimalKept
    (blocksBy d.states.size d.minimalKept d.accept) d.minimalBlocks ∧
    d.Stable d.liveStates d.minimalKept d.minimalBlocks :=
  refine_spec kept_small live_kept _ (by omega)

/-- States of one block have the same tag. -/
theorem accept_same_block {s t : Nat} (s_kept : s ∈ d.minimalKept) (t_kept : t ∈ d.minimalKept)
    (same : blockOf d.minimalBlocks s = blockOf d.minimalBlocks t) : d.accept s = d.accept t :=
  (same_block_iff kept_small s_kept t_kept).mp (minimalBlocks_spec.1 s s_kept t t_kept same)

theorem representative_kept {s : Nat} (kept : s ∈ d.minimalKept) :
    representative d.minimalKept d.minimalBlocks (blockOf d.minimalBlocks s) ∈ d.minimalKept ∧
      blockOf d.minimalBlocks (representative d.minimalKept d.minimalBlocks
        (blockOf d.minimalBlocks s)) =
        blockOf d.minimalBlocks s :=
  representative_spec ⟨s, kept, rfl⟩

/-- The row of a block is that of each of its states, with blocks for states. -/
theorem blockRow_eq {s : Nat} (kept : s ∈ d.minimalKept) :
    d.blockRow d.liveStates d.minimalKept d.minimalBlocks (blockOf d.minimalBlocks s) =
      (List.range d.numClasses).map fun classId =>
        ((d.next s classId).filter d.liveStates.contains).map (blockOf d.minimalBlocks) := by
  obtain ⟨rep_kept, rep_block⟩ := representative_kept kept
  have rows := minimalBlocks_spec.2 _ rep_kept s kept rep_block
  rw [blockRow, rows, signature, liveRow, row, List.map_map, List.map_map]
  rfl

/-! Only blocks of kept states are met, so there are no more of them than kept states. -/

theorem start_block (rooted : d.Rooted) : ∀ block ∈ d.starts.map (blockOf d.minimalBlocks),
    ∃ s ∈ d.minimalKept, blockOf d.minimalBlocks s = block := by
  intro block start
  obtain ⟨s, member, rfl⟩ := List.mem_map.mp start
  exact ⟨s, start_kept rooted s member, rfl⟩

theorem later_block : ∀ block, (∃ s ∈ d.minimalKept, blockOf d.minimalBlocks s = block) →
    ∀ later ∈ (d.blockRow d.liveStates d.minimalKept d.minimalBlocks block).filterMap id,
      ∃ s ∈ d.minimalKept, blockOf d.minimalBlocks s = later := by
  rintro _ ⟨s, kept, rfl⟩ later member
  rw [blockRow_eq kept, List.mem_filterMap] at member
  obtain ⟨_, entry, rfl⟩ := member
  obtain ⟨classId, _, same⟩ := List.mem_map.mp entry
  obtain ⟨t, found, rfl⟩ := Option.map_eq_some_iff.mp same
  exact ⟨t, live_kept t (Option.filter_eq_some_iff.mp found).2, rfl⟩

theorem few_blocks (keys : List Nat) (unique : keys.Nodup)
    (possible : ∀ key ∈ keys, ∃ s ∈ d.minimalKept, blockOf d.minimalBlocks s = key) :
    keys.length ≤ d.minimalKept.length := by
  have inside : keys ⊆ d.minimalKept.map (blockOf d.minimalBlocks) := by
    intro key member
    obtain ⟨s, kept, rfl⟩ := possible key member
    exact List.mem_map_of_mem kept
  have bound := (unique.subperm inside).length_le
  rwa [List.length_map] at bound

theorem blocks_closed {s t classId : Nat} (kept : s ∈ d.minimalKept)
    (ordered : blockOf d.minimalBlocks s ∈ d.minimalOrder) (rooted : d.Rooted)
    (small : classId < d.numClasses)
    (stepped : d.next s classId = some t) (live : t ∈ d.liveStates) :
      blockOf d.minimalBlocks t ∈ d.minimalOrder := by
  apply Search.breadthFirst_closed (start_block rooted) later_block few_blocks _ ordered
  have contained : d.liveStates.contains t = true := live
  rw [blockRow_eq kept, List.mem_filterMap]
  refine ⟨some (blockOf d.minimalBlocks t),
    List.mem_map.mpr ⟨classId, List.mem_range.mpr small, ?_⟩, rfl⟩
  rw [stepped, Option.filter_some_pos contained, Option.map_some]

theorem state_minimize {block : Nat} (ordered : block ∈ d.minimalOrder) :
    d.minimize.states[d.minimalOrder.idxOf block]? = some
      ⟨((d.blockRow d.liveStates d.minimalKept d.minimalBlocks block).map fun next =>
          next.map d.minimalOrder.idxOf).toArray,
        d.accept (representative d.minimalKept d.minimalBlocks block)⟩ := by
  rw [minimize_eq]
  simp only [List.getElem?_toArray, List.getElem?_map, List.getElem?_idxOf ordered, Option.map_some]

theorem next_minimize {s classId : Nat} (kept : s ∈ d.minimalKept)
    (ordered : blockOf d.minimalBlocks s ∈ d.minimalOrder) (small : classId < d.numClasses) :
    d.minimize.next (d.minimalOrder.idxOf (blockOf d.minimalBlocks s)) classId =
      ((d.next s classId).filter d.liveStates.contains).map fun t => d.minimalOrder.idxOf
        (blockOf d.minimalBlocks t) := by
  rw [next, state_minimize ordered, blockRow_eq kept]
  simp only [List.getElem?_toArray, List.getElem?_map, List.getElem?_range small,
    Option.map_some, Option.join_some,
    Option.map_map]
  rfl

theorem accept_minimize {s : Nat} (kept : s ∈ d.minimalKept)
    (ordered : blockOf d.minimalBlocks s ∈ d.minimalOrder) :
    d.minimize.accept (d.minimalOrder.idxOf (blockOf d.minimalBlocks s)) = d.accept s := by
  obtain ⟨rep_kept, rep_block⟩ := representative_kept kept
  rw [accept, state_minimize ordered]
  exact accept_same_block rep_kept kept rep_block

theorem minimize_follows (rooted : d.Rooted) (partition : Partition) :
    Recognizer.Follows (d.recognizer partition) (d.minimize.recognizer partition) d.numClasses
      (fun s i => s ∈ d.minimalKept ∧ blockOf d.minimalBlocks s ∈ d.minimalOrder ∧
        i = d.minimalOrder.idxOf (blockOf d.minimalBlocks s))
      (fun s => s ∉ d.liveStates) := by
  have start : ∀ condition, (d.minimize.recognizer partition).start condition =
      ((d.recognizer partition).start condition).map fun s => d.minimalOrder.idxOf
        (blockOf d.minimalBlocks s) := by
    intro condition
    show d.minimize.starts[condition]? = d.starts[condition]?.map _
    rw [minimize_eq, List.map_map, List.getElem?_map]
    rfl
  constructor
  · intro condition nothing
    rw [start, nothing, Option.map_none]
  · intro condition s found
    have member : s ∈ d.starts := List.mem_of_getElem? found
    refine ⟨_, by rw [start, found, Option.map_some], start_kept rooted s member, ?_, rfl⟩
    exact Search.starts_subset_breadthFirst (List.mem_map_of_mem member)
  · rintro s i ⟨kept, ordered, rfl⟩
    exact accept_minimize kept ordered
  · rintro s i classId ⟨kept, ordered, rfl⟩ small nothing
    have nothing : d.next s classId = none := nothing
    show d.minimize.next _ classId = none
    rw [next_minimize kept ordered small, nothing]
    rfl
  · rintro s i classId t ⟨kept, ordered, rfl⟩ small stepped
    have stepped : d.next s classId = some t := stepped
    by_cases live : t ∈ d.liveStates
    · have contained : d.liveStates.contains t = true := live
      refine Or.inl ⟨_, ?_, live_kept t live,
        blocks_closed kept ordered rooted small stepped live, rfl⟩
      show d.minimize.next _ classId = _
      rw [next_minimize kept ordered small, stepped, Option.filter_some_pos contained,
        Option.map_some]
    · have missing : d.liveStates.contains t = false := Bool.eq_false_iff.mpr live
      refine Or.inr ⟨?_, live⟩
      show d.minimize.next _ classId = none
      rw [next_minimize kept ordered small, stepped, Option.filter_some_neg missing,
        Option.map_none]
  · intro s isLost
    cases found : d.accept s with
    | none => exact found
    | some tag => exact absurd (live_of_accept found) isLost
  · exact fun isLost small stepped live => isLost (live_of_next small stepped live)

end Scangen.Dfa
