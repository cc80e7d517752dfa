import Mathlib.Data.List.Nodup
import Scangen.Proofs.Automaton.Sets
import Scangen.Proofs.Scan.Simulation

/-!
The subset construction keeps all tags: each known set of states is a state of its own, and no set
that can be reached is missing.
-/

namespace Scangen

theorem IndexSet.bits_lt {set : IndexSet} {size : Nat} (small : ∀ i ∈ set, i < size) :
    set.bits < 1 <<< size := by
  rw [Nat.one_shiftLeft]
  apply Nat.lt_pow_two_of_testBit
  intro i large
  cases bit : set.bits.testBit i with
  | false => rfl
  | true =>
    have := small i bit
    omega

/-- There are no more sets of small numbers than subsets. -/
theorem IndexSet.few {size : Nat} (sets : List IndexSet) (unique : sets.Nodup)
    (small : ∀ set ∈ sets, ∀ i ∈ set, i < size) : sets.length ≤ 1 <<< size := by
  have bits_inj : Function.Injective IndexSet.bits := by
    rintro ⟨a⟩ ⟨b⟩ same
    exact congrArg IndexSet.mk same
  have below : ∀ bits ∈ sets.map IndexSet.bits, bits < 1 <<< size := by
    intro bits member
    obtain ⟨set, inside, rfl⟩ := List.mem_map.mp member
    exact bits_lt (small set inside)
  have bound := length_le_of_nodup_lt (List.Nodup.map bits_inj unique) below
  rwa [List.length_map] at bound

namespace Dfa

variable {nfa : Nfa}

/-- The states of conditions exist. -/
def Started (nfa : Nfa) : Prop := ∀ s ∈ nfa.starts, s < nfa.states.size

theorem lt_of_path (closed : nfa.Closed) {s t : Nat} {word : List Nat} (small : s < nfa.states.size)
    (path : Links.Path (Arena.links nfa.states) s word t) : t < nfa.states.size := by
  have inside := path.confined (R := fun s => s < nfa.states.size) (f := Arena.links nfa.states)
    (fun s label t _ link => ⟨link, closed s label t link⟩) small
  exact inside.1

theorem startSets_small (closed : nfa.Closed) (started : Started nfa) :
    ∀ set ∈ startSets nfa, ∀ i ∈ set, i < nfa.states.size := by
  intro set member i inside
  obtain ⟨s, start, rfl⟩ := List.mem_map.mp member
  have small : ∀ t ∈ [s], t < nfa.states.size := by simpa using started s start
  obtain ⟨t, seed, path⟩ := (Nfa.mem_closure closed small).mp inside
  exact lt_of_path closed (small t seed) path

theorem mem_subsetRow {set next : IndexSet} : next ∈ (subsetRow nfa set).filterMap id ↔
    ∃ classId < nfa.numClasses, nfa.step set classId = some next := by
  simp only [subsetRow, List.mem_filterMap, List.mem_map, List.mem_range, id_eq]
  constructor
  · rintro ⟨_, ⟨classId, small, rfl⟩, stepped⟩
    exact ⟨classId, small, stepped⟩
  · rintro ⟨classId, small, stepped⟩
    exact ⟨_, ⟨classId, small, rfl⟩, stepped⟩

theorem step_small (closed : nfa.Closed) {set next : IndexSet} {classId : Nat}
    (stepped : nfa.step set classId = some next) : ∀ i ∈ next, i < nfa.states.size := by
  intro i inside
  obtain ⟨s, _, label, t, link, _, path⟩ := (Nfa.mem_step closed).mp ⟨next, stepped, inside⟩
  exact lt_of_path closed (closed s (some label) t link) path

/-- Every set that a known one leads to is known. -/
theorem subsets_closed (closed : nfa.Closed) (started : Started nfa) {set next : IndexSet}
    (known : set ∈ subsets nfa)
    {classId : Nat} (small : classId < nfa.numClasses)
    (stepped : nfa.step set classId = some next) :
    next ∈ subsets nfa := by
  apply Search.breadthFirst_closed (P := fun set => ∀ i ∈ set, i < nfa.states.size)
    (startSets_small closed started) _ IndexSet.few set known next
    (mem_subsetRow.mpr ⟨classId, small, stepped⟩)
  intro set _ later member
  obtain ⟨classId, _, stepped⟩ := mem_subsetRow.mp member
  exact step_small closed stepped

theorem state_ofNfa {set : IndexSet} (known : set ∈ subsets nfa) :
    (ofNfa nfa).states[(subsets nfa).idxOf set]? = some
      ⟨((subsetRow nfa set).map fun next => next.map (subsets nfa).idxOf).toArray,
        nfa.accept set⟩ := by
  simp only [ofNfa, List.getElem?_toArray, List.getElem?_map, List.getElem?_idxOf known,
    Option.map_some]

theorem next_ofNfa {set : IndexSet} (known : set ∈ subsets nfa) {classId : Nat}
    (small : classId < nfa.numClasses) :
    (ofNfa nfa).next ((subsets nfa).idxOf set) classId =
      (nfa.step set classId).map (subsets nfa).idxOf := by
  unfold next
  rw [state_ofNfa known]
  simp only [subsetRow, List.getElem?_toArray, List.getElem?_map, List.getElem?_range small,
    Option.map_some,
    Option.join_some]
  rfl

theorem accept_ofNfa {set : IndexSet} (known : set ∈ subsets nfa) :
    (ofNfa nfa).accept ((subsets nfa).idxOf set) = nfa.accept set := by
  unfold accept
  rw [state_ofNfa known]

theorem ofNfa_follows (closed : nfa.Closed) (started : Started nfa) (partition : Partition) :
    Recognizer.Follows (nfa.recognizer partition) ((ofNfa nfa).recognizer partition) nfa.numClasses
      (fun set s => set ∈ subsets nfa ∧ s = (subsets nfa).idxOf set) (fun _ => False) := by
  have start : ∀ condition, ((ofNfa nfa).recognizer partition).start condition =
      ((nfa.recognizer partition).start condition).map (subsets nfa).idxOf := by
    intro condition
    show ((startSets nfa).map (subsets nfa).idxOf)[condition]? =
      (nfa.starts[condition]?.map _).map _
    rw [startSets, List.getElem?_map, List.getElem?_map]
  constructor
  · intro condition nothing
    rw [start, nothing, Option.map_none]
  · intro condition set found
    refine ⟨_, by rw [start, found, Option.map_some], ?_, rfl⟩
    obtain ⟨s, first, rfl⟩ := Option.map_eq_some_iff.mp found
    apply Search.starts_subset_breadthFirst
    exact List.mem_map_of_mem (List.mem_of_getElem? first)
  · rintro set s ⟨known, rfl⟩
    exact accept_ofNfa known
  · rintro set s classId ⟨known, rfl⟩ small nothing
    show (ofNfa nfa).next _ classId = none
    have nothing : nfa.step set classId = none := nothing
    rw [next_ofNfa known small, nothing, Option.map_none]
  · rintro set s classId later ⟨known, rfl⟩ small stepped
    have stepped : nfa.step set classId = some later := stepped
    refine Or.inl ⟨(subsets nfa).idxOf later, ?_,
      subsets_closed closed started known small stepped, rfl⟩
    show (ofNfa nfa).next _ classId = _
    rw [next_ofNfa known small, stepped, Option.map_some]
  · exact fun isLost => isLost.elim
  · exact fun isLost => isLost.elim

end Dfa

end Scangen
