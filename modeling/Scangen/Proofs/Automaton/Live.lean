import Mathlib.Tactic.Tauto
import Scangen.Automaton.Minimal
import Scangen.Proofs.Finite.Search

/-!
The live states of a deterministic automaton: a state with a live successor is live, and so is one
with a tag.
-/

namespace Scangen.Dfa

variable {d : Dfa}

/-- Adds a state to the predecessors of all its successors. -/
def addPredecessor (s : Nat) (lists : Array (List Nat)) (next : Option Nat) : Array (List Nat) :=
  match next with
  | none => lists
  | some t => lists.modify t (s :: ·)

theorem size_addPredecessors (s : Nat) (row : List (Option Nat)) (lists : Array (List Nat)) :
    (row.foldl (addPredecessor s) lists).size = lists.size := by
  induction row generalizing lists with
  | nil => rfl
  | cons next rest ih =>
    rw [List.foldl_cons, ih]
    cases next with
    | none => rfl
    | some t => exact Array.size_modify

theorem mem_addPredecessors {s i t : Nat} {row : List (Option Nat)} {lists : Array (List Nat)} :
    i ∈ (row.foldl (addPredecessor s) lists)[t]?.getD [] ↔
      i ∈ lists[t]?.getD [] ∨ (t < lists.size ∧ i = s ∧ some t ∈ row) := by
  induction row generalizing lists with
  | nil => simp
  | cons next rest ih =>
    rw [List.foldl_cons, ih, List.mem_cons]
    cases next with
    | none => simp [addPredecessor]
    | some u =>
      simp only [addPredecessor, Array.size_modify, Array.getElem?_modify, Option.some.injEq]
      by_cases here : u = t
      · subst here
        by_cases inside : u < lists.size
        · simp [inside]
          tauto
        · simp [inside]
      · have apart : ¬t = u := fun same => here same.symm
        simp [here, apart]

/-- The predecessors of a state are those that lead to it on some class. -/
theorem mem_predecessors {s t : Nat} :
    s ∈ d.predecessors[t]?.getD [] ↔ t < d.states.size ∧ s < d.states.size ∧ some t ∈ d.row s := by
  have folded : ∀ (sources : List Nat) (lists : Array (List Nat)),
      s ∈ (sources.foldl (fun lists s => (d.row s).foldl (addPredecessor s) lists) lists)[t]?.getD
        [] ↔
        s ∈ lists[t]?.getD [] ∨ (t < lists.size ∧ s ∈ sources ∧ some t ∈ d.row s) := by
    intro sources
    induction sources with
    | nil => simp
    | cons first rest ih =>
      intro lists
      rw [List.foldl_cons, ih, mem_addPredecessors, size_addPredecessors, List.mem_cons]
      constructor
      · rintro ((old | ⟨inside, rfl, edge⟩) | ⟨inside, later, edge⟩)
        · exact Or.inl old
        · exact Or.inr ⟨inside, Or.inl rfl, edge⟩
        · exact Or.inr ⟨inside, Or.inr later, edge⟩
      · rintro (old | ⟨inside, rfl | later, edge⟩)
        · exact Or.inl (Or.inl old)
        · exact Or.inl (Or.inr ⟨inside, rfl, edge⟩)
        · exact Or.inr ⟨inside, later, edge⟩
  have members := folded (List.range d.states.size) (Array.replicate d.states.size [])
  have nothing : s ∉ (Array.replicate d.states.size ([] : List Nat))[t]?.getD [] := by
    rw [Array.getElem?_replicate]
    split <;> simp
  rw [or_iff_right nothing, Array.size_replicate, List.mem_range] at members
  exact members

theorem mem_row {s t : Nat} : some t ∈ d.row s ↔ ∃ classId < d.numClasses,
    d.next s classId = some t := by
  simp only [row, List.mem_map, List.mem_range]

/-- One state is known to lead to another. -/
def Precedes (d : Dfa) (t s : Nat) : Prop :=
  t < d.states.size ∧ s < d.states.size ∧ some t ∈ d.row s

/-- The live states are those from which a state with a tag can be reached. -/
theorem mem_liveStates {s : Nat} : s ∈ d.liveStates ↔
    ∃ t, (t < d.states.size ∧ (d.accept t).isSome) ∧ Relation.ReflTransGen d.Precedes t s := by
  have leads : Search.Leads (fun t => d.predecessors[t]?.getD []) = d.Precedes := by
    funext t s
    exact propext mem_predecessors
  have small : ∀ t ∈ (List.range d.states.size).filter (fun s => (d.accept s).isSome),
    t < d.states.size :=
    fun t member => List.mem_range.mp (List.mem_filter.mp member).1
  have inside : ∀ t < d.states.size, ∀ s ∈ d.predecessors[t]?.getD [], s < d.states.size :=
    fun t _ s member => (mem_predecessors.mp member).2.1
  rw [liveStates, Search.mem_reachable small inside, leads]
  simp only [List.mem_filter, List.mem_range]

theorem lt_of_accept {s : Nat} {tag : Tag} (accepts : d.accept s = some tag) :
    s < d.states.size := by
  unfold accept at accepts
  cases found : d.states[s]? with
  | none => simp [found] at accepts
  | some state => exact (Array.getElem?_eq_some_iff.mp found).1

theorem lt_of_next {s t classId : Nat} (stepped : d.next s classId = some t) :
    s < d.states.size := by
  unfold next at stepped
  cases found : d.states[s]? with
  | none => simp [found] at stepped
  | some state => exact (Array.getElem?_eq_some_iff.mp found).1

theorem lt_of_live {s : Nat} (live : s ∈ d.liveStates) : s < d.states.size := by
  obtain ⟨t, ⟨small, _⟩, path⟩ := mem_liveStates.mp live
  cases path.cases_tail with
  | inl same => exact same ▸ small
  | inr last =>
    obtain ⟨_, _, edge⟩ := last
    exact edge.2.1

theorem live_of_accept {s : Nat} {tag : Tag} (accepts : d.accept s = some tag) : s ∈ d.liveStates :=
  mem_liveStates.mpr ⟨s, ⟨lt_of_accept accepts, by rw [accepts]; rfl⟩, .refl⟩

theorem live_of_next {s t classId : Nat} (small : classId < d.numClasses)
    (stepped : d.next s classId = some t)
    (live : t ∈ d.liveStates) : s ∈ d.liveStates := by
  obtain ⟨u, accepting, path⟩ := mem_liveStates.mp live
  exact mem_liveStates.mpr
    ⟨u, accepting, path.tail ⟨lt_of_live live, lt_of_next stepped,
      mem_row.mpr ⟨classId, small, stepped⟩⟩⟩

end Scangen.Dfa
