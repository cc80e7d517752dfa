import Scangen.Proofs.Automaton.Closed
import Scangen.Proofs.Finite.Flatten
import Scangen.Proofs.Finite.Numbering
import Scangen.Proofs.Scan.Simulation
import Scangen.Proofs.Table.ClassMap
import Scangen.Proofs.Table.Rows
import Scangen.Table.Basic

/-!
All encodings of the successors hold the same successors, and tables behave as the automaton that
they were made from. A dense array is looked up at a place that is computed in words, so this holds of
arrays that are no longer than there are words.
-/

namespace Scangen

namespace Transitions

section Place

variable {numStates numClasses s classId : Nat}

theorem place_eq_mod (numClasses s classId : Nat) :
    place numClasses s classId = (s * numClasses + classId) % UInt32.size := by
  simp only [place, UInt32.toNat_add, UInt32.toNat_mul, Nat.toUInt32_eq, UInt32.toNat_ofNat']
  rw [Nat.mod_add_mod, Nat.add_mod_mod, Nat.add_mod, ← Nat.mul_mod, ← Nat.add_mod]

theorem index_lt (inside : s < numStates) (small : classId < numClasses) :
    s * numClasses + classId < numStates * numClasses :=
  calc s * numClasses + classId
      < s * numClasses + numClasses := Nat.add_lt_add_left small _
    _ = (s + 1) * numClasses := (Nat.succ_mul s numClasses).symm
    _ ≤ numStates * numClasses := Nat.mul_le_mul_right numClasses inside

/-- Nothing is lost as long as all places are words. -/
theorem place_eq (room : numStates * numClasses ≤ UInt32.size) (inside : s < numStates)
    (small : classId < numClasses) : place numClasses s classId = s * numClasses + classId := by
  rw [place_eq_mod, Nat.mod_eq_of_lt (Nat.lt_of_lt_of_le (index_lt inside small) room)]

end Place

variable {rows : List (List (Option Nat))} {numStates numClasses s classId : Nat}

/-- Only a dense array can be too long. -/
theorem addressable_ofRows {compression : Compression} :
    (ofRows rows numClasses compression).Addressable numStates numClasses ↔
      (compression = .dense → numStates * numClasses ≤ UInt32.size) := by
  cases compression with
  | dense => exact ⟨fun room _ => room, fun room => room rfl⟩
  | rows | squeezed => exact ⟨fun _ other => (nomatch other), fun _ => True.intro⟩

/-- The successor that rows say a state has on a class. -/
def successor (rows : List (List (Option Nat))) (s classId : Nat) : Option Nat :=
  (rows[s]?.bind fun row => row[classId]?).join

/-- A dense array gives the successor that stands at a place, whichever state and class it is asked
for. -/
theorem next_dense_of_place (uniform : ∀ row ∈ rows, row.length = numClasses) {s' classId' : Nat}
    (small : classId' < numClasses)
    (same : place numClasses s classId = s' * numClasses + classId') :
    (ofRows rows numClasses .dense).next numClasses s classId = successor rows s' classId' := by
  rw [ofRows, next, same, List.getElem?_toArray, getElem?_flatten uniform small]
  rfl

theorem next_dense (uniform : ∀ row ∈ rows, row.length = numClasses)
    (room : rows.length * numClasses ≤ UInt32.size) (inside : s < rows.length)
    (small : classId < numClasses) :
    (ofRows rows numClasses .dense).next numClasses s classId = successor rows s classId :=
  next_dense_of_place uniform small (place_eq room inside small)

theorem next_rows (uniform : ∀ row ∈ rows, row.length = numClasses) (small : classId < numClasses) :
    (ofRows rows numClasses .rows).next numClasses s classId = successor rows s classId := by
  rw [ofRows, next, List.getElem?_toArray, List.getElem?_map, successor]
  cases found : rows[s]? with
  | none => rfl
  | some row =>
    have length := uniform row (List.mem_of_getElem? found)
    have inside : row[classId]? = some row[classId] := List.getElem?_eq_getElem (by omega)
    rw [Option.map_some, Option.bind_some, Option.bind_some, Row.lookup_ofList inside,
      inside, Option.join_some]

theorem length_columnsOf : (columnsOf rows numClasses).length = numClasses := by
  rw [columnsOf, List.length_map, List.length_range]

theorem getElem?_columnsOf (rows : List (List (Option Nat))) (small : classId < numClasses) :
    (columnsOf rows numClasses)[classId]? = some (rows.map fun row => row[classId]?.join) := by
  rw [columnsOf, List.getElem?_map, List.getElem?_range small, Option.map_some]

theorem next_squeezed (small : classId < numClasses) :
    (ofRows rows numClasses .squeezed).next numClasses s classId = successor rows s classId := by
  have column := getElem?_columnsOf rows small
  have shared := getElem?_distinct (List.mem_of_getElem? column)
  simp only [ofRows, next, List.getElem?_toArray, List.getElem?_map, ranks, column,
    Option.map_some, Option.bind_some]
  by_cases inside : s < rows.length
  · rw [List.getElem?_range inside, Option.map_some, Option.bind_some]
    apply Row.lookup_ofList
    rw [List.getElem?_map, shared, Option.map_some, List.getElem?_map, successor,
      List.getElem?_eq_getElem inside,
      Option.map_some, Option.join_some, Option.bind_some]
  · have nothing : (List.range rows.length)[s]? = none := by
      rw [List.getElem?_eq_none_iff, List.length_range]
      omega
    have nothing' : rows[s]? = none := List.getElem?_eq_none_iff.mpr (by omega)
    rw [nothing, successor, nothing']
    rfl

/-- The encoding makes no difference. -/
theorem next_ofRows (uniform : ∀ row ∈ rows, row.length = numClasses) {compression : Compression}
    (room : compression = .dense → rows.length * numClasses ≤ UInt32.size) (inside : s < rows.length)
    (small : classId < numClasses) :
    (ofRows rows numClasses compression).next numClasses s classId = successor rows s classId := by
  cases compression with
  | dense => exact next_dense uniform (room rfl) inside small
  | rows => exact next_rows uniform small
  | squeezed => exact next_squeezed small

end Transitions

namespace Dfa

variable {d : Dfa} {s classId : Nat}

theorem rows_uniform : ∀ row ∈ (List.range d.states.size).map d.row,
    row.length = d.numClasses := by
  intro row member
  obtain ⟨s, _, rfl⟩ := List.mem_map.mp member
  rw [row, List.length_map, List.length_range]

theorem successor_rows (inside : s < d.states.size) (small : classId < d.numClasses) :
    Transitions.successor ((List.range d.states.size).map d.row) s classId = d.next s classId := by
  rw [Transitions.successor, List.getElem?_map, List.getElem?_range inside, Option.map_some,
    Option.bind_some, row, List.getElem?_map, List.getElem?_range small, Option.map_some,
    Option.join_some]

end Dfa

namespace Tables

variable {p : Partition} {d : Dfa} {endActions : List (Option Nat)}
    {layout : Layout} {s classId : Nat}

/-- Only dense tables of very many states and classes cannot be looked up everywhere. -/
theorem addressable_ofDfa : (ofDfa p d endActions layout).Addressable ↔
    (layout.compression = .dense → d.states.size * d.numClasses ≤ UInt32.size) :=
  Transitions.addressable_ofRows

theorem next_ofDfa (room : (ofDfa p d endActions layout).Addressable) (inside : s < d.states.size)
    (small : classId < d.numClasses) :
    (ofDfa p d endActions layout).next s classId = d.next s classId := by
  have length : ((List.range d.states.size).map d.row).length = d.states.size := by
    rw [List.length_map, List.length_range]
  have room := addressable_ofDfa.mp room
  rw [← Dfa.successor_rows inside small]
  exact Transitions.next_ofRows Dfa.rows_uniform (by rwa [length]) (by rwa [length]) small

/-- What dense tables give is what stands at a place, whichever state and class they are asked for. -/
theorem next_dense_of_place {compressMap : Bool} {s' classId' : Nat} (inside : s' < d.states.size)
    (small : classId' < d.numClasses)
    (same : Transitions.place d.numClasses s classId = s' * d.numClasses + classId') :
    (ofDfa p d endActions ⟨.dense, compressMap⟩).next s classId = d.next s' classId' := by
  rw [← Dfa.successor_rows inside small]
  exact Transitions.next_dense_of_place Dfa.rows_uniform small same

/-- Dense tables have a place for each state and class. -/
theorem exists_dense_ofDfa (p : Partition) (d : Dfa) (endActions : List (Option Nat))
    (compressMap : Bool) : ∃ successors,
    (ofDfa p d endActions ⟨.dense, compressMap⟩).transitions = .dense successors ∧
      successors.size = d.states.size * d.numClasses := by
  refine ⟨_, rfl, ?_⟩
  rw [List.size_toArray, length_flatten Dfa.rows_uniform, List.length_map, List.length_range]

theorem tagOf_ofDfa : (ofDfa p d endActions layout).tagOf s = d.accept s := by
  show (d.states.map Dfa.State.accept)[s]?.join = _
  rw [Array.getElem?_map, Dfa.accept]
  cases d.states[s]? <;> rfl

/-- Tables follow the automaton state by state. -/
theorem ofDfa_follows (room : (ofDfa p d endActions layout).Addressable) (rooted : d.Rooted)
    (closed : d.Closed) :
    Recognizer.Follows (d.recognizer p) (ofDfa p d endActions layout).recognizer d.numClasses
      (fun s t => t = s ∧ s < d.states.size) (fun _ => False) := by
  have start : ∀ condition, (ofDfa p d endActions layout).recognizer.start condition =
    (d.recognizer p).start condition :=
    fun condition => List.getElem?_toArray
  constructor
  · exact fun nothing => (start _).trans nothing
  · exact fun {condition s} found =>
      ⟨s, (start condition).trans found, rfl, rooted s (List.mem_of_getElem? found)⟩
  · rintro s t ⟨rfl, _⟩
    exact tagOf_ofDfa
  · rintro s t classId ⟨rfl, inside⟩ small nothing
    exact (next_ofDfa room inside small).trans nothing
  · rintro s t classId later ⟨rfl, inside⟩ small stepped
    exact Or.inl ⟨later, (next_ofDfa room inside small).trans stepped, rfl, closed small stepped⟩
  · exact fun isLost => isLost.elim
  · exact fun isLost => isLost.elim

end Tables

end Scangen
