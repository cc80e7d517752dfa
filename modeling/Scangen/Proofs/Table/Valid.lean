import Scangen.Proofs.Automaton.Least
import Scangen.Proofs.Table.Checks
import Scangen.Proofs.Table.Transitions

/-!
The tables of an automaton pass the check, in every layout: what they store are classes of the
partition, states of the automaton, and numbers that were handed out to pages and columns.
-/

namespace Scangen

variable {numStates numClasses : Nat}

namespace Row

theorem foldl_mem {α : Type} {choose : α → α → α} (either : ∀ a b, choose a b = a ∨ choose a b = b)
    (others : List α) (first : α) : others.foldl choose first ∈ first :: others := by
  induction others generalizing first with
  | nil => exact List.mem_cons_self
  | cons second rest ih =>
    rw [List.foldl_cons]
    rcases List.mem_cons.mp (ih (choose first second)) with here | later
    · rw [here]
      rcases either first second with left | right
      · rw [left]
        exact List.mem_cons_self
      · rw [right]
        exact List.mem_cons_of_mem _ List.mem_cons_self
    · exact List.mem_cons_of_mem _ (List.mem_cons_of_mem _ later)

/-- The most frequent successor occurs in the row. -/
theorem mostFrequent_mem {successors : List (Option Nat)} {s : Nat}
    (found : mostFrequent successors = some s) : some s ∈ successors := by
  unfold mostFrequent at found
  split at found
  next => cases found
  next first others keys =>
    rw [← found, ← mem_distinct, keys]
    refine foldl_mem (fun best next => ?_) others first
    split
    · exact Or.inr rfl
    · exact Or.inl rfl

theorem valid_ofList {successors : List (Option Nat)}
    (small : ∀ next ∈ successors, Below numStates next) :
    (ofList successors).Valid numStates successors.length := by
  constructor
  · intro s found
    exact small (some s) (mostFrequent_mem found) s rfl
  · intro entry member
    have listed := (mem_exceptions.mp member).1
    exact ⟨(List.getElem?_eq_some_iff.mp listed).1, small entry.2 (List.mem_of_getElem? listed)⟩

end Row

namespace Tables

variable {κ : Type} [DecidableEq κ]

/-- Every number that was handed out is counted. -/
theorem lt_columnCount {keys : List κ} {i : Nat} (few : keys.length < 0x100000000)
    (small : i < (distinct keys).length) : i < columnCount (ranks keys).toArray := by
  have member := mem_ranks small
  unfold columnCount
  rw [List.toList_toArray]
  split
  next nothing =>
    rw [List.max?_eq_none_iff.mp nothing] at member
    cases member
  next greatest found =>
    obtain ⟨listed, above⟩ := List.max?_eq_some_iff.mp found
    have bound := lt_of_mem_ranks listed
    have count := length_distinct_le keys
    have below := above i member
    rw [Nat.mod_eq_of_lt (by omega)]
    omega

end Tables

namespace Transitions

variable {rows : List (List (Option Nat))}

/-- The successors of a state on the shared columns are successors in the rows. -/
theorem shared_below (small : ∀ row ∈ rows, ∀ next ∈ row, Below numStates next)
    (numClasses s : Nat) :
    ∀ next ∈ (distinct (columnsOf rows numClasses)).map fun column => column[s]?.join,
      Below numStates next := by
  intro next listed t found
  obtain ⟨column, known, rfl⟩ := List.mem_map.mp listed
  obtain ⟨classId, _, rfl⟩ := List.mem_map.mp (mem_distinct.mp known)
  have entry := Option.join_eq_some_iff.mp found
  rw [List.getElem?_map] at entry
  obtain ⟨row, member, stepped⟩ := Option.map_eq_some_iff.mp entry
  have inside := List.mem_of_getElem? (Option.join_eq_some_iff.mp stepped)
  exact small row (List.mem_of_getElem? member) (some t) inside t rfl

/-- All encodings of the rows of all states are valid. -/
theorem valid_ofRows (few : numClasses < 0x100000000)
    (uniform : ∀ row ∈ rows, row.length = numClasses)
    (small : ∀ row ∈ rows, ∀ next ∈ row, Below rows.length next) (compression : Compression) :
    (ofRows rows numClasses compression).Valid rows.length numClasses := by
  cases compression with
  | dense =>
    refine ⟨?_, fun next member => ?_⟩
    · rw [List.size_toArray, length_flatten uniform]
    · obtain ⟨row, listed, inside⟩ := List.mem_flatten.mp (List.mem_toArray.mp member)
      exact small row listed next inside
  | rows =>
    refine ⟨?_, fun row member => ?_⟩
    · rw [List.size_toArray, List.length_map]
    · obtain ⟨successors, listed, rfl⟩ := List.mem_map.mp (List.mem_toArray.mp member)
      have valid := Row.valid_ofList (small successors listed)
      rwa [uniform successors listed] at valid
  | squeezed =>
    refine ⟨?_, ?_, fun row member => ?_⟩
    · rw [List.size_toArray, length_ranks, length_columnsOf]
    · rw [List.size_toArray, List.length_map, List.length_range]
    · obtain ⟨s, _, rfl⟩ := List.mem_map.mp (List.mem_toArray.mp member)
      have valid := Row.valid_ofList (shared_below small numClasses s)
      refine ⟨valid.usual, fun entry listed => ?_⟩
      obtain ⟨column, next⟩ := valid.exceptions entry listed
      rw [List.length_map] at column
      exact ⟨Tables.lt_columnCount (by rwa [length_columnsOf]) column, next⟩

end Transitions

namespace ClassMap

variable {p : Partition}

theorem classesOf_small (tiles : Partition.Tiles p.alphabet.cardinality 0
    (p.intervals.map Prod.fst))
    (small : ∀ {c classId}, p.classOf c = some classId → classId < numClasses) :
    ∀ classId ∈ classesOf p, classId < numClasses := by
  intro classId member
  obtain ⟨c, found⟩ := Array.mem_iff_getElem?.mp member
  rw [getElem?_classesOf tiles] at found
  exact small found

/-- Both layouts of a class map are valid. -/
theorem valid_ofPartition (tiles : Partition.Tiles p.alphabet.cardinality 0
    (p.intervals.map Prod.fst))
    (small : ∀ {c classId}, p.classOf c = some classId → classId < numClasses) (compress : Bool) :
    (ofPartition p compress).Valid numClasses := by
  have classes_small := classesOf_small tiles small
  cases compress with
  | false => exact classes_small
  | true =>
    have uniform : ∀ l ∈ distinct (blocks (classesOf p)), l.length = pageSize :=
      fun l member => length_of_mem_blocks l (mem_distinct.mp member)
    have size : (distinct (blocks (classesOf p))).flatten.toArray.size =
        (distinct (blocks (classesOf p))).length * pageSize := by
      rw [List.size_toArray, length_flatten uniform]
    refine ⟨?_, fun page member => ?_, fun classId member => ?_⟩
    · rw [size, Nat.mul_mod_left]
    · rw [size]
      exact Nat.mul_le_mul_right _ (lt_of_mem_ranks (List.mem_toArray.mp member))
    · obtain ⟨block, known, inside⟩ := List.mem_flatten.mp (List.mem_toArray.mp member)
      obtain ⟨i, _, rfl⟩ := List.mem_map.mp (mem_distinct.mp known)
      refine classes_small classId ?_
      rw [Array.toList_extract] at inside
      exact Array.mem_def.mpr (List.mem_of_mem_drop (List.mem_of_mem_take inside))

end ClassMap

section Dfa

variable {d : Dfa}

theorem Dfa.rows_below (closed : d.Closed) : ∀ row ∈ (List.range d.states.size).map d.row,
    ∀ next ∈ row, Below ((List.range d.states.size).map d.row).length next := by
  intro row member next inside t stepped
  obtain ⟨s, _, rfl⟩ := List.mem_map.mp member
  obtain ⟨classId, inRange, rfl⟩ := List.mem_map.mp inside
  rw [List.length_map, List.length_range]
  exact closed (List.mem_range.mp inRange) stepped

variable {p : Partition} {nfa : Nfa} {endActions : List (Option Nat)}

theorem Tables.valid_ofDfa (tiles : Partition.Tiles p.alphabet.cardinality 0
    (p.intervals.map Prod.fst)) (bounded : (nfa.recognizer p).Bounded d.numClasses)
    (rooted : d.Rooted) (closed : d.Closed) (few : d.numClasses < 0x100000000)
    (count : endActions.length = d.starts.length) (layout : Layout) :
    (ofDfa p d endActions layout).Valid := by
  have transitions := Transitions.valid_ofRows few Dfa.rows_uniform (Dfa.rows_below closed)
    layout.compression
  rw [List.length_map, List.length_range] at transitions
  refine ⟨?_, ?_, ?_, ?_, ?_, ?_, transitions⟩
  · exact Array.size_map
  · exact fun s start => rooted s (List.mem_toArray.mp start)
  · show d.starts.toArray.size = endActions.toArray.size
    rw [List.size_toArray, List.size_toArray, count]
  · exact fun classId used => bounded.lineStart used
  · exact fun classId used => bounded.lineEnd used
  · exact ClassMap.valid_ofPartition tiles bounded.symbols layout.compressMap

end Dfa

end Scangen
