import Scangen.Proofs.Table.Valid
import Scangen.Proofs.Table.Words

/-!
What fits in words. The numbers in the tables of an automaton do if there are not too many states,
classes and rules, and so do the lengths, but for one: the dense encoding has an entry for each state
and class.
-/

namespace Scangen

variable {numStates numClasses : Nat}

theorem Below.fit {value : Option Nat} {bound : Nat} (below : Below bound value)
    (fits : bound < 0x100000000) : FitWords value.toList :=
  fun n member => Nat.lt_trans (below n (Option.mem_toList.mp member)) fits

namespace Row

theorem Valid.fit {row : Row} {width : Nat} (valid : row.Valid numStates width)
    (states : numStates < 0x100000000) (columns : width < 0x100000000) : FitWords row.numbers := by
  refine fitWords_append.mpr ⟨valid.usual.fit states, fitWords_flatMap.mpr fun entry member => ?_⟩
  obtain ⟨small, below⟩ := valid.exceptions entry (Array.mem_def.mpr member)
  exact fitWords_cons.mpr ⟨Nat.lt_trans small columns, below.fit states⟩

theorem wordCount_ofList (successors : List (Option Nat)) :
    (ofList successors).wordCount ≤ 2 * successors.length := by
  rw [wordCount, ofList, List.size_toArray, List.length_map]
  refine Nat.mul_le_mul_left 2 (Nat.le_trans (List.length_filter_le _ _) ?_)
  rw [List.length_zipIdx]

end Row

theorem Tables.columnCount_fits (columns : Array Nat) : columnCount columns < 0x100000000 := by
  unfold columnCount
  split
  · decide
  · exact Nat.mod_lt _ (by decide)

namespace Transitions

variable {rows : List (List (Option Nat))}

theorem numbers_ofRows (states : rows.length < 0x100000000) (few : numClasses < 0x100000000)
    (uniform : ∀ row ∈ rows, row.length = numClasses)
    (small : ∀ row ∈ rows, ∀ next ∈ row, Below rows.length next) (compression : Compression) :
    FitWords (ofRows rows numClasses compression).numbers := by
  have valid := valid_ofRows few uniform small compression
  cases compression with
  | dense =>
    exact fitWords_flatMap.mpr fun next member =>
      (valid.2 next (Array.mem_def.mpr member)).fit states
  | rows =>
    exact fitWords_flatMap.mpr fun row member =>
      (valid.2 row (Array.mem_def.mpr member)).fit states few
  | squeezed =>
    refine fitWords_append.mpr ⟨fun column member => ?_, fitWords_flatMap.mpr fun row member => ?_⟩
    · have bound := lt_of_mem_ranks member
      have count := length_distinct_le (columnsOf rows numClasses)
      rw [length_columnsOf] at count
      omega
    · exact (valid.2.2 row (Array.mem_def.mpr member)).fit states (Tables.columnCount_fits _)

/-- The lengths fit in words just if all entries of the dense encoding can be counted. -/
theorem lengths_ofRows (states : rows.length < 0x100000000) (few : 2 * numClasses < 0x100000000)
    (uniform : ∀ row ∈ rows, row.length = numClasses) (compression : Compression) :
    FitWords (ofRows rows numClasses compression).lengths ↔
      (compression = .dense → rows.length * numClasses < 0x100000000) := by
  cases compression with
  | dense =>
    rw [ofRows, lengths, List.size_toArray, length_flatten uniform, fitWords_cons]
    simp [fitWords_nil]
  | rows =>
    refine iff_of_true (fitWords_cons.mpr ⟨?_, fun count member => ?_⟩)
      fun dense => absurd dense (by decide)
    · rwa [List.size_toArray, List.length_map]
    · obtain ⟨row, listed, rfl⟩ := List.mem_map.mp member
      obtain ⟨successors, known, rfl⟩ := List.mem_map.mp listed
      have bound := Row.wordCount_ofList successors
      rw [uniform successors known] at bound
      omega
  | squeezed =>
    refine iff_of_true (fitWords_cons.mpr ⟨?_, fitWords_cons.mpr ⟨?_, fun count member => ?_⟩⟩)
      fun dense => absurd dense (by decide)
    · rw [List.size_toArray, length_ranks, length_columnsOf]
      omega
    · rwa [List.size_toArray, List.length_map, List.length_range]
    · obtain ⟨row, listed, rfl⟩ := List.mem_map.mp member
      obtain ⟨s, _, rfl⟩ := List.mem_map.mp listed
      have bound := Row.wordCount_ofList
        ((distinct (columnsOf rows numClasses)).map fun column => column[s]?.join)
      have columns := length_distinct_le (columnsOf rows numClasses)
      rw [List.length_map] at bound
      rw [length_columnsOf] at columns
      omega

end Transitions

namespace ClassMap

variable {p : Partition}

theorem cardinality_le (alphabet : Alphabet) : alphabet.cardinality ≤ 0x110000 := by
  cases alphabet <;> decide

theorem length_blocks_le (classes : Array Nat) :
    (blocks classes).length * pageSize ≤ classes.size := by
  rw [blocks, List.length_map, List.length_range]
  exact Nat.div_mul_le_self _ _

theorem fit_ofPartition (tiles : Partition.Tiles p.alphabet.cardinality 0
    (p.intervals.map Prod.fst))
    (small : ∀ {c classId}, p.classOf c = some classId → classId < numClasses)
    (few : numClasses < 0x100000000) (compress : Bool) :
    FitWords (ofPartition p compress).numbers ∧ FitWords (ofPartition p compress).lengths := by
  have valid := valid_ofPartition tiles small compress
  have size : (classesOf p).size ≤ 0x110000 := by
    rw [size_classesOf tiles]
    exact cardinality_le _
  cases compress with
  | false =>
    refine ⟨fun classId member => ?_, fitWords_cons.mpr ⟨by omega, fitWords_nil⟩⟩
    exact Nat.lt_trans (valid classId (Array.mem_def.mpr member)) few
  | true =>
    have uniform : ∀ l ∈ distinct (blocks (classesOf p)), l.length = pageSize :=
      fun l member => length_of_mem_blocks l (mem_distinct.mp member)
    have count := length_blocks_le (classesOf p)
    have pages := length_distinct_le (blocks (classesOf p))
    have width : pageSize = 256 := rfl
    rw [width] at count uniform
    refine ⟨fitWords_append.mpr ⟨fun page member => ?_, fun classId member => ?_⟩,
      fitWords_cons.mpr ⟨?_, fitWords_cons.mpr ⟨?_, fitWords_nil⟩⟩⟩
    · have bound := lt_of_mem_ranks member
      omega
    · exact Nat.lt_trans (valid.2.2 classId (Array.mem_def.mpr member)) few
    · rw [List.size_toArray, length_ranks]
      omega
    · rw [List.size_toArray, length_flatten uniform]
      omega

/-- Every class has a symbol, so there are no more classes than symbols. -/
theorem numSymbolClasses_le (spec : Spec) (config : Config) :
    (Partition.ofSpec spec config).numSymbolClasses ≤ 0x110000 := by
  have tiles := Partition.ofSpec_tiles spec config
  have used : List.range (Partition.ofSpec spec config).numSymbolClasses ⊆
      (classesOf (Partition.ofSpec spec config)).toList := by
    intro classId member
    obtain ⟨x, found⟩ := Partition.exists_symbol spec config (List.mem_range.mp member)
    rw [← getElem?_classesOf tiles] at found
    exact Array.mem_def.mp (Array.mem_of_getElem? found)
  have bound := (List.nodup_range.subperm used).length_le
  rw [List.length_range, Array.length_toList, size_classesOf tiles] at bound
  exact Nat.le_trans bound (cardinality_le _)

end ClassMap

end Scangen
