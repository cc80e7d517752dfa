import Scangen.Proofs.Table.Transitions

/-!
What compression keeps and what it saves. The successors are all found again, a row stores as few
exceptions as any row could, and classes share a column exactly if no state tells them apart.
-/

namespace Scangen

namespace Row

variable {row : List (Option Nat)} {usual : Option Nat} {classId : Nat}

/-- A row whose exceptions are in order and as few as in any row with the same successors. -/
structure Tight (row : Row) (numClasses : Nat) : Prop where
  ascending : Ascending row.exceptions
  least : ∀ other : Row, (∀ classId < numClasses, other.lookup classId = row.lookup classId) →
    row.exceptions.size ≤ other.exceptions.size

theorem count_le_heavier (row : List (Option Nat)) (a b : Option Nat) :
    row.count a ≤ row.count (if Outweighs row b a then b else a) ∧
      row.count b ≤ row.count (if Outweighs row b a then b else a) := by
  by_cases heavier : Outweighs row b a
  · rw [if_pos heavier]
    rcases heavier with more | ⟨equal, _⟩
    · exact ⟨Nat.le_of_lt more, Nat.le_refl _⟩
    · exact ⟨Nat.le_of_eq equal, Nat.le_refl _⟩
  · rw [if_neg heavier]
    exact ⟨Nat.le_refl _, Nat.le_of_not_lt fun more => heavier (Or.inl more)⟩

theorem count_le_foldl (row : List (Option Nat)) (first : Option Nat) (others : List (Option Nat)) :
    ∀ next ∈ first :: others, row.count next ≤ row.count
      (others.foldl (fun best next => if Outweighs row next best then next else best) first) := by
  induction others generalizing first with
  | nil =>
    intro next member
    rw [List.mem_singleton.mp member]
    exact Nat.le_refl _
  | cons second others ih =>
    intro next member
    rw [List.foldl_cons]
    have best := ih (if Outweighs row second first then second else first)
    have kept := best _ List.mem_cons_self
    obtain ⟨first_le, second_le⟩ := count_le_heavier row first second
    rcases List.mem_cons.mp member with rfl | member
    · exact Nat.le_trans first_le kept
    · rcases List.mem_cons.mp member with rfl | member
      · exact Nat.le_trans second_le kept
      · exact best next (List.mem_cons_of_mem _ member)

theorem count_le_mostFrequent (row : List (Option Nat)) (next : Option Nat) :
    row.count next ≤ row.count (mostFrequent row) := by
  by_cases member : next ∈ row
  · rw [← mem_distinct] at member
    unfold mostFrequent
    cases different : distinct row with
    | nil =>
      rw [different] at member
      exact absurd member List.not_mem_nil
    | cons first others =>
      rw [different] at member
      exact count_le_foldl row first others next member
  · rw [List.count_eq_zero_of_not_mem member]
    exact Nat.zero_le _

/-- The classes on which a row has another successor than the given one. -/
def departures (row : List (Option Nat)) (usual : Option Nat) : List Nat :=
  (row.zipIdx.filter fun (next, _) => next ≠ usual).map Prod.snd

theorem mem_departures :
    classId ∈ departures row usual ↔ ∃ next, row[classId]? = some next ∧ next ≠ usual := by
  simp only [departures, List.mem_map, List.mem_filter, Prod.exists, List.mem_zipIdx_iff_getElem?,
    decide_eq_true_eq, exists_eq_right]

theorem departures_nodup : (departures row usual).Nodup := by
  have numbers : (row.zipIdx.map Prod.snd).Nodup := by
    rw [List.zipIdx_map_snd]
    exact List.nodup_range'
  exact numbers.sublist (List.filter_sublist.map Prod.snd)

theorem length_departures : (departures row usual).length + row.count usual = row.length := by
  have others : (departures row usual).length = row.countP fun next => next ≠ usual := by
    rw [departures, List.length_map, ← List.countP_eq_length_filter]
    conv => rhs; rw [← List.zipIdx_map_fst 0 row, List.countP_map]
    rfl
  have split := List.length_eq_countP_add_countP (fun next => next == usual) (l := row)
  rw [others, split, List.count, Nat.add_comm]
  congr 1
  apply List.countP_congr
  intro next _
  simp

theorem size_exceptions (row : List (Option Nat)) :
    (ofList row).exceptions.size = (departures row (mostFrequent row)).length := by
  simp [ofList, departures]

/-- A row lists every class on which it departs from its usual successor. -/
theorem departures_le_size {stored : Row}
    (found : ∀ classId < row.length, row[classId]? = some (stored.lookup classId)) :
    (departures row stored.usual).length ≤ stored.exceptions.size := by
  have listed : departures row stored.usual ⊆ stored.exceptions.toList.map Prod.fst := by
    intro classId departs
    obtain ⟨next, there, unusual⟩ := mem_departures.mp departs
    by_contra unlisted
    have usual : stored.lookup classId = stored.usual := by
      apply lookup_of_not_listed
      intro next member
      exact unlisted (List.mem_map_of_mem (f := Prod.fst) member.val)
    have inside := (List.getElem?_eq_some_iff.mp there).1
    rw [found classId inside, usual, Option.some_inj] at there
    exact unusual there.symm
  have bound := (departures_nodup.subperm listed).length_le
  rw [List.length_map, Array.length_toList] at bound
  exact bound

theorem tight_ofList (row : List (Option Nat)) : Tight (ofList row) row.length := by
  refine ⟨exceptions_ascending row, ?_⟩
  intro other same
  have found : ∀ classId < row.length, row[classId]? = some (other.lookup classId) := by
    intro classId inside
    have there : row[classId]? = some row[classId] := List.getElem?_eq_getElem inside
    rw [same classId inside, lookup_ofList there, there]
  have listed := departures_le_size found
  have frequent := count_le_mostFrequent row other.usual
  have own : _ + row.count (mostFrequent row) = row.length := length_departures
  have others : _ + row.count other.usual = row.length := length_departures
  rw [size_exceptions]
  omega

end Row

namespace Transitions

variable {dense : Array (Option Nat)} {numStates numClasses s classId : Nat}

/-- The rows of an array that has the successors of one state after those of another. -/
def rowsOf (dense : Array (Option Nat)) (numStates numClasses : Nat) : List (List (Option Nat)) :=
  (List.range numStates).map fun s =>
    (dense.extract (s * numClasses) (s * numClasses + numClasses)).toList

theorem row_end_le (full : dense.size = numStates * numClasses) (inside : s < numStates) :
    s * numClasses + numClasses ≤ dense.size := by
  rw [full, ← Nat.succ_mul]
  exact Nat.mul_le_mul_right numClasses inside

theorem length_rowsOf : (rowsOf dense numStates numClasses).length = numStates := by
  rw [rowsOf, List.length_map, List.length_range]

theorem rowsOf_uniform (full : dense.size = numStates * numClasses) :
    ∀ row ∈ rowsOf dense numStates numClasses, row.length = numClasses := by
  intro row member
  obtain ⟨s, inside, rfl⟩ := List.mem_map.mp member
  have bound := row_end_le full (List.mem_range.mp inside)
  rw [Array.length_toList, Array.size_extract]
  omega

theorem getElem?_row (full : dense.size = numStates * numClasses) (inside : s < numStates)
    (small : classId < numClasses) :
    (dense.extract (s * numClasses) (s * numClasses + numClasses)).toList[classId]? =
      dense[s * numClasses + classId]? := by
  have bound := row_end_le full inside
  rw [Array.getElem?_toList, Array.getElem?_extract_of_lt (by omega),
    Array.getElem?_eq_getElem (by omega)]

theorem successor_rowsOf (full : dense.size = numStates * numClasses) (inside : s < numStates)
    (small : classId < numClasses) :
    successor (rowsOf dense numStates numClasses) s classId =
      dense[s * numClasses + classId]?.join := by
  rw [successor, rowsOf, List.getElem?_map, List.getElem?_range inside, Option.map_some,
    Option.bind_some, getElem?_row full inside small]

/-- The rows hold the whole array. -/
theorem ofRows_rowsOf_dense (full : dense.size = numStates * numClasses) :
    ofRows (rowsOf dense numStates numClasses) numClasses .dense = .dense dense := by
  have uniform := rowsOf_uniform full
  rw [ofRows, Transitions.dense.injEq]
  apply Array.ext_getElem?
  intro i
  rw [List.getElem?_toArray]
  by_cases inside : i < numStates * numClasses
  · have small : i % numClasses < numClasses := by
      apply Nat.mod_lt
      exact Nat.pos_of_mul_pos_left (Nat.zero_lt_of_lt inside)
    have state : i / numClasses < numStates := Nat.div_lt_of_lt_mul (by rwa [Nat.mul_comm])
    have position : i / numClasses * numClasses + i % numClasses = i := Nat.div_add_mod' i numClasses
    have entry := getElem?_flatten uniform (i := i / numClasses) small
    rw [position, rowsOf, List.getElem?_map, List.getElem?_range state, Option.map_some,
      Option.bind_some, getElem?_row full state small, position] at entry
    exact entry
  · rw [Array.getElem?_eq_none (by omega), List.getElem?_eq_none]
    rw [length_flatten uniform, length_rowsOf]
    omega

/-- Numbers for the columns of classes: the same for the same columns only, and in order of first
appearance. -/
structure Numbers (columns : Array Nat) (numColumns : Nat) (dense : Array (Option Nat))
    (numStates numClasses : Nat) : Prop where
  size : columns.size = numClasses
  used : ∀ column, column ∈ columns ↔ column < numColumns
  shared : ∀ a < numClasses, ∀ b < numClasses, columns[a]? = columns[b]? ↔
    ∀ s < numStates, dense[s * numClasses + a]? = dense[s * numClasses + b]?
  inOrder : InOrder fun classId => columns[classId]?

/-- The columns of two classes are equal if no state tells the classes apart. -/
theorem columnsOf_eq_iff (full : dense.size = numStates * numClasses) {a b : Nat}
    (left : a < numClasses) (right : b < numClasses) :
    (columnsOf (rowsOf dense numStates numClasses) numClasses)[a]? =
        (columnsOf (rowsOf dense numStates numClasses) numClasses)[b]? ↔
      ∀ s < numStates, dense[s * numClasses + a]? = dense[s * numClasses + b]? := by
  rw [getElem?_columnsOf _ left, getElem?_columnsOf _ right, Option.some_inj, List.map_inj_left, rowsOf,
    List.forall_mem_map]
  simp only [List.mem_range]
  apply forall₂_congr
  intro s inside
  have bound := row_end_le full inside
  rw [getElem?_row full inside left, getElem?_row full inside right,
    Array.getElem?_eq_getElem (by omega), Array.getElem?_eq_getElem (by omega), Option.join_some,
    Option.join_some, Option.some_inj]

theorem numbers_ranks (full : dense.size = numStates * numClasses) :
    let columns := columnsOf (rowsOf dense numStates numClasses) numClasses
    Numbers (ranks columns).toArray (distinct columns).length dense numStates numClasses := by
  refine ⟨?_, ?_, ?_, ?_⟩
  · rw [List.size_toArray, length_ranks, length_columnsOf]
  · intro column
    rw [List.mem_toArray]
    exact ⟨lt_of_mem_ranks, mem_ranks⟩
  · intro a left b right
    rw [List.getElem?_toArray, List.getElem?_toArray, ranks_eq_iff, columnsOf_eq_iff full left right]
  · simpa only [List.getElem?_toArray] using ranks_inOrder _

/-- Compression loses no successor and stores as few as the encoding allows. Only of an array that is not
compressed, the places have to be words. -/
theorem compression_exact (full : dense.size = numStates * numClasses) :
    ofRows (rowsOf dense numStates numClasses) numClasses .dense = .dense dense ∧
    (∀ compression, (compression = .dense → numStates * numClasses ≤ UInt32.size) →
      ∀ s < numStates, ∀ classId < numClasses,
      (ofRows (rowsOf dense numStates numClasses) numClasses compression).next numClasses s classId =
        dense[s * numClasses + classId]?.join) ∧
    (∃ stored, ofRows (rowsOf dense numStates numClasses) numClasses .rows = .rows stored ∧
      stored.size = numStates ∧ ∀ row ∈ stored, row.Tight numClasses) ∧
    ∃ columns numColumns stored,
      ofRows (rowsOf dense numStates numClasses) numClasses .squeezed = .squeezed columns stored ∧
      Numbers columns numColumns dense numStates numClasses ∧
      stored.size = numStates ∧ ∀ row ∈ stored, row.Tight numColumns := by
  have uniform := rowsOf_uniform full
  refine ⟨ofRows_rowsOf_dense full, ?_, ⟨_, rfl, ?_, ?_⟩, _, _, _, rfl, numbers_ranks full, ?_, ?_⟩
  · intro compression room s inside classId small
    rw [next_ofRows uniform (by rwa [length_rowsOf]) (by rwa [length_rowsOf]) small,
      successor_rowsOf full inside small]
  · simp [rowsOf]
  · intro row member
    obtain ⟨successors, listed, rfl⟩ := List.mem_map.mp (List.mem_toArray.mp member)
    have tight := Row.tight_ofList successors
    rwa [uniform successors listed] at tight
  · simp [rowsOf]
  · intro row member
    obtain ⟨s, inside, rfl⟩ := List.mem_map.mp (List.mem_toArray.mp member)
    have tight := Row.tight_ofList ((distinct (columnsOf (rowsOf dense numStates numClasses)
      numClasses)).map fun column => column[s]?.join)
    rwa [List.length_map] at tight

/-- Two states over four classes. The last two classes have the columns of the first two, and each
row has two successors that are equally frequent. -/
def alternating : Array (Option Nat) :=
  #[some 1, none, some 1, none, some 1, some 0, some 1, some 0]

theorem alternating_compressed :
    alternating.size = 2 * 4 ∧
      ofRows (rowsOf alternating 2 4) 4 .squeezed =
        .squeezed #[0, 1, 0, 1] #[⟨none, #[(0, some 1)]⟩, ⟨some 0, #[(0, some 1)]⟩] ∧
      ∃ columns numColumns stored,
        ofRows (rowsOf alternating 2 4) 4 .squeezed = .squeezed columns stored ∧
        Numbers columns numColumns alternating 2 4 ∧
        stored.size = 2 ∧ ∀ row ∈ stored, row.Tight numColumns :=
  ⟨rfl, by decide, (compression_exact rfl).2.2.2⟩

end Transitions

end Scangen
