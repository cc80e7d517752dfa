import Scangen.Proofs.Finite.Flatten
import Scangen.Proofs.Partition.Classes
import Scangen.Table.ClassMap

/-!
The stored class map gives each symbol the class that it has in the partition, in one piece and in
pages.
-/

namespace Scangen

namespace ClassMap

/-- Spelled out symbol by symbol, intervals in a row give each symbol the class of the interval that
holds it. -/
theorem getElem?_spelled {stop next : Nat} {intervals : List (SymbolRange × Nat)}
    (tiles : Partition.Tiles stop next (intervals.map Prod.fst)) (i : Nat) :
    (intervals.flatMap fun (r, classId) => List.replicate (r.high - r.low + 1) classId)[i]? =
      (intervals.find? fun (r, _) => r.contains (next + i)).map Prod.snd := by
  induction intervals generalizing next i with
  | nil => rfl
  | cons interval rest ih =>
    obtain ⟨r, classId⟩ := interval
    obtain ⟨low, rest_tiles⟩ := tiles
    have low : r.low = next := low
    have ends := r.low_le_high
    rw [List.flatMap_cons]
    dsimp only
    by_cases inside : i < r.high - r.low + 1
    · have holds : r.contains (next + i) = true := by
        rw [SymbolRange.contains_iff, SymbolRange.mem_def]
        omega
      rw [List.getElem?_append_left (by simpa using inside), List.getElem?_replicate, if_pos inside,
        List.find?_cons, holds]
      rfl
    · have misses : r.contains (next + i) = false := by
        rw [Bool.eq_false_iff, Ne, SymbolRange.contains_iff, SymbolRange.mem_def]
        omega
      have behind : next + i = r.high + 1 + (i - (r.high - r.low + 1)) := by omega
      rw [List.getElem?_append_right (by simpa using inside), List.length_replicate,
        ih rest_tiles, List.find?_cons,
        misses, behind]

theorem length_spelled {stop next : Nat} {intervals : List (SymbolRange × Nat)}
    (tiles : Partition.Tiles stop next (intervals.map Prod.fst)) :
    next + (intervals.flatMap fun (r, classId) =>
      List.replicate (r.high - r.low + 1) classId).length = stop := by
  induction intervals generalizing next with
  | nil => exact tiles
  | cons interval rest ih =>
    obtain ⟨r, classId⟩ := interval
    obtain ⟨low, rest_tiles⟩ := tiles
    have low : r.low = next := low
    have ends := r.low_le_high
    have later : r.high + 1 + _ = stop := ih rest_tiles
    rw [List.flatMap_cons]
    show next + (List.replicate (r.high - r.low + 1) classId ++ _).length = stop
    rw [List.length_append, List.length_replicate]
    omega

variable {p : Partition} {classes : Array Nat}

theorem getElem?_classesOf (tiles : Partition.Tiles p.alphabet.cardinality 0
    (p.intervals.map Prod.fst)) (c : Nat) :
    (classesOf p)[c]? = p.classOf c := by
  rw [classesOf, List.getElem?_toArray, getElem?_spelled tiles, Nat.zero_add]
  rfl

theorem size_classesOf (tiles : Partition.Tiles p.alphabet.cardinality 0
    (p.intervals.map Prod.fst)) :
    (classesOf p).size = p.alphabet.cardinality := by
  have length := length_spelled tiles
  rw [Nat.zero_add] at length
  rw [classesOf, List.size_toArray, length]

theorem length_of_mem_blocks : ∀ block ∈ blocks classes, block.length = pageSize := by
  intro block member
  obtain ⟨i, inside, rfl⟩ := List.mem_map.mp member
  have few := List.mem_range.mp inside
  have room : (i + 1) * pageSize ≤ classes.size :=
    Nat.le_trans (Nat.mul_le_mul_right _ few) (Nat.div_mul_le_self _ _)
  rw [Nat.succ_mul] at room
  rw [Array.length_toList, Array.size_extract]
  omega

theorem getElem?_blocks {i j : Nat} (few : i < classes.size / pageSize) (inside : j < pageSize) :
    ((blocks classes)[i]?.bind fun block => block[j]?) = classes[i * pageSize + j]? := by
  have room : (i + 1) * pageSize ≤ classes.size :=
    Nat.le_trans (Nat.mul_le_mul_right _ few) (Nat.div_mul_le_self _ _)
  rw [Nat.succ_mul] at room
  rw [blocks, List.getElem?_map, List.getElem?_range few, Option.map_some, Option.bind_some,
    Array.getElem?_toList,
    Array.getElem?_extract_of_lt (by omega), Array.getElem?_eq_getElem (by omega)]

/-- Looking up a page and a place in it gives what all classes in one piece do. -/
theorem lookup_paged (whole : pageSize ∣ classes.size) (c : Nat) :
    (paged (ranks (blocks classes)).toArray (distinct (blocks classes)).flatten.toArray).lookup
      c = classes[c]? := by
  have place : c % pageSize < pageSize := Nat.mod_lt _ (by decide)
  have split : c / pageSize * pageSize + c % pageSize = c := by rw [Nat.mul_comm, Nat.div_add_mod]
  have count : (blocks classes).length = classes.size / pageSize := by
    rw [blocks, List.length_map, List.length_range]
  rw [lookup, List.getElem?_toArray, ranks, List.getElem?_map]
  cases found : (blocks classes)[c / pageSize]? with
  | none =>
    have outside : classes.size / pageSize ≤ c / pageSize := by
      rw [← count]
      exact List.getElem?_eq_none_iff.mp found
    have large : classes.size ≤ c := by
      rw [← Nat.div_mul_cancel whole]
      exact Nat.le_trans (Nat.mul_le_mul_right _ outside) (Nat.div_mul_le_self _ _)
    rw [Array.getElem?_eq_none large]
    rfl
  | some block =>
    have few : c / pageSize < classes.size / pageSize := by
      rw [← count]
      exact (List.getElem?_eq_some_iff.mp found).1
    have uniform : ∀ l ∈ distinct (blocks classes), l.length = pageSize :=
      fun l member => length_of_mem_blocks l (mem_distinct.mp member)
    have stored := getElem?_blocks few place
    rw [found, split, Option.bind_some] at stored
    rw [Option.map_some]
    dsimp only
    rw [List.getElem?_toArray, getElem?_flatten uniform place,
      getElem?_distinct (List.mem_of_getElem? found),
      Option.bind_some, stored]

theorem pageSize_dvd (alphabet : Alphabet) : pageSize ∣ alphabet.cardinality := by
  cases alphabet <;> decide

/-- Both layouts hold the classes of the partition. -/
theorem lookup_ofPartition (tiles : Partition.Tiles p.alphabet.cardinality 0
    (p.intervals.map Prod.fst)) (compress : Bool) (c : Nat) :
    (ofPartition p compress).lookup c = p.classOf c := by
  rw [← getElem?_classesOf tiles, ofPartition]
  cases compress with
  | false => rfl
  | true => exact lookup_paged (by rw [size_classesOf tiles]; exact pageSize_dvd _) c

end ClassMap

end Scangen
