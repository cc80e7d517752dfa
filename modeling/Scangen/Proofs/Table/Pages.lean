import Mathlib.Data.Finset.Card
import Scangen.Proofs.Partition.Reported
import Scangen.Proofs.Table.ClassMap

/-!
What the two layouts of the class map hold. Both give each symbol the class of the partition. The pages
are stored once each, and are numbered in the order in which they are first needed.
-/

namespace Scangen

/-- The classes of the symbols of one page. -/
def Partition.block (p : Partition) (i : Nat) : List (Option Nat) :=
  (List.range ClassMap.pageSize).map fun j => p.classOf (i * ClassMap.pageSize + j)

theorem Partition.block_eq_iff {p : Partition} {a b : Nat} :
    p.block a = p.block b ↔ ∀ j < ClassMap.pageSize,
      p.classOf (a * ClassMap.pageSize + j) = p.classOf (b * ClassMap.pageSize + j) := by
  simp only [block, List.map_inj_left, List.mem_range]

/-- There are as many different keys as keys in the list without repetition. -/
theorem length_distinct_eq_card {κ : Type} [DecidableEq κ] (keys : List κ) :
    (distinct keys).length = keys.toFinset.card := by
  rw [← List.toFinset_card_of_nodup (distinct_nodup keys)]
  congr 1
  ext key
  simp only [List.mem_toFinset, mem_distinct]

namespace ClassMap

variable {p : Partition} {classes : Array Nat}

/-- Pages for the blocks of a partition: one for each different block, in order of first use. -/
structure Pages (p : Partition) (index pages : Array Nat) : Prop where
  blocks : index.size * pageSize = p.alphabet.cardinality
  shared : ∀ a < index.size, ∀ b < index.size, index[a]? = index[b]? ↔ p.block a = p.block b
  used : ∀ page, page ∈ index ↔ page < ((Finset.range index.size).image p.block).card
  inOrder : InOrder fun i => index[i]?
  stored : pages.size = ((Finset.range index.size).image p.block).card * pageSize

theorem length_blocks : (blocks classes).length = classes.size / pageSize := by
  rw [blocks, List.length_map, List.length_range]

/-- The blocks of the numbers are the blocks of the partition. -/
theorem map_some_blocks (tiles : Partition.Tiles p.alphabet.cardinality 0
    (p.intervals.map Prod.fst)) :
    (blocks (classesOf p)).map (List.map some) =
      (List.range (p.alphabet.cardinality / pageSize)).map p.block := by
  have count : (blocks (classesOf p)).length = p.alphabet.cardinality / pageSize := by
    rw [length_blocks, size_classesOf tiles]
  apply List.ext_getElem (by simp [count])
  intro i left right
  rw [List.getElem_map, List.getElem_map, List.getElem_range]
  rw [List.length_map] at left
  have few : i < (classesOf p).size / pageSize := by rwa [← length_blocks]
  have length := length_of_mem_blocks _ (List.getElem_mem left)
  apply List.ext_getElem (by simp [Partition.block, length])
  intro j first second
  rw [List.length_map, length] at first
  have entry := getElem?_blocks few first
  rw [List.getElem?_eq_getElem left, Option.bind_some, getElem?_classesOf tiles,
    List.getElem?_eq_getElem (by omega)] at entry
  simpa [Partition.block] using entry

/-- Blocks of numbers are equal if the blocks of the partition are. -/
theorem blocks_eq_iff (tiles : Partition.Tiles p.alphabet.cardinality 0
    (p.intervals.map Prod.fst)) {a b : Nat} (left : a < p.alphabet.cardinality / pageSize)
    (right : b < p.alphabet.cardinality / pageSize) :
    (blocks (classesOf p))[a]? = (blocks (classesOf p))[b]? ↔ p.block a = p.block b := by
  have entry : ∀ i < p.alphabet.cardinality / pageSize,
      (blocks (classesOf p))[i]?.map (List.map some) = some (p.block i) := by
    intro i inside
    rw [← List.getElem?_map, map_some_blocks tiles, List.getElem?_map, List.getElem?_range inside,
      Option.map_some]
  have injective : Function.Injective (List.map (some : Nat → Option Nat)) :=
    List.map_injective_iff.mpr (Option.some_injective Nat)
  rw [← (Option.map_injective injective).eq_iff, entry a left, entry b right, Option.some_inj]

/-- There are as many different blocks of numbers as of the partition. -/
theorem length_distinct_blocks (tiles : Partition.Tiles p.alphabet.cardinality 0
    (p.intervals.map Prod.fst)) :
    (distinct (blocks (classesOf p))).length =
      ((Finset.range (p.alphabet.cardinality / pageSize)).image p.block).card := by
  have injective : Function.Injective (List.map (some : Nat → Option Nat)) :=
    List.map_injective_iff.mpr (Option.some_injective Nat)
  have image : (blocks (classesOf p)).toFinset.image (List.map some) =
      (Finset.range (p.alphabet.cardinality / pageSize)).image p.block := by
    ext block
    rw [Finset.mem_image, Finset.mem_image]
    simp only [List.mem_toFinset, Finset.mem_range]
    rw [← List.mem_map, map_some_blocks tiles, List.mem_map]
    simp only [List.mem_range]
  rw [length_distinct_eq_card, ← image, Finset.card_image_of_injective _ injective]

theorem pages_ofPartition (tiles : Partition.Tiles p.alphabet.cardinality 0
    (p.intervals.map Prod.fst)) :
    Pages p (ranks (blocks (classesOf p))).toArray
      (distinct (blocks (classesOf p))).flatten.toArray := by
  have size : (ranks (blocks (classesOf p))).toArray.size = p.alphabet.cardinality / pageSize := by
    rw [List.size_toArray, length_ranks, length_blocks, size_classesOf tiles]
  have count := length_distinct_blocks tiles
  refine ⟨?_, ?_, ?_, ?_, ?_⟩
  · rw [size, Nat.div_mul_cancel (pageSize_dvd _)]
  · intro a left b right
    rw [size] at left right
    rw [List.getElem?_toArray, List.getElem?_toArray, ranks_eq_iff, blocks_eq_iff tiles left right]
  · intro page
    rw [List.mem_toArray, size, ← count]
    exact ⟨lt_of_mem_ranks, mem_ranks⟩
  · simpa only [List.getElem?_toArray] using ranks_inOrder _
  · have uniform : ∀ block ∈ distinct (blocks (classesOf p)), block.length = pageSize :=
      fun block member => length_of_mem_blocks block (mem_distinct.mp member)
    rw [List.size_toArray, length_flatten uniform, size, count]

/-- Both layouts give each symbol its class, and none to what lies above the alphabet. In pages, two blocks
share a page exactly if their symbols have the same classes. -/
theorem ofPartition_exact {p : Partition} (made : p.Made) :
    (∀ compress c, (ofPartition p compress).lookup c = p.classOf c) ∧
    (∀ c, p.classOf c = none ↔ p.alphabet.maxSymbol < c) ∧
    (∃ classes, ofPartition p false = .dense classes ∧
      classes.size = p.alphabet.cardinality) ∧
    ∃ index pages, ofPartition p true = .paged index pages ∧ Pages p index pages := by
  refine ⟨lookup_ofPartition made.tiles, fun c => Partition.classOf_eq_none_iff made.tiles,
    ⟨_, rfl, size_classesOf made.tiles⟩, _, _, rfl, pages_ofPartition made.tiles⟩

/-- Of all pages of code points, just that of the small letters is not like the others. -/
theorem smallLetters_pages :
    let p := Partition.ofSets .unicode [Partition.smallLetters] false false
    p.Made ∧ (ofPartition p true).lookup 0x71 = some 1 ∧
      (ofPartition p true).lookup 0x110000 = none ∧
      ∃ index pages, ofPartition p true = .paged index pages ∧ index.size = 0x1100 ∧
        index[1]? = index[0x10FF]? ∧ index[0]? ≠ index[1]? := by
  have made := Partition.Made.ofSets .unicode [Partition.smallLetters] false false
  obtain ⟨lookups, _, _, index, pages, same, stored⟩ := ofPartition_exact made
  have count : index.size = 0x1100 := by
    have blocks : index.size * 0x100 = 0x110000 := stored.blocks
    omega
  refine ⟨made, ?_, ?_, index, pages, same, count, ?_, ?_⟩
  · rw [lookups]
    decide
  · rw [lookups]
    decide
  · rw [stored.shared 1 (by omega) 0x10FF (by omega), Partition.block_eq_iff]
    have rest : ∀ c, 0x7B ≤ c → c ≤ 0x10FFFF →
        (Partition.ofSets .unicode [Partition.smallLetters] false false).classOf c = some 0 :=
      fun c above below => (Partition.classOf_eq_some_iff made.tiles).mpr
        ⟨⟨0x7B, 0x10FFFF, by decide⟩, by decide, above, below⟩
    intro j small
    rw [pageSize] at *
    rw [rest _ (by omega) (by omega), rest _ (by omega) (by omega)]
  · rw [Ne, stored.shared 0 (by omega) 1 (by omega), Partition.block_eq_iff]
    intro alike
    exact absurd (alike 0x71 (by decide)) (by decide)

end ClassMap

end Scangen
