import Scangen.Proofs.Partition.Classes

/-!
Sets that are made of whole classes. They cut no interval, so that their labels are found, and a label
holds just the classes of the symbols of its set.
-/

namespace Scangen

namespace Partition

variable {p : Partition} {s : SymbolSet}

/-- The set is a union of classes. -/
def Composed (p : Partition) (s : SymbolSet) : Prop :=
  ∃ classes : Nat → Prop, ∀ c, c ∈ s ↔ ∃ classId, p.classOf c = some classId ∧ classes classId

/-- The symbols of the word fall into these classes, one after the other. -/
def Classifies (p : Partition) (word classes : List Nat) : Prop :=
  word.map p.classOf = classes.map some

theorem classifies_cons {c classId : Nat} {word classes : List Nat} :
    p.Classifies (c :: word) (classId :: classes) ↔
      p.classOf c = some classId ∧ p.Classifies word classes := by
  simp only [Classifies, List.map_cons, List.cons.injEq]

/-- Classes that have symbols are those of some word. -/
theorem exists_word {classes : List Nat}
    (inhabited : ∀ classId ∈ classes, ∃ c, p.classOf c = some classId) :
    ∃ word, p.Classifies word classes := by
  induction classes with
  | nil => exact ⟨[], rfl⟩
  | cons classId rest ih =>
    obtain ⟨c, found⟩ := inhabited classId List.mem_cons_self
    obtain ⟨word, classified⟩ := ih fun k member => inhabited k (List.mem_cons_of_mem _ member)
    exact ⟨c :: word, classifies_cons.mpr ⟨found, classified⟩⟩

/-- The classes of a word are read off symbol by symbol. -/
theorem Classifies.numbers {word classes : List Nat} (classified : p.Classifies word classes) :
    (∀ c ∈ word, ∃ classId, p.classOf c = some classId) ∧
      word.map (fun c => (p.classOf c).getD 0) = classes := by
  constructor
  · intro c member
    have listed : p.classOf c ∈ classes.map some := classified ▸ List.mem_map_of_mem member
    obtain ⟨classId, _, found⟩ := List.mem_map.mp listed
    exact ⟨classId, found.symm⟩
  · calc word.map (fun c => (p.classOf c).getD 0)
        = (word.map p.classOf).map fun found => found.getD 0 := by rw [List.map_map]; rfl
      _ = (classes.map some).map fun found => found.getD 0 := congrArg _ classified
      _ = classes := by simp

namespace Composed

variable (tiles : Tiles p.alphabet.cardinality 0 (p.intervals.map Prod.fst))
  (composed : p.Composed s)

include tiles composed

/-- A range of the set is a longest run of its symbols, and an interval with one of them is all
inside. -/
theorem spares : ∀ range ∈ s.ranges, ∀ interval ∈ p.intervals, range.Spares interval.1 := by
  intro range part (r, k) member
  obtain ⟨classes, members⟩ := composed
  have run := SymbolSet.mem_ranges_iff.mp part
  have whole : ∀ c ∈ r, (c ∈ s ↔ classes k) := by
    intro c inside
    rw [members, (classOf_eq_some_iff tiles).mpr ⟨r, member, inside⟩]
    simp
  by_contra cut
  change ¬(r.high < range.low ∨ range.high < r.low ∨ range.low ≤ r.low ∧ r.high ≤ range.high)
    at cut
  have ends := r.low_le_high
  have ends' := range.low_le_high
  have shared : max r.low range.low ∈ r := SymbolRange.mem_def.mpr (by omega)
  have held : max r.low range.low ∈ s := run.holds _ (SymbolRange.mem_def.mpr (by omega))
  have all : ∀ c ∈ r, c ∈ s := fun c inside => (whole c inside).mpr ((whole _ shared).mp held)
  by_cases early : r.low < range.low
  · exact run.starts (range.low - 1) (by omega) (all _ (SymbolRange.mem_def.mpr (by omega)))
  · exact run.stops (all _ (SymbolRange.mem_def.mpr (by omega)))

theorem mem_label_iff {classId : Nat} :
    classId ∈ p.label s ↔ ∃ c ∈ s, p.classOf c = some classId :=
  mem_label_iff_meets tiles (composed.spares tiles)

/-- The class of a symbol tells whether the symbol belongs to the set. -/
theorem mem_iff {c classId : Nat} (found : p.classOf c = some classId) :
    c ∈ s ↔ classId ∈ p.label s := by
  rw [composed.mem_label_iff tiles]
  constructor
  · exact fun inside => ⟨c, inside, found⟩
  · intro ⟨other, inside, alike⟩
    obtain ⟨classes, members⟩ := composed
    obtain ⟨k, same, chosen⟩ := (members other).mp inside
    rw [alike, Option.some_inj] at same
    exact (members c).mpr ⟨classId, found, same ▸ chosen⟩

end Composed

/-- A set that the partition sorts the symbols for is made of whole classes. -/
theorem Sorts.composed {sets : List SymbolSet} (sorts : p.Sorts sets) (listed : s ∈ sets)
    (inside : ∀ c ∈ s, c ≤ p.alphabet.maxSymbol) : p.Composed s := by
  refine ⟨(· ∈ p.label s), fun c => ?_⟩
  constructor
  · intro member
    obtain ⟨classId, found⟩ := sorts.covers (inside c member)
    exact ⟨classId, found, (sorts.tells listed found).mp member⟩
  · intro ⟨classId, found, member⟩
    exact (sorts.tells listed found).mpr member

end Partition

end Scangen
