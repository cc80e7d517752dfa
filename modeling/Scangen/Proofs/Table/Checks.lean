import Scangen.Table.Binary

/-!
What the check of tables asks for: every number that a scanner may follow is the number of a state, a
class, a page or a column that exists.
-/

namespace Scangen

/-- The value is less than the bound, if there is one. -/
def Below (bound : Nat) (value : Option Nat) : Prop := ∀ n ∈ value, n < bound

/-- Each class is one of those that the tables have, and each page is there as a whole. -/
def ClassMap.Valid (numClasses : Nat) : ClassMap → Prop
  | .dense classes => ∀ c ∈ classes, c < numClasses
  | .paged index pages => pages.size % pageSize = 0 ∧
      (∀ page ∈ index, (page + 1) * pageSize ≤ pages.size) ∧ ∀ c ∈ pages, c < numClasses

/-- Successors are states of the tables, and classes have a place in the row. -/
structure Row.Valid (numStates width : Nat) (row : Row) : Prop where
  usual : Below numStates row.usual
  exceptions : ∀ entry ∈ row.exceptions, entry.1 < width ∧ Below numStates entry.2

/-- There is a row for each state, or all rows in one piece. -/
def Transitions.Valid (numStates numClasses : Nat) : Transitions → Prop
  | .dense successors =>
    numStates * numClasses = successors.size ∧ ∀ next ∈ successors, Below numStates next
  | .rows stored => stored.size = numStates ∧ ∀ row ∈ stored, row.Valid numStates numClasses
  | .squeezed columns stored => columns.size = numClasses ∧ stored.size = numStates ∧
      ∀ row ∈ stored, row.Valid numStates (Tables.columnCount columns)

namespace Tables

/-- A scanner that follows the numbers in the tables stays inside them. -/
structure Valid (t : Tables) : Prop where
  accept : t.accept.size = t.numStates
  starts : ∀ s ∈ t.starts, s < t.numStates
  conditions : t.starts.size = t.endActions.size
  lineStart : Below t.numClasses t.lineStart
  lineEnd : Below t.numClasses t.lineEnd
  classMap : t.classMap.Valid t.numClasses
  transitions : t.transitions.Valid t.numStates t.numClasses

variable {t : Tables}

theorem below_iff {value : Option Nat} {bound : Nat} :
    value.all (· < bound) = true ↔ Below bound value := by
  simp [Option.all_eq_true, Below]

theorem rowsValid_iff {width : Nat} {stored : Array Row} : t.rowsValid width stored = true ↔
    stored.size = t.numStates ∧ ∀ row ∈ stored, row.Valid t.numStates width := by
  rw [rowsValid, Bool.and_eq_true, decide_eq_true_eq, Array.all_eq_true_iff_forall_mem]
  refine and_congr_right fun _ => forall_congr' fun row => imp_congr_right fun _ => ?_
  simp only [Bool.and_eq_true, Array.all_eq_true_iff_forall_mem, decide_eq_true_eq,
    successorValid, below_iff]
  exact ⟨fun both => ⟨both.1, both.2⟩, fun valid => ⟨valid.usual, valid.exceptions⟩⟩

theorem classMapValid_iff : t.classMapValid = true ↔ t.classMap.Valid t.numClasses := by
  unfold classMapValid
  cases t.classMap with
  | dense classes =>
    rw [ClassMap.Valid]
    simp only [Array.all_eq_true_iff_forall_mem, decide_eq_true_eq]
  | paged index pages =>
    rw [ClassMap.Valid]
    simp only [Bool.and_eq_true, Array.all_eq_true_iff_forall_mem, decide_eq_true_eq, and_assoc]

theorem transitionsValid_iff : t.transitionsValid = true ↔
    t.transitions.Valid t.numStates t.numClasses := by
  unfold transitionsValid
  cases t.transitions with
  | dense successors =>
    rw [Transitions.Valid]
    simp only [Bool.and_eq_true, Array.all_eq_true_iff_forall_mem, decide_eq_true_eq,
      successorValid, below_iff]
  | rows stored => exact rowsValid_iff
  | squeezed columns stored =>
    rw [Transitions.Valid]
    simp only [Bool.and_eq_true, decide_eq_true_eq, rowsValid_iff]

theorem guard_iff {fails : Prop} [Decidable fails] {e : TableError} {rest : Except TableError Unit} :
    (if fails then .error e else rest) = .ok () ↔ ¬fails ∧ rest = .ok () := by
  by_cases failed : fails <;> simp [failed]

/-- The check lets just the valid tables pass. -/
theorem validate_iff : t.validate = .ok () ↔ t.Valid := by
  have passes : t.validate = .ok () ↔ t.accept.size = t.numStates ∧
      ((∀ s ∈ t.starts, s < t.numStates) ∧ t.starts.size = t.endActions.size) ∧
      (Below t.numClasses t.lineStart ∧ Below t.numClasses t.lineEnd) ∧
      t.classMap.Valid t.numClasses ∧ t.transitions.Valid t.numStates t.numClasses := by
    rw [← classMapValid_iff, ← transitionsValid_iff, validate]
    simp only [guard_iff, Bool.or_eq_true, Bool.not_eq_true', ← Bool.not_eq_true, not_or, ne_eq,
      decide_eq_true_eq, Classical.not_not, below_iff, Array.all_eq_true_iff_forall_mem, and_true]
  rw [passes]
  constructor
  · intro parts
    obtain ⟨accept, ⟨starts, conditions⟩, ⟨lineStart, lineEnd⟩, classMap, transitions⟩ := parts
    exact ⟨accept, starts, conditions, lineStart, lineEnd, classMap, transitions⟩
  · intro valid
    exact ⟨valid.accept, ⟨valid.starts, valid.conditions⟩, ⟨valid.lineStart, valid.lineEnd⟩,
      valid.classMap, valid.transitions⟩

end Tables

end Scangen
