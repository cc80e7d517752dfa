import Scangen.Proofs.Build.Binary
import Scangen.Proofs.Table.Order

/-!
Rows in tables that were read from bytes. Bytes that were written for a specification have the
exceptions of each row in order, others need not.
-/

namespace Scangen.Tables

variable {t : Tables} {bytes : List UInt8}

/-- All exceptions of a row that was read from bytes can be found exactly if their classes ascend, and
then the tables lead from a state on each of these classes to the successor that is listed. If none of
the exceptions could be left out, even their successors are found in no other order. Bytes pass the
check with the exceptions in any order. Those that were written for a specification have them in the
right one. -/
theorem decode_exceptions (decoded : decode bytes = .ok t) :
    (∀ row ∈ t.transitions.stored,
      (Row.Located row.exceptions ↔ Row.Ascending row.exceptions) ∧
      (row.Frugal → ((∀ entry ∈ row.exceptions, row.lookup entry.1 = entry.2) ↔
        Row.Ascending row.exceptions))) ∧
    (∀ s classId row column, t.transitions.stored[s]? = some row →
      t.transitions.column classId = some column → Row.Ascending row.exceptions →
      (∀ next, (column, next) ∈ row.exceptions → t.next s classId = next) ∧
      ((∀ next, (column, next) ∉ row.exceptions) → t.next s classId = row.usual)) ∧
    (∀ reorder : Row → Row, (∀ row : Row, row.Reorders (reorder row)) →
      decode (t.mapRows reorder).encode = .ok (t.mapRows reorder)) ∧
    ∀ (spec : Spec) (config : Config) (minimal : Bool) (endActions : List (Option Nat))
      (layout : Layout), endActions.length = spec.conditions.length →
      (∀ action ∈ endActions, ∀ id ∈ action, id < spec.rules.length) →
      spec.rules.length < 0x100000000 → spec.conditions.length < 0x100000000 →
      let d := spec.dfa config minimal
      d.states.size < 0x100000000 →
      (layout.compression = .dense → d.states.size * d.numClasses < 0x100000000) →
      bytes = (ofDfa (Partition.ofSpec spec config) d endActions layout).encode →
      ∀ row ∈ t.transitions.stored, Row.Ascending row.exceptions ∧ row.Frugal := by
  refine ⟨fun row _ => ⟨Row.located_iff_ascending, Row.Frugal.found_iff⟩, ?_,
    fun reorder reorders => decode_mapRows decoded reorders, ?_⟩
  · intro s classId row column listed place ascending
    have next : t.next s classId = row.lookup column := Transitions.next_eq_lookup listed place
    rw [next]
    refine ⟨fun successor member => ?_, Row.lookup_of_not_listed⟩
    obtain ⟨j, found⟩ := Array.mem_iff_getElem?.mp member
    exact Row.lookup_of_listed ascending found
  · intro spec config minimal endActions layout count actions rules conditions d states small written
    have valid : (ofDfa (Partition.ofSpec spec config) d endActions layout).Valid :=
      Spec.valid_tables config minimal layout count
    have used : ∀ action ∈ (ofDfa (Partition.ofSpec spec config) d endActions layout).endActions,
        action ≠ some Bytes.missing := fun action member =>
      Below.ne_missing (actions action (List.mem_toArray.mp member)) rules
    have again := decode_encode (validate_iff.mpr valid) used
      (Spec.numbers_tables count actions rules states)
      ((Spec.lengths_tables count conditions states).mpr small)
    rw [written, again] at decoded
    cases decoded
    exact Transitions.stored_ofRows _ _ _

/-- Both successors of the first of the shared columns are found, and reading does not notice if they
change places. -/
theorem sharedColumns_exceptions :
    decode sharedColumns.encode = .ok sharedColumns ∧ sharedColumns.next 0 0 = some 1 ∧
      sharedColumns.next 0 2 = some 0 ∧
      decode (sharedColumns.mapRows fun row => ⟨row.usual, row.exceptions.reverse⟩).encode =
        .ok (sharedColumns.mapRows fun row => ⟨row.usual, row.exceptions.reverse⟩) := by
  obtain ⟨-, found, reordered, -⟩ := decode_exceptions decode_sharedColumns
  have first := found 0 0 ⟨none, #[(0, some 1), (1, some 0)]⟩ 0 rfl rfl (by decide)
  have last := found 0 2 ⟨none, #[(0, some 1), (1, some 0)]⟩ 1 rfl rfl (by decide)
  refine ⟨decode_sharedColumns, first.1 _ (by simp), last.1 _ (by simp), ?_⟩
  refine reordered _ fun row => ⟨rfl, ?_⟩
  rw [Array.toList_reverse]
  exact List.reverse_perm _

/-- One state that leads back to itself on both of its classes. -/
def descendingRow : Tables where
  alphabet := .byte
  numStates := 1
  numClasses := 2
  classMap := .dense #[0, 1]
  transitions := .rows #[⟨none, #[(1, some 0), (0, some 0)]⟩]
  accept := #[none]
  starts := #[0]
  endActions := #[none]
  lineStart := none
  lineEnd := none

/-- The exceptions pass the check, but the one in front is not found. -/
theorem descendingRow_misses :
    decode descendingRow.encode = .ok descendingRow ∧
      ∃ row ∈ descendingRow.transitions.stored, ¬Row.Ascending row.exceptions ∧
        (1, some 0) ∈ row.exceptions ∧ row.lookup 1 = none ∧ descendingRow.next 0 1 = none ∧
        row.lookup 0 = some 0 := by
  refine ⟨by decide +kernel, ⟨none, #[(1, some 0), (0, some 0)]⟩,
    Array.mem_of_getElem? (i := 0) rfl, ?_⟩
  decide +kernel

end Scangen.Tables
