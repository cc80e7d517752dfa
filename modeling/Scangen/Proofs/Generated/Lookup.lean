import Scangen.Proofs.Generated.Evaluation
import Scangen.Proofs.Generated.Functions
import Scangen.Proofs.Table.Order
import Scangen.Proofs.Table.Transitions

/-!
The functions of a generated scanner, as they are read from its text, find what the tables hold, and never
leave an array. The exceptions of all rows lie in one array, between offsets that are found by adding up the
sizes of the rows.
-/

namespace Scangen.Generated

variable {scope : Scope}

section Classes

variable {c : Nat}

/-- The class of a symbol, if it has one. -/
def Value.ofClass : Option Nat → Value
  | none => .nothing
  | some classId => .something (.word classId)

/-- A symbol without a page ends the function. -/
theorem eval_pageOf {index : List Nat} (known : scope.valueOf [] "CLASS_INDEX" = some (.words index)) :
    pageOf.eval scope [("c", .word c)] = match index[c / ClassMap.pageSize]? with
      | some page => .reached (.size page)
      | none => .ended .nothing := by
  have block : c >>> 8 = c / ClassMap.pageSize := Nat.shiftRight_eq_div_pow c 8
  cases found : index[c / ClassMap.pageSize]? <;>
    simp [pageOf, Expression.place, Expression.eval, known, block, found]

theorem eval_entryOf {pages : List Nat} (known : scope.valueOf [] "CLASS_PAGES" = some (.words pages))
    (page : Nat) : entryOf.eval scope [("page", .size page), ("c", .word c)] =
      .ofOption (pages[page * ClassMap.pageSize + c % ClassMap.pageSize]?.map .word) := by
  have place : c &&& 0xFF = c % 256 := Nat.and_two_pow_sub_one_eq_mod c 8
  simp [entryOf, Expression.place, Expression.eval, known, place, ClassMap.pageSize]

/-- The class of every symbol is found, and none for other numbers. -/
theorem classDefinition_apply {classMap : ClassMap} {numClasses : Nat}
    (shows : Shows scope (classArrays classMap)) (valid : classMap.Valid numClasses) (c : Nat) :
    (classDefinition classMap).apply scope (.word c) = some (.ofClass (classMap.lookup c)) := by
  cases classMap with
  | dense classes =>
    have known : scope.valueOf [] "CLASS_MAP" = some (.words classes.toList) :=
      shows.valueOf List.mem_cons_self
    rw [ClassMap.lookup]
    cases found : classes[c]? <;>
      simp [classDefinition, Definition.apply, Binder.bind, evalBindings, Expression.place,
        Expression.eval, known, found, Value.ofClass]
  | paged index pages =>
    have index_known : scope.valueOf [] "CLASS_INDEX" = some (.words index.toList) :=
      shows.valueOf List.mem_cons_self
    have pages_known : scope.valueOf [] "CLASS_PAGES" = some (.words pages.toList) :=
      shows.valueOf (List.mem_cons_of_mem _ List.mem_cons_self)
    simp only [classDefinition, Definition.apply, Binder.bind, evalBindings, eval_pageOf index_known,
      ClassMap.lookup, Array.getElem?_toList, bind, Option.bind_some]
    cases found : index[c / ClassMap.pageSize]? with
    | none => rfl
    | some page =>
      have room := valid.2.1 page (Array.mem_of_getElem? found)
      have small : c % ClassMap.pageSize < ClassMap.pageSize := Nat.mod_lt _ (by decide)
      have inside : page * ClassMap.pageSize + c % ClassMap.pageSize < pages.size := by
        rw [Nat.succ_mul] at room
        omega
      simp [Expression.eval, eval_entryOf pages_known, Array.getElem?_eq_getElem inside,
        Value.ofClass]

end Classes

section Rows

variable {row : Row} {classId : Nat}

def exceptionsOf (rows : List Row) : List (Nat × Option Nat) :=
  rows.flatMap fun row => row.exceptions.toList

/-- The search ends at a key that is listed. -/
theorem placeOf_eq_some {entries : Array (Nat × Option Nat)} (ascending : Row.Ascending entries)
    {j : Nat} {next : Option Nat} (listed : entries[j]? = some (classId, next)) :
    placeOf classId (entries.toList.map Prod.fst) = some j := by
  have key : (entries.toList.map Prod.fst)[j]? = some classId := by
    rw [List.getElem?_map, Array.getElem?_toList, listed, Option.map_some]
  have bare : Row.Ascending ((entries.toList.map Prod.fst).map fun key =>
      (key, (none : Option Nat))).toArray := by
    rw [Row.Ascending, List.pairwise_map, List.pairwise_map]
    exact ascending
  have entry : ((entries.toList.map Prod.fst).map fun key =>
      (key, (none : Option Nat))).toArray[j]? = some (classId, none) := by
    rw [List.getElem?_toArray, List.getElem?_map, key, Option.map_some]
  rw [placeOf, Row.locate_eq bare entry, if_pos key]

theorem placeOf_eq_none {keys : List Nat} (unlisted : classId ∉ keys) :
    placeOf classId keys = none := by
  rw [placeOf, if_neg]
  exact fun found => unlisted (List.mem_of_getElem? found)

theorem exceptionsOf_append (front behind : List Row) :
    exceptionsOf (front ++ behind) = exceptionsOf front ++ exceptionsOf behind :=
  List.flatMap_append

theorem exceptionsOf_cons (row : Row) (rows : List Row) :
    exceptionsOf (row :: rows) = row.exceptions.toList ++ exceptionsOf rows := List.flatMap_cons

/-- The exceptions of a row start behind those of all rows in front of it. -/
theorem getElem?_offsets (start : Nat) (front behind : List Row) :
    (offsets start (front ++ behind))[front.length]? =
      some (start + (exceptionsOf front).length) := by
  induction front generalizing start with
  | nil => cases behind <;> rfl
  | cons row front ih =>
    have size : row.exceptions.toList.length = row.exceptions.size := Array.length_toList
    rw [List.cons_append, offsets, List.length_cons, List.getElem?_cons_succ, ih, exceptionsOf_cons,
      List.length_append, size, Nat.add_assoc]

/-- They end in front of those of the next row. -/
theorem getElem?_offsets_succ (front behind : List Row) (row : Row) :
    (offsets 0 (front ++ row :: behind))[front.length + 1]? =
      some ((exceptionsOf front).length + row.exceptions.size) := by
  have next := getElem?_offsets 0 (front ++ [row]) behind
  have own : exceptionsOf [row] = row.exceptions.toList := List.flatMap_singleton _ _
  rwa [List.append_assoc, List.singleton_append, List.length_append, List.length_singleton,
    Nat.zero_add, exceptionsOf_append, List.length_append, own, Array.length_toList] at next

theorem exists_split {rows : List Row} {s : Nat} (listed : rows[s]? = some row) :
    ∃ front behind, rows = front ++ row :: behind ∧ s = front.length := by
  obtain ⟨inside, rfl⟩ := List.getElem?_eq_some_iff.mp listed
  refine ⟨rows.take s, rows.drop (s + 1), ?_, (List.length_take_of_le (by omega)).symm⟩
  rw [List.getElem_cons_drop, List.take_append_drop]

/-- Between the offsets of a row stand its own exceptions. -/
theorem slice_exceptions {α : Type} (f : Nat × Option Nat → α) (front behind : List Row)
    (row : Row) :
    (((exceptionsOf (front ++ row :: behind)).map f).drop (exceptionsOf front).length).take
      row.exceptions.size = row.exceptions.toList.map f := by
  have size : (row.exceptions.toList.map f).length = row.exceptions.size := by
    rw [List.length_map, Array.length_toList]
  rw [exceptionsOf_append, exceptionsOf_cons, List.map_append, List.map_append,
    List.drop_left' (List.length_map f), List.take_left' size]

theorem getElem?_exceptions {j : Nat} {entry : Nat × Option Nat} (front behind : List Row)
    (found : row.exceptions[j]? = some entry) :
    (exceptionsOf (front ++ row :: behind))[(exceptionsOf front).length + j]? = some entry := by
  have inside : j < row.exceptions.toList.length := (Array.getElem?_eq_some_iff.mp found).1
  rw [exceptionsOf_append, exceptionsOf_cons, List.getElem?_append_right (Nat.le_add_right _ _),
    Nat.add_sub_cancel_left, List.getElem?_append_left inside, Array.getElem?_toList, found]

theorem length_le_exceptions (front behind : List Row) (row : Row) :
    (exceptionsOf front).length + row.exceptions.size ≤
      (exceptionsOf (front ++ row :: behind)).length := by
  have size : row.exceptions.toList.length = row.exceptions.size := Array.length_toList
  rw [exceptionsOf_append, exceptionsOf_cons, List.length_append, List.length_append, size]
  omega

/-- What is computed for a state if its keys lie between two offsets. -/
theorem rowDefinition_between {offsets keys successors usual : List Nat} {s low high : Nat}
    (offsets_known : scope.valueOf [] "EXCEPTION_OFFSET" = some (.words offsets))
    (keys_known : scope.valueOf [] "EXCEPTION_CLASS" = some (.words keys))
    (successors_known : scope.valueOf [] "EXCEPTION_NEXT" = some (.words successors))
    (usual_known : scope.valueOf [] "DEFAULT" = some (.words usual))
    (first : offsets[s]? = some low) (last : offsets[s + 1]? = some high)
    (room : low ≤ high ∧ high ≤ keys.length) :
    rowDefinition.apply scope (.pair (.word s) (.word classId)) =
      (match placeOf classId ((keys.drop low).take (high - low)) with
      | some i => successors[low + i]?
      | none => usual[s]?).map .word := by
  have low_read : (offsetAt (Expression.place (.named "state"))).eval scope
      [("state", .word s), ("class", .word classId)] = .reached (.size low) := by
    simp [offsetAt, Expression.place, Expression.eval, offsets_known, first]
  have high_read : (offsetAt (.binary .sum (Expression.place (.named "state")) (.number 1))).eval
      scope [("state", .word s), ("class", .word classId)] = .reached (.size high) := by
    simp [offsetAt, Expression.place, Expression.eval, offsets_known, last]
  have searched : placeOfClass.eval scope
      [("low", .size low), ("high", .size high), ("state", .word s), ("class", .word classId)] =
        .reached (.found (placeOf classId ((keys.drop low).take (high - low)))) := by
    simp [placeOfClass, Expression.eval, keys_known, entry_range _ _ _ room]
  simp only [rowDefinition, Definition.apply, Binder.bind, evalBindings, Expression.eval, bind,
    Option.bind_some, low_read, high_read, Progress.reached_andThen, List.cons_append,
    List.nil_append, searched]
  cases placeOf classId ((keys.drop low).take (high - low)) <;>
    simp [Expression.place, Expression.eval, successors_known, usual_known]

/-- A row is found again among the exceptions of all rows. -/
theorem rowDefinition_apply {rows : List Row} {s : Nat} (shows : Shows scope (rowArrays rows))
    (listed : rows[s]? = some row) (ascending : Row.Ascending row.exceptions) (classId : Nat) :
    rowDefinition.apply scope (.pair (.word s) (.word classId)) =
      some (.word ((row.lookup classId).getD Bytes.missing)) := by
  have offsets_known : scope.valueOf [] "EXCEPTION_OFFSET" = some (.words (offsets 0 rows)) :=
    shows.valueOf (by simp [rowArrays])
  have keys_known : scope.valueOf [] "EXCEPTION_CLASS" =
      some (.words ((exceptionsOf rows).map Prod.fst)) :=
    shows.valueOf (by simp [rowArrays, exceptionsOf])
  have next_known : scope.valueOf [] "EXCEPTION_NEXT" =
      some (.words (((exceptionsOf rows).map Prod.snd).map fun next => next.getD Bytes.missing)) :=
    shows.valueOf (by simp [rowArrays, exceptionsOf, successorArray])
  have usual_known : scope.valueOf [] "DEFAULT" =
      some (.words ((rows.map Row.usual).map fun next => next.getD Bytes.missing)) :=
    shows.valueOf (by simp [rowArrays, successorArray])
  obtain ⟨front, behind, rfl, rfl⟩ := exists_split listed
  have first : (offsets 0 (front ++ row :: behind))[front.length]? =
      some (exceptionsOf front).length := by
    rw [getElem?_offsets, Nat.zero_add]
  have room : (exceptionsOf front).length + row.exceptions.size ≤
      ((exceptionsOf (front ++ row :: behind)).map Prod.fst).length := by
    rw [List.length_map]
    exact length_le_exceptions front behind row
  rw [rowDefinition_between offsets_known keys_known next_known usual_known first
    (getElem?_offsets_succ front behind row) ⟨Nat.le_add_right _ _, room⟩, Nat.add_sub_cancel_left, slice_exceptions]
  by_cases known : ∃ next, (classId, next) ∈ row.exceptions
  · obtain ⟨next, member⟩ := known
    obtain ⟨j, found⟩ := Array.mem_iff_getElem?.mp member
    rw [placeOf_eq_some ascending found, Row.lookup_of_listed ascending found]
    dsimp only
    rw [List.getElem?_map, List.getElem?_map, getElem?_exceptions front behind found,
      Option.map_some, Option.map_some, Option.map_some]
  · have unlisted : classId ∉ row.exceptions.toList.map Prod.fst := by
      intro member
      obtain ⟨⟨_, next⟩, listed, rfl⟩ := List.mem_map.mp member
      exact known ⟨next, Array.mem_def.mpr listed⟩
    rw [placeOf_eq_none unlisted, Row.lookup_of_not_listed fun next member => known ⟨next, member⟩]
    dsimp only
    rw [List.getElem?_map, List.getElem?_map, listed, Option.map_some, Option.map_some,
      Option.map_some]

end Rows

/-- The successor of a state on a class, or the number that stands for none. The rows, if there are any, are
looked up by another function. -/
theorem stateDefinition_apply {transitions : Transitions} {numStates numClasses s classId : Nat}
    (shows : Shows scope (transitionArrays transitions))
    (count : scope.valueOf [] "NUM_CLASSES" = some (.word numClasses))
    (rows : ∀ row, transitions.stored[s]? = some row → ∀ column,
      scope.functions "row_lookup" (.pair (.word s) (.word column)) =
        some (.word ((row.lookup column).getD Bytes.missing)))
    (valid : transitions.Valid numStates numClasses) (inside : s < numStates)
    (small : classId < numClasses) :
    (stateDefinition transitions).apply scope (.pair (.word s) (.word classId)) =
      some (.word ((transitions.next numClasses s classId).getD Bytes.missing)) := by
  have other : ("row_lookup" : String) ≠ "Some" := by decide
  cases transitions with
  | dense successors =>
    have known : scope.valueOf [] "NEXT" =
        some (.words (successors.toList.map fun next => next.getD Bytes.missing)) :=
      shows.valueOf List.mem_cons_self
    -- A place that is cut to a word is no further in the array.
    have room : Transitions.place numClasses s classId < successors.size := by
      rw [Transitions.place_eq_mod, ← valid.1]
      exact Nat.lt_of_le_of_lt (Nat.mod_le _ _) (Transitions.index_lt inside small)
    have place : (s * numClasses % UInt32.size + classId) % UInt32.size =
        Transitions.place numClasses s classId := by
      rw [Transitions.place_eq_mod, Nat.mod_add_mod]
    simp [stateDefinition, Definition.apply, Binder.bind, evalBindings, Expression.place,
      Expression.eval, known, count, place, Transitions.next, Array.getElem?_eq_getElem room]
  | rows stored =>
    obtain ⟨row, listed⟩ : ∃ row, stored[s]? = some row :=
      ⟨_, Array.getElem?_eq_getElem (by rw [valid.1]; exact inside)⟩
    have next : (Transitions.rows stored).next numClasses s classId = row.lookup classId :=
      Transitions.next_eq_lookup listed rfl
    rw [next]
    simp [stateDefinition, Definition.apply, Binder.bind, evalBindings, Expression.eval,
      call_of_ne other, rows row listed]
  | squeezed columns stored =>
    obtain ⟨row, listed⟩ : ∃ row, stored[s]? = some row :=
      ⟨_, Array.getElem?_eq_getElem (by rw [valid.2.1]; exact inside)⟩
    obtain ⟨column, place⟩ : ∃ column, columns[classId]? = some column :=
      ⟨_, Array.getElem?_eq_getElem (by rw [valid.1]; exact small)⟩
    have known : scope.valueOf [] "META" = some (.words columns.toList) :=
      shows.valueOf List.mem_cons_self
    have next : (Transitions.squeezed columns stored).next numClasses s classId =
        row.lookup column := Transitions.next_eq_lookup listed place
    rw [next]
    simp [stateDefinition, Definition.apply, Binder.bind, evalBindings, Expression.place,
      Expression.eval, known, place, call_of_ne other, rows row listed]

end Scangen.Generated
