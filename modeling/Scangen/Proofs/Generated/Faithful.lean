import Scangen.Proofs.Build.Binary
import Scangen.Proofs.Generated.Lookup
import Scangen.Proofs.Generated.Read

/-!
A generated scanner is faithful to its tables: its text holds all that they hold, and its functions find
in that what the tables would find.
-/

namespace Scangen

namespace Generated

/-- All values can be read if each of them can. -/
theorem mapM_map {α β : Type} {print : α → String} {read : String → Option β} {f : α → β}
    {l : List α} (each : ∀ a ∈ l, read (print a) = some (f a)) :
    (l.map print).mapM read = some (l.map f) := by
  induction l with
  | nil => rfl
  | cons a l ih =>
    rw [List.map_cons, List.mapM_cons, each a List.mem_cons_self,
      ih fun b member => each b (List.mem_cons_of_mem _ member)]
    rfl

/-- The last one of a name is found from behind. -/
theorem find?_reverse_append {α : Type} {name : α → String} {list : List α}
    (nodup : (list.map name).Nodup) (others : List α) {a : α} (member : a ∈ list) :
    (others ++ list).reverse.find? (fun b => name b = name a) = some a := by
  have last : list.reverse.find? (fun b => name b = name a) = some a := by
    cases search : list.reverse.find? fun b => decide (name b = name a) with
    | none =>
      have missed := List.find?_eq_none.mp search a (List.mem_reverse.mpr member)
      exact absurd (decide_eq_true rfl) missed
    | some b =>
      have same : name b = name a := by simpa using List.find?_some search
      have listed := List.mem_reverse.mp (List.mem_of_find?_eq_some search)
      rw [List.inj_on_of_nodup_map nodup listed member same]
  rw [List.reverse_append, List.find?_append, last, Option.some_or]

namespace Reading

variable {r : Reading} {t : Tables}

section Declarations

variable {others : List Declaration} (known : r.declarations = others ++ declarationsOf t)
include known

theorem declaration_of_mem {d : Declaration} (member : d ∈ declarationsOf t) :
    r.declaration d.name = some d := by
  rw [declaration, known]
  exact find?_reverse_append (declaration_names_nodup t) others member

theorem arrays_of_declarations : ∃ first, r.arrays =
    first ++ (Generated.arrays t).map (fun a => (a, a.values.length)) ∧ (others = [] → first = []) := by
  refine ⟨arrays ⟨others, r.functions⟩, ?_, ?_⟩
  · rw [arrays, known, List.filterMap_append, declarationsOf, List.filterMap_cons_none rfl,
      List.filterMap_cons_none rfl, List.filterMap_map]
    exact congrArg _ (List.filterMap_eq_map ▸ rfl)
  · rintro rfl
    rfl

theorem declaration_of_mem_arrays {a : ConstantArray} (member : a ∈ Generated.arrays t) :
    r.declaration a.name = some (.array a a.values.length) :=
  declaration_of_mem known (List.mem_cons_of_mem _ (List.mem_cons_of_mem _
    (List.mem_map.mpr ⟨a, member, rfl⟩)))

theorem values_of_mem {a : ConstantArray} (member : a ∈ Generated.arrays t) :
    r.values a.name = some a.values := by
  rw [values, declaration_of_mem_arrays known member]

theorem numbers_of_mem {name : String} {values : List Nat}
    (member : numberArray name values ∈ Generated.arrays t) : r.numbers name = some values := by
  have printed : r.values name = some (values.map toString) := values_of_mem known member
  rw [numbers, printed]
  show (values.map toString).mapM (fun value => readNumber value.toList) = some values
  rw [mapM_map (f := id) fun n _ => readNumber_toString n, List.map_id]

/-- What functions see of the arrays. -/
theorem shows (functions : String → Value → Option Value) :
    Shows ⟨r.numbers, r.constant, functions⟩ (Generated.arrays t) := by
  intro name values member
  have listed : r.declaration name = some (.array _ _) := declaration_of_mem_arrays known member
  refine ⟨?_, numbers_of_mem known member⟩
  show r.constant name = none
  rw [constant, listed]

theorem valueOf_numClasses (functions : String → Value → Option Value) :
    Scope.valueOf ⟨r.numbers, r.constant, functions⟩ [] "NUM_CLASSES" =
      some (.word t.numClasses) := by
  have listed : r.declaration "NUM_CLASSES" = some (.constant "NUM_CLASSES" t.numClasses) :=
    declaration_of_mem known (List.mem_cons_of_mem _ List.mem_cons_self)
  have count : r.constant "NUM_CLASSES" = some t.numClasses := by
    rw [constant, listed]
  show (((r.constant "NUM_CLASSES").map Value.word).or _) = _
  rw [count]
  rfl

end Declarations

section Functions

variable {others : List Definition}

theorem call_of_mem (known : r.functions = others ++ definitions t.classMap t.transitions)
    {definition : Definition} (member : definition ∈ definitions t.classMap t.transitions)
    (depth : Nat) (argument : Value) : r.call (depth + 1) definition.name argument =
      definition.apply ⟨r.numbers, r.constant, r.call depth⟩ argument := by
  have found : r.function definition.name = some definition := by
    rw [function, known]
    exact find?_reverse_append (definition_names_nodup _ _) others member
  rw [call, found]
  rfl

end Functions

/-- What is read is what the tables hold, and the functions compute what the tables find. -/
structure Faithful (r : Reading) (t : Tables) : Prop where
  starts : r.starts = some t.starts.toList
  endActions : r.endActions = some t.endActions.toList
  accept : r.accept = some (t.accept.toList.map fun tag =>
    tag.map fun tag => (tag.rule, tag.trailing))
  classOf : ∀ c, r.classOf c = some (t.classOf c)
  nextState : ∀ s < t.numStates, ∀ classId < t.numClasses,
    r.nextState s classId = some ((t.next s classId).getD Bytes.missing)

/-- Where a row is stored, there are the arrays of rows and the function that looks them up. -/
theorem exists_rows {classMap : ClassMap} {transitions : Transitions} {s : Nat} {row : Row}
    (stored : transitions.stored[s]? = some row) :
    ∃ rows : List Row, rows[s]? = some row ∧ rowArrays rows ⊆ transitionArrays transitions ∧
      rowDefinition ∈ definitions classMap transitions := by
  have first (later : List Definition) : rowDefinition ∈ [rowDefinition] ++ later :=
    List.mem_append_left _ List.mem_cons_self
  cases transitions with
  | dense => cases stored
  | rows list =>
    exact ⟨list.toList, Array.getElem?_toList.trans stored, List.Subset.refl _, first _⟩
  | squeezed columns list =>
    exact ⟨list.toList, Array.getElem?_toList.trans stored, List.subset_cons_self _ _, first _⟩

section Known

variable {others : List Declaration} {behind : List Definition}
    (known : r.declarations = others ++ declarationsOf t)
    (functions : r.functions = behind ++ definitions t.classMap t.transitions)

include functions

/-- There are at least two functions, so that one may call another one. -/
theorem exists_run_eq {definition : Definition}
    (member : definition ∈ definitions t.classMap t.transitions) : ∃ depth, ∀ argument,
    r.run definition.name argument =
      definition.apply ⟨r.numbers, r.constant, r.call (depth + 1)⟩ argument := by
  obtain ⟨depth, deep⟩ : ∃ depth, r.functions.length = depth + 2 := by
    rw [functions, List.length_append]
    unfold definitions
    rw [List.length_append]
    exact ⟨_, (Nat.add_assoc _ _ 2).symm⟩
  refine ⟨depth, fun argument => ?_⟩
  rw [run, deep]
  exact call_of_mem functions member (depth + 1) argument

include known

theorem classOf_eq (valid : t.classMap.Valid t.numClasses) (c : Nat) :
    r.classOf c = some (t.classOf c) := by
  have listed : classDefinition t.classMap ∈ definitions t.classMap t.transitions :=
    List.mem_append_right _ List.mem_cons_self
  have class_arrays : classArrays t.classMap ⊆ Generated.arrays t := fun a member => by
    rw [Generated.arrays]
    exact List.mem_append_left _ (List.mem_append_right _ member)
  obtain ⟨depth, run⟩ := exists_run_eq functions listed
  have applied := (run (.word c)).trans
    (classDefinition_apply ((shows known _).of_subset class_arrays) valid c)
  change r.run "class_of" (.word c) = some (.ofClass (t.classOf c)) at applied
  rw [classOf, applied]
  cases t.classOf c <;> rfl

theorem nextState_eq (valid : t.transitions.Valid t.numStates t.numClasses)
    (ascending : ∀ row ∈ t.transitions.stored, Row.Ascending row.exceptions) {s classId : Nat}
    (inside : s < t.numStates) (small : classId < t.numClasses) :
    r.nextState s classId = some ((t.next s classId).getD Bytes.missing) := by
  have listed : stateDefinition t.transitions ∈ definitions t.classMap t.transitions :=
    List.mem_append_right _ (List.mem_cons_of_mem _ List.mem_cons_self)
  have transition_arrays : transitionArrays t.transitions ⊆ Generated.arrays t := fun a member => by
    rw [Generated.arrays]
    exact List.mem_append_right _ member
  obtain ⟨depth, run⟩ := exists_run_eq functions listed
  have rows : ∀ row, t.transitions.stored[s]? = some row → ∀ column,
      r.call (depth + 1) "row_lookup" (.pair (.word s) (.word column)) =
        some (.word ((row.lookup column).getD Bytes.missing)) := by
    intro row stored column
    obtain ⟨list, entry, fewer, member⟩ := exists_rows stored
    have row_arrays := List.Subset.trans fewer transition_arrays
    have call := call_of_mem functions member depth (.pair (.word s) (.word column))
    exact call.trans (rowDefinition_apply ((shows known _).of_subset row_arrays) entry
      (ascending row (Array.mem_of_getElem? stored)) column)
  have applied := (run (.pair (.word s) (.word classId))).trans
    (stateDefinition_apply ((shows known _).of_subset transition_arrays)
      (valueOf_numClasses known _) rows valid inside small)
  change r.run "next_state" _ = some (.word ((t.next s classId).getD Bytes.missing)) at applied
  rw [nextState, applied]

/-- The declarations and functions of valid tables are enough, if the exceptions of each row are in
order. -/
theorem faithful_of_known (classes : t.classMap.Valid t.numClasses)
    (transitions : t.transitions.Valid t.numStates t.numClasses)
    (ascending : ∀ row ∈ t.transitions.stored, Row.Ascending row.exceptions) : r.Faithful t := by
  have listed : ∀ a ∈ [numberArray "START" t.starts.toList,
      ⟨"EOF_ACTION", "Option<u32>", t.endActions.toList.map optionText⟩,
      ⟨"ACCEPT", "Option<Accept>", t.accept.toList.map acceptText⟩], a ∈ Generated.arrays t := by
    intro a member
    rw [Generated.arrays, List.append_assoc]
    exact List.mem_append_left _ member
  constructor
  · exact numbers_of_mem known (listed _ List.mem_cons_self)
  · have values := values_of_mem known (listed _ (List.mem_cons_of_mem _ List.mem_cons_self))
    rw [endActions, values]
    show (t.endActions.toList.map optionText).mapM (fun value => readOption value.toList) = _
    rw [mapM_map (f := id) fun action _ => readOption_optionText action, List.map_id]
  · have values := values_of_mem known
      (listed _ (List.mem_cons_of_mem _ (List.mem_cons_of_mem _ List.mem_cons_self)))
    rw [accept, values]
    exact mapM_map fun tag _ => readAccept_acceptText tag
  · exact classOf_eq known functions classes
  · exact fun s inside classId small => nextState_eq known functions transitions ascending inside small

end Known

end Reading

end Generated

/-- The tables of a specification are such tables, with any end-of-input rules. -/
theorem Spec.lookups_valid (spec : Spec) (config : Config) (minimal : Bool)
    (endActions : List (Option Nat)) (layout : Layout) :
    let t := Tables.ofDfa (Partition.ofSpec spec config) (spec.dfa config minimal) endActions layout
    t.classMap.Valid t.numClasses ∧ t.transitions.Valid t.numStates t.numClasses ∧
      ∀ row ∈ t.transitions.stored, Row.Ascending row.exceptions := by
  have valid : (Tables.ofDfa (Partition.ofSpec spec config) (spec.dfa config minimal)
      (List.replicate spec.conditions.length none) layout).Valid :=
    Spec.valid_tables config minimal layout List.length_replicate
  exact ⟨valid.classMap, valid.transitions,
    fun row member => (Transitions.stored_ofRows _ _ _ row member).1⟩

end Scangen
