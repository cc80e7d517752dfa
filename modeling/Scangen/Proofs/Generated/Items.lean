import Scangen.Proofs.Generated.Arrays
import Scangen.Proofs.Generated.Functions

/-!
The items of a generated scanner: what each of them declares, and that it declares nothing else.
-/

namespace Scangen.Generated

section Arrays

variable {list : List ConstantArray} {rest : List (List Char)}

theorem legible_array {name element : String} {values : List String}
    (plain : ∀ c ∈ name.toList, c ≠ ':' ∧ c ≠ '\n')
    (type : ∀ c ∈ element.toList, c ≠ ';' ∧ c ≠ '\n')
    (legible : ∀ value ∈ values, Legible value) : (ConstantArray.mk name element values).Legible :=
  ⟨plain, type, legible⟩

theorem legible_numberArray {name : String} (plain : ∀ c ∈ name.toList, c ≠ ':' ∧ c ≠ '\n')
    (values : List Nat) : (numberArray name values).Legible := by
  refine legible_array plain (by simp) fun value member => ?_
  obtain ⟨n, _, rfl⟩ := List.mem_map.mp member
  exact legible_number n

theorem legible_rowArrays (rows : List Row) : ∀ a ∈ rowArrays rows, a.Legible := by
  intro a member
  simp only [rowArrays, successorArray, List.mem_cons, List.not_mem_nil, or_false] at member
  rcases member with rfl | rfl | rfl | rfl <;> exact legible_numberArray (by simp) _

theorem legible_classArrays (classMap : ClassMap) : ∀ a ∈ classArrays classMap, a.Legible := by
  intro a member
  cases classMap with
  | dense classes =>
    rw [List.mem_singleton.mp member]
    exact legible_numberArray (by simp) _
  | paged index pages =>
    simp only [classArrays, List.mem_cons, List.not_mem_nil, or_false] at member
    rcases member with rfl | rfl <;> exact legible_numberArray (by simp) _

theorem legible_transitionArrays (transitions : Transitions) :
    ∀ a ∈ transitionArrays transitions, a.Legible := by
  intro a member
  cases transitions with
  | dense successors =>
    rw [List.mem_singleton.mp member]
    exact legible_numberArray (by simp) _
  | rows stored => exact legible_rowArrays _ a member
  | squeezed columns stored =>
    rcases List.mem_cons.mp member with rfl | later
    · exact legible_numberArray (by simp) _
    · exact legible_rowArrays _ a later

/-- The arrays of tables can be read. -/
theorem legible_arrays (t : Tables) : ∀ a ∈ arrays t, a.Legible := by
  intro a member
  rw [arrays, List.mem_append, List.mem_append] at member
  rcases member with (first | classes) | transitions
  · simp only [List.mem_cons, List.not_mem_nil, or_false] at first
    rcases first with rfl | rfl | rfl
    · exact legible_numberArray (by simp) _
    · refine legible_array (by simp) (by simp) fun value listed => ?_
      obtain ⟨action, _, rfl⟩ := List.mem_map.mp listed
      exact legible_option action
    · refine legible_array (by simp) (by simp) fun value listed => ?_
      obtain ⟨tag, _, rfl⟩ := List.mem_map.mp listed
      exact legible_accept tag
  · exact legible_classArrays _ a classes
  · exact legible_transitionArrays _ a transitions

/-- No two arrays have the same name, and none has that of a constant. -/
theorem names_nodup (t : Tables) :
    ("NUM_STATES" :: "NUM_CLASSES" :: (arrays t).map ConstantArray.name).Nodup := by
  rw [arrays]
  cases t.classMap <;> cases t.transitions <;>
    simp [classArrays, transitionArrays, rowArrays, successorArray, numberArray]

theorem found_arrays (legible : ∀ a ∈ list, a.Legible) :
    found readDeclaration ((list.map ConstantArray.item).flatMap Item.textLines ++ rest) =
      list.map (fun a => Declaration.array a a.values.length) ++ found readDeclaration rest := by
  induction list with
  | nil => rfl
  | cons a list ih =>
    rw [List.map_cons, List.flatMap_cons, List.append_assoc,
      found_array (legible a List.mem_cons_self),
      ih fun b member => legible b (List.mem_cons_of_mem _ member), List.map_cons, List.cons_append]

end Arrays

namespace Constant

variable {c : Constant}

theorem toList_text (c : Constant) : c.text.toList = "pub const ".toList ++ (c.name.toList ++
    (':' :: ' ' :: (c.type.toList ++ (" = ".toList ++ (c.value.toList ++ [';']))))) := by
  have colon : ": ".toList = [':', ' '] := rfl
  have semicolon : ";".toList = [';'] := rfl
  show ("pub const " ++ c.name ++ ": " ++ c.type ++ " = " ++ c.value ++ ";").toList = _
  simp only [String.toList_append, List.append_assoc, colon, semicolon, List.cons_append,
    List.nil_append]

/-- The constant is on one line, and its name ends where the type begins. -/
structure Legible (c : Constant) : Prop where
  name : ∀ d ∈ c.name.toList, d ≠ ':' ∧ d ≠ '\n'
  type : '\n' ∉ c.type.toList
  value : '\n' ∉ c.value.toList

theorem Legible.single (legible : c.Legible) : '\n' ∉ c.text.toList := by
  have name : '\n' ∉ c.name.toList := fun member => (legible.name _ member).2 rfl
  rw [toList_text]
  simp only [List.mem_append, List.mem_cons, List.not_mem_nil, or_false, not_or]
  exact ⟨by simp, name, by decide, by decide, legible.type, by simp, legible.value, by decide⟩

/-- A constant is no array. -/
theorem readDeclaration_text (c : Constant) (rest : List (List Char)) :
    readDeclaration c.text.toList rest =
      (readConstant c.text.toList).map fun (name, n) => .constant name n := by
  have unread : readHead c.text.toList = none := by
    rw [readHead, toList_text, Text.toList_of_spelled rfl, Text.toList_of_spelled rfl]
    rfl
  have array : readArray c.text.toList rest = none := by
    rw [readArray, unread]
    rfl
  rw [readDeclaration, array, Option.map_none, Option.none_or]

/-- A constant is read from its type on. -/
theorem Legible.readConstant (legible : c.Legible) : readConstant c.text.toList =
    (readNumberIn ": u32 = " ";" (':' :: ' ' :: (c.type.toList ++ (" = ".toList ++
      (c.value.toList ++ [';']))))).map fun n => (c.name, n) := by
  have whole : ∀ d ∈ c.name.toList, decide (d ≠ ':') = true :=
    fun d member => decide_eq_true (legible.name d member).1
  rw [toList_text]
  simp only [Generated.readConstant, isPrefixOf?_append, bind, Option.bind_some]
  rw [dropWhile_append_of_stop whole rfl, takeWhile_append_of_stop whole rfl, String.ofList_toList]
  cases readNumberIn ": u32 = " ";" _ <;> rfl

theorem found_constants {list : List Constant} (legible : ∀ c ∈ list, c.Legible)
    (rest : List (List Char)) :
    found readDeclaration ((list.map item).flatMap Item.textLines ++ rest) =
      (list.filterMap fun c => Generated.readConstant c.text.toList).map
        (fun (name, n) => .constant name n) ++ found readDeclaration rest := by
  induction list with
  | nil => rfl
  | cons c list ih =>
    have later := ih fun d member => legible d (List.mem_cons_of_mem _ member)
    have lines : c.item.textLines = [c.text.toList, []] :=
      textLines_raw (legible c List.mem_cons_self).single
    rw [List.map_cons, List.flatMap_cons, lines, List.append_assoc, List.cons_append,
      List.cons_append, List.nil_append, found, found, inner_nil.readDeclaration, later,
      readDeclaration_text, List.filterMap_cons]
    cases Generated.readConstant c.text.toList <;> rfl

end Constant

section Constants

variable (t : Tables)

theorem legible_constants : ∀ c ∈ constants t, c.Legible := by
  have plain : ∀ name ∈ ["DEAD", "NUM_STATES", "NUM_CLASSES", "BOL_CLASS", "EOL_CLASS"],
      ∀ d ∈ name.toList, d ≠ ':' ∧ d ≠ '\n' := by simp
  simp only [List.forall_mem_cons] at plain
  obtain ⟨dead, states, classes, lineStart, lineEnd, _⟩ := plain
  intro c member
  simp only [constants, List.mem_cons, List.not_mem_nil, or_false] at member
  rcases member with rfl | rfl | rfl | rfl | rfl
  · exact ⟨dead, by simp, by simp⟩
  · exact ⟨states, by simp, (legible_number _).single⟩
  · exact ⟨classes, by simp, (legible_number _).single⟩
  · exact ⟨lineStart, by simp, (legible_option _).single⟩
  · exact ⟨lineEnd, by simp, (legible_option _).single⟩

/-- The words among the constants are found in order. -/
theorem found_words (rest : List (List Char)) :
    found readDeclaration (((constants t).map Constant.item).flatMap Item.textLines ++ rest) =
      .constant "NUM_STATES" t.numStates :: .constant "NUM_CLASSES" t.numClasses ::
        found readDeclaration rest := by
  have legible := legible_constants t
  rw [Constant.found_constants legible]
  simp only [constants, List.forall_mem_cons] at legible ⊢
  obtain ⟨dead, states, classes, lineStart, lineEnd, _⟩ := legible
  have word (n : Nat) : readNumberIn ": u32 = " ";"
      (':' :: ' ' :: ("u32".toList ++ (" = ".toList ++ ((toString n).toList ++ [';'])))) = some n := by
    rw [toList_toString]
    exact readNumberIn_digits rfl rfl
  have optional (text : List Char) :
      readNumberIn ": u32 = " ";" (':' :: ' ' :: ("Option<u32>".toList ++ text)) = none := rfl
  have noWord : readNumberIn ": u32 = " ";"
      (':' :: ' ' :: ("u32".toList ++ (" = ".toList ++ ("u32::MAX".toList ++ [';'])))) = none := rfl
  simp only [List.filterMap_cons, List.filterMap_nil, dead.readConstant, states.readConstant,
    classes.readConstant, lineStart.readConstant, lineEnd.readConstant, word, optional, noWord,
    Option.map_some, Option.map_none, List.map_cons, List.map_nil]
  rfl

end Constants

section Front

variable (style : Style) (named : Spec) (name : String)

/-- The items in front of the constants. -/
def frontItems : List Item :=
  ruleType (style.ruleTypeName name) (style.ruleVariants named) ::
    ruleFunctions (style.ruleTypeName name) (named.rules.map Rule.name) (style.ruleVariants named) ::
    tagTypes

/-- A block with a name on one line is silent. -/
theorem silent_typed (opening typeName : String) (single : '\n' ∉ typeName.toList)
    (plain : '\n' ∉ opening.toList)
    (differs : ∀ text behind, readDeclaration (opening.toList ++ text) behind = none)
    (body : List Code) : (Code.block (opening ++ typeName) body).Silent := by
  refine silent_block ?_ (fun behind => ?_) body
  · rw [String.toList_append, List.mem_append, not_or]
    exact ⟨plain, single⟩
  · rw [String.toList_append, String.toList_append, List.append_assoc]
    exact differs _ behind

theorem silent_traitsLine {traits : List String} (single : ∀ trait ∈ traits, '\n' ∉ trait.toList) :
    (traitsLine traits).Silent := by
  have letters : ("#[derive(" ++ ", ".intercalate traits ++ ")]").toList =
      "#[derive(".toList ++ ((", ".intercalate traits).toList ++ ")]".toList) := by
    rw [String.toList_append, String.toList_append, List.append_assoc]
  refine silent_line ?_ ?_ ?_
  · rw [letters, List.mem_append, List.mem_append, not_or, not_or]
    exact ⟨by simp, newline_not_mem_intercalate single, by simp⟩
  · rw [letters]
    exact List.append_ne_nil_of_left_ne_nil (by simp) _
  · rw [letters]
    rfl

theorem silent_representationLine : (representationLine "u32").Silent :=
  silent_line (by simp [toString]) (by simp [toString]) rfl

theorem silent_enumeration {typeName : String} (single : '\n' ∉ typeName.toList)
    {traits : List String} (plain : ∀ trait ∈ traits, '\n' ∉ trait.toList)
    {representation : Option String} (known : representation = none ∨ representation = some "u32")
    (variants : List String) :
    (Item.enumeration typeName traits representation variants).Silent := by
  refine silent_layOut rfl fun part member => ?_
  simp only [Item.code, List.cons_append, List.mem_cons, List.mem_append, List.not_mem_nil,
    or_false] at member
  rcases member with rfl | shown | rfl
  · exact silent_traitsLine plain
  · rcases known with rfl | rfl
    · cases shown
    · rw [List.mem_singleton.mp shown]
      exact silent_representationLine
  · exact silent_typed "pub enum " typeName single (by simp) (fun _ _ => rfl) _

/-- A name without line feeds declares nothing. -/
theorem silent_front (single : '\n' ∉ (style.ruleTypeName name).toList) :
    ∀ item ∈ frontItems style named name, item.Silent := by
  have plain : ∀ trait ∈ ["Clone", "Copy", "Debug"], '\n' ∉ trait.toList := by simp
  intro item member
  simp only [frontItems, tagTypes, List.mem_cons, List.not_mem_nil, or_false] at member
  rcases member with rfl | rfl | rfl | rfl
  · exact silent_enumeration single (by simp) (ite_eq_or_eq _ _ _) _
  · refine silent_layOut rfl fun part known => ?_
    rw [List.mem_singleton.mp known]
    exact silent_typed "impl " _ single (by simp) (fun _ _ => rfl) _
  · exact silent_enumeration (by simp) plain (Or.inl rfl) _
  · refine silent_layOut rfl fun part known => ?_
    rcases List.mem_pair.mp known with rfl | rfl
    · exact silent_traitsLine plain
    · exact silent_typed "pub struct " "Accept" (by simp) (by simp) (fun _ _ => rfl) _

end Front

end Scangen.Generated
