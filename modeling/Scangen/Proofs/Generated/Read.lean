import Scangen.Proofs.Generated.Items

/-!
What is read from the text of a generated scanner: the arrays of its tables, the number of classes, and the
functions that look things up. The name of the scanner stands in front of all that, and cannot hide it.
-/

namespace Scangen.Generated

section Text

variable {style : Style} (formats : Formats style.format) (t : Tables) (named : Spec) (name : String)
include formats

/-- The text in lines: first what the scanner is called, then its constants, arrays and functions. -/
theorem textLines_generateIn : textLines (t.generateIn style named name) =
    (frontItems style named name).flatMap Item.textLines ++
      (((constants t).map Constant.item).flatMap Item.textLines ++
        (((arrays t).map ConstantArray.item).flatMap Item.textLines ++
          ((lookups t.classMap t.transitions).map Item.function).flatMap Item.textLines)) := by
  have parts : style.items t named name = frontItems style named name ++ ((constants t).map Constant.item ++
      ((arrays t).map ConstantArray.item ++
        (lookups t.classMap t.transitions).map Item.function)) := by
    simp only [Style.items, frontItems, List.cons_append, List.append_assoc]
  have nonempty : style.items t named name ≠ [] := List.cons_ne_nil _ _
  rw [Tables.generateIn, formats.textLines nonempty, parts, List.flatMap_append,
    List.flatMap_append, List.flatMap_append]

/-- What the tables declare. -/
def declarationsOf : List Declaration :=
  .constant "NUM_STATES" t.numStates :: .constant "NUM_CLASSES" t.numClasses ::
    (arrays t).map fun a => .array a a.values.length

omit formats in
theorem declaration_names_nodup : ((declarationsOf t).map Declaration.name).Nodup := by
  have names : (declarationsOf t).map Declaration.name =
      "NUM_STATES" :: "NUM_CLASSES" :: (arrays t).map ConstantArray.name := by
    simp only [declarationsOf, List.map_cons, List.map_map]
    rfl
  rw [names]
  exact names_nodup t

/-- The tables are declared as they are; the name may only add declarations in front of that. -/
theorem declarations_read : ∃ others, (read (t.generateIn style named name)).declarations =
    others ++ declarationsOf t ∧ ('\n' ∉ (style.ruleTypeName name).toList → others = []) := by
  have functions : found readDeclaration
      (((lookups t.classMap t.transitions).map Item.function).flatMap Item.textLines) = [] := by
    rw [← List.append_nil (List.flatMap _ _), found_append_of_silent (silent_lookups _ _), found]
  have rest : found readDeclaration (((constants t).map Constant.item).flatMap Item.textLines ++
      (((arrays t).map ConstantArray.item).flatMap Item.textLines ++
        ((lookups t.classMap t.transitions).map Item.function).flatMap Item.textLines)) =
      declarationsOf t := by
    rw [found_words, found_arrays (legible_arrays t), functions, List.append_nil]
    rfl
  simp only [read]
  rw [textLines_generateIn formats]
  by_cases single : '\n' ∉ (style.ruleTypeName name).toList
  · refine ⟨[], ?_, fun _ => rfl⟩
    rw [found_append_of_silent (silent_front style named name single), rest, List.nil_append]
  · obtain ⟨others, same⟩ : ∃ others, found readDeclaration _ = others ++ found readDeclaration _ :=
      exists_found_append ((frontItems style named name).flatMap Item.textLines) _
    exact ⟨others, by rw [same, rest], fun plain => absurd plain single⟩

/-- The functions are read behind all others. -/
theorem functions_read : ∃ others, (read (t.generateIn style named name)).functions =
    others ++ definitions t.classMap t.transitions := by
  have last : found readFunction
      (((lookups t.classMap t.transitions).map Item.function).flatMap Item.textLines) =
      definitions t.classMap t.transitions := by
    rw [found_functions (single_of_mem_lookups _ _), filterMap_definitionOf]
  simp only [read]
  rw [textLines_generateIn formats, ← List.append_assoc, ← List.append_assoc, ← last]
  exact exists_found_append _ _

end Text

end Scangen.Generated
