import Mathlib.Data.List.Basic
import Scangen.Generated.Module
import Scangen.Generated.Reading

/-!
The lines of a generated text are those of its items, with an empty line behind each item. In a block
of code each line that is not empty is further in than the head of the block.
-/

namespace Scangen

theorem Text.newline_not_mem_lines (text : List Char) :
    ∀ line ∈ Text.lines text, '\n' ∉ line := by
  fun_induction Text.lines text with
  | case1 => simp
  | case2 rest ih => simpa using ih
  | case3 rest ih => simpa using ih
  | case4 c rest other _ _ _ => simpa using Ne.symm other
  | case5 c rest other _ line others same ih =>
    rw [same] at ih
    have first := ih line List.mem_cons_self
    have later := fun l member => ih l (List.mem_cons_of_mem _ member)
    simpa [first] using ⟨fun equal => other equal.symm, later⟩

theorem Text.lines_of_single {text : List Char} (single : '\n' ∉ text) (nonempty : text ≠ []) :
    Text.lines text = [text] := by
  induction text with
  | nil => exact absurd rfl nonempty
  | cons c rest ih =>
    rw [List.mem_cons, not_or] at single
    rw [Text.lines]
    · cases rest with
      | nil => rfl
      | cons d rest => rw [ih single.2 (List.cons_ne_nil _ _)]
    · exact fun same => single.1 same.symm
    · rintro behind rfl rfl
      exact single.2 List.mem_cons_self

/-- The letters of a text that is written out. -/
theorem Text.toList_of_spelled {text : String} {letters : List Char}
    (spelled : text = String.ofList letters) : text.toList = letters := by
  rw [spelled, String.toList_ofList]

namespace Generated

section Blocks

variable {depth : Nat} {line : String}

theorem toList_indented (depth : Nat) (content : List Char) : (indented depth content).toList =
    if content = [] then [] else List.replicate (4 * depth) ' ' ++ content := by
  unfold indented
  split
  next => rfl
  next => rw [String.toList_ofList]

/-- A line that starts at a depth or further in. -/
def Inside (depth : Nat) (line : String) : Prop :=
  ∃ d content, depth ≤ d ∧ '\n' ∉ content ∧ line = indented d content

theorem Inside.newline_not_mem (inside : Inside depth line) : '\n' ∉ line.toList := by
  obtain ⟨d, content, _, single, rfl⟩ := inside
  rw [toList_indented]
  split
  next => exact List.not_mem_nil
  next =>
    rw [List.mem_append, List.mem_replicate]
    rintro (⟨_, same⟩ | member)
    · cases same
    · exact single member

/-- Inside of a block, a line is empty or begins with a blank. -/
theorem Inside.blank (inside : Inside (depth + 1) line) :
    line.toList = [] ∨ ∃ rest, line.toList = ' ' :: rest := by
  obtain ⟨d, content, further, _, rfl⟩ := inside
  rw [toList_indented]
  split
  next => exact Or.inl rfl
  next =>
    obtain ⟨blanks, more⟩ := Nat.exists_eq_add_of_lt (show 0 < 4 * d by omega)
    rw [more, Nat.zero_add, List.replicate_succ]
    exact Or.inr ⟨_, rfl⟩

theorem inside_linesAt {text : String} (member : line ∈ linesAt depth text) :
    Inside depth line := by
  obtain ⟨content, listed, rfl⟩ := List.mem_map.mp member
  exact ⟨depth, content, Nat.le_refl _, Text.newline_not_mem_lines _ content listed, rfl⟩

theorem Inside.outer (inside : Inside (depth + 1) line) : Inside depth line := by
  obtain ⟨d, content, further, rest⟩ := inside
  exact ⟨d, content, Nat.le_of_succ_le further, rest⟩

mutual

theorem Code.inside_lines (depth : Nat) :
    ∀ code : Code, ∀ l ∈ code.lines depth, Inside depth l
  | .line text, l, member => inside_linesAt (by simpa only [Code.lines] using member)
  | .block head body, l, member => by
    rw [Code.lines, List.mem_append, List.mem_append] at member
    rcases member with (first | within) | last
    · exact inside_linesAt first
    · exact (Code.inside_allLines (depth + 1) body l within).outer
    · rw [List.mem_singleton.mp last]
      exact ⟨depth, _, Nat.le_refl _, by decide, rfl⟩

theorem Code.inside_allLines (depth : Nat) :
    ∀ body : List Code, ∀ l ∈ Code.allLines depth body, Inside depth l
  | [], l, member => absurd member (by simp [Code.allLines])
  | code :: rest, l, member => by
    rw [Code.allLines, List.mem_append] at member
    rcases member with first | later
    · exact Code.inside_lines depth code l first
    · exact Code.inside_allLines depth rest l later

end

end Blocks

section Stops

variable {α : Type} {p : α → Bool} {front rest : List α}

theorem takeWhile_append_of_stop (all : ∀ a ∈ front, p a = true) (stop : rest.takeWhile p = []) :
    (front ++ rest).takeWhile p = front := by
  rw [List.takeWhile_append_of_pos all, stop, List.append_nil]

theorem dropWhile_append_of_stop (all : ∀ a ∈ front, p a = true) (stop : rest.dropWhile p = rest) :
    (front ++ rest).dropWhile p = rest := by
  rw [List.dropWhile_append_of_pos all, stop]

end Stops

theorem splitOn_append_cons {a : Char} (front rest : List Char) :
    (front ++ a :: rest).splitOn a = front.splitOn a ++ rest.splitOn a := by
  simp only [List.splitOn]
  exact List.splitOnP_append_cons front rest (by simp)

theorem textLines_intercalate {lines : List String} (nonempty : lines ≠ [])
    (single : ∀ line ∈ lines, '\n' ∉ line.toList) :
    textLines ("\n".intercalate lines) = lines.map String.toList := by
  rw [textLines, String.toList_intercalate]
  refine List.splitOn_intercalate '\n' (fun l member => ?_) (by simpa using nonempty)
  obtain ⟨line, listed, rfl⟩ := List.mem_map.mp member
  exact single line listed

/-- The lines of an item and the empty one behind them. -/
def Item.textLines (item : Item) : List (List Char) := Generated.textLines item.text ++ [[]]

theorem textLines_append_newlines (front rest : String) :
    textLines (front ++ "\n\n" ++ rest) = textLines front ++ [[]] ++ textLines rest := by
  simp only [textLines, String.toList_append, List.append_assoc]
  exact (splitOn_append_cons _ _).trans (congrArg _ (splitOn_append_cons [] _))

theorem Formats.text {format : List Item → String} (formats : Formats format) (item : Item) :
    format [item] = item.text := by
  cases item with
  | raw text => exact formats.raw text
  | function f => exact formats.function f
  | enumeration name traits representation variants =>
    exact formats.enumeration name traits representation variants
  | record name traits fields => exact formats.record name traits fields
  | methods name functions => exact formats.methods name functions

/-- The lines of a module are those of its items. -/
theorem Formats.textLines {format : List Item → String} (formats : Formats format)
    {items : List Item} (nonempty : items ≠ []) :
    textLines (format items ++ "\n") = items.flatMap Item.textLines := by
  rw [formats.separated items nonempty, funext formats.text]
  clear formats
  induction items with
  | nil => exact absurd rfl nonempty
  | cons item rest ih =>
    rw [List.flatMap_cons, Item.textLines, List.map_cons]
    cases rest with
    | nil =>
      rw [List.flatMap_nil, List.append_nil, List.map_nil, String.intercalate_singleton]
      simp only [Generated.textLines, String.toList_append]
      exact splitOn_append_cons _ []
    | cons second rest =>
      rw [← ih (List.cons_ne_nil _ _), ← textLines_append_newlines, List.map_cons,
        String.intercalate_cons_cons, String.append_assoc]

section Found

variable {α : Type} {read : List Char → List (List Char) → Option α} {front rest : List (List Char)}

/-- What is found further on does not depend on the lines in front. -/
theorem exists_found_append (front rest : List (List Char)) :
    ∃ others, found read (front ++ rest) = others ++ found read rest := by
  induction front with
  | nil => exact ⟨[], rfl⟩
  | cons line front ih =>
    obtain ⟨others, same⟩ := ih
    rw [List.cons_append, found, same]
    exact ⟨_, (List.append_assoc _ _ _).symm⟩

theorem found_append (nothing : ∀ line ∈ front, ∀ behind, read line behind = none) :
    found read (front ++ rest) = found read rest := by
  induction front with
  | nil => rfl
  | cons line front ih =>
    rw [List.cons_append, found, nothing line List.mem_cons_self, Option.toList_none,
      List.nil_append, ih fun l member => nothing l (List.mem_cons_of_mem _ member)]

end Found

/-- The line is empty or does not begin with a letter. -/
def Inner (line : List Char) : Prop := line.head?.any Char.isAlpha = false

section Inner

variable {line : List Char}

theorem inner_nil : Inner [] := rfl

theorem Inner.ne (inner : Inner line) {c : Char} {rest : List Char} (letter : c.isAlpha = true) :
    line ≠ c :: rest := by
  rintro rfl
  exact absurd (letter.symm.trans inner) (by decide)

theorem Inner.isPrefixOf?_eq_none (inner : Inner line) {c : Char} {opening : List Char}
    (letter : c.isAlpha = true) : (c :: opening).isPrefixOf? line = none := by
  cases begun : (c :: opening).isPrefixOf? line with
  | none => rfl
  | some behind =>
    exact absurd (List.isPrefixOf?_eq_some_iff_append_eq.mp begun).symm (inner.ne letter)

theorem Inner.readDeclaration (inner : Inner line) (rest : List (List Char)) :
    readDeclaration line rest = none := by
  have array : readArray line rest = none := by
    have head : readHead line = none := by
      rw [readHead, show "pub static ".toList.isPrefixOf? line = none from
        inner.isPrefixOf?_eq_none rfl]
      rfl
    rw [readArray, head]
    rfl
  have constant : readConstant line = none := by
    rw [readConstant, show "pub const ".toList.isPrefixOf? line = none from
      inner.isPrefixOf?_eq_none rfl]
    rfl
  rw [Generated.readDeclaration, array, constant]
  rfl

theorem Inner.readFunction (inner : Inner line) (rest : List (List Char)) :
    readFunction line rest = none := by
  have differs {c : Char} {opening : List Char} (letter : c.isAlpha = true) :
      ¬c :: opening <+: line := by
    rintro ⟨behind, same⟩
    exact inner.ne letter same.symm
  rw [Generated.readFunction, if_neg]
  rintro (begun | begun)
  · exact differs rfl begun
  · exact differs rfl begun

end Inner

/-- No line of the item declares anything. -/
def Item.Silent (item : Item) : Prop :=
  ∀ line ∈ item.textLines, ∀ behind, readDeclaration line behind = none

theorem found_append_of_silent {items : List Item} (silent : ∀ item ∈ items, item.Silent)
    (rest : List (List Char)) :
    found readDeclaration (items.flatMap Item.textLines ++ rest) = found readDeclaration rest := by
  refine found_append fun line member behind => ?_
  obtain ⟨item, listed, inside⟩ := List.mem_flatMap.mp member
  exact silent item listed line inside behind

end Generated

end Scangen
