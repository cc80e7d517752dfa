import Mathlib.Data.List.Basic
import Scangen.Proofs.Generated.Lines

/-!
The functions of a generated scanner are found by their heads, each with its own lines, and read from them.
All lines of a body are further in than the head, so none of them begins anything else.
-/

namespace Scangen.Generated

section Single

variable {text : String}

theorem linesAt_single (depth : Nat) (single : '\n' ∉ text.toList) (nonempty : text.toList ≠ []) :
    linesAt depth text = [indented depth text.toList] := by
  rw [linesAt, Text.lines_of_single single nonempty, List.map_singleton]

theorem toList_indented_zero (content : List Char) : (indented 0 content).toList = content := by
  rw [toList_indented]
  split
  next nothing => exact nothing.symm
  next => rfl

theorem textLines_raw (single : '\n' ∉ text.toList) :
    (Item.raw text).textLines = [text.toList, []] := by
  have lines := textLines_intercalate (List.cons_ne_nil text []) (by simpa using single)
  rw [String.intercalate_singleton] at lines
  rw [Item.textLines, Item.text, lines]
  rfl

end Single

section Silent

theorem mem_allLines {depth : Nat} {parts : List Code} {line : String} :
    line ∈ Code.allLines depth parts ↔ ∃ part ∈ parts, line ∈ part.lines depth := by
  induction parts with
  | nil => simp [Code.allLines]
  | cons part parts ih =>
    simp only [Code.allLines, List.mem_append, ih, List.mem_cons, or_and_right, exists_or,
      exists_eq_left]

/-- The lines of code that is laid out; there is an empty one if there is no code. -/
theorem mem_textLines_layOut {parts : List Code} {line : List Char}
    (member : line ∈ textLines (layOut parts)) :
    line = [] ∨ ∃ text ∈ Code.allLines 0 parts, text.toList = line := by
  by_cases nothing : Code.allLines 0 parts = []
  · rw [layOut, nothing] at member
    exact Or.inl (List.mem_singleton.mp member)
  · rw [layOut, textLines_intercalate nothing fun text shown =>
      (Code.inside_allLines 0 parts text shown).newline_not_mem] at member
    exact Or.inr (List.mem_map.mp member)

/-- No line of the code declares anything. -/
def Code.Silent (code : Code) : Prop :=
  ∀ line ∈ code.lines 0, ∀ behind, readDeclaration line.toList behind = none

/-- Code declares what one of its parts declares. -/
theorem silent_layOut {item : Item} {parts : List Code} (shown : item.text = layOut parts)
    (silent : ∀ part ∈ parts, part.Silent) : item.Silent := by
  intro line member behind
  rcases List.mem_append.mp member with inside | last
  · rw [shown] at inside
    rcases mem_textLines_layOut inside with rfl | ⟨text, listed, rfl⟩
    · exact inner_nil.readDeclaration behind
    · obtain ⟨part, known, within⟩ := mem_allLines.mp listed
      exact silent part known text within behind
  · rw [List.mem_singleton.mp last]
    exact inner_nil.readDeclaration behind

theorem silent_line {text : String} (single : '\n' ∉ text.toList) (nonempty : text.toList ≠ [])
    (inner : Inner text.toList) : (Code.line text).Silent := by
  intro line member behind
  rw [Code.lines, linesAt_single 0 single nonempty, List.mem_singleton] at member
  rw [member, toList_indented_zero]
  exact inner.readDeclaration behind

end Silent

/-- The lines that are laid out for the body of a function. -/
def bodyLines (body : List Code) : List (List Char) := (Code.allLines 1 body).map String.toList

section Body

variable {body : List Code}

/-- A body lies inside of its function. -/
theorem blank_of_mem_bodyLines :
    ∀ line ∈ bodyLines body, line = [] ∨ ∃ rest, line = ' ' :: rest := by
  intro line member
  obtain ⟨text, listed, rfl⟩ := List.mem_map.mp member
  exact (Code.inside_allLines 1 body text listed).blank

theorem inner_of_mem_bodyLines : ∀ line ∈ bodyLines body ++ [['\x7d'], []], Inner line := by
  intro line member
  rw [List.mem_append, List.mem_cons, List.mem_singleton] at member
  rcases member with within | rfl | rfl
  · rcases blank_of_mem_bodyLines line within with rfl | ⟨rest, rfl⟩ <;> rfl
  · rfl
  · rfl

/-- A body ends at the brace behind it. -/
theorem takeWhile_bodyLines (rest : List (List Char)) :
    (bodyLines body ++ ['\x7d'] :: rest).takeWhile (· ≠ ['\x7d']) = bodyLines body := by
  refine takeWhile_append_of_stop (fun line member => ?_) (List.takeWhile_cons_of_neg (by simp))
  rcases blank_of_mem_bodyLines line member with rfl | ⟨rest, rfl⟩
  · rfl
  · simp

end Body

section Head

variable {head : String} {body : List Code}

theorem toList_opening (head : String) :
    (head ++ " \x7b").toList = head.toList ++ [' ', '\x7b'] := String.toList_append

theorem lines_block (single : '\n' ∉ head.toList) :
    ((Code.block head body).lines 0).map String.toList =
      (head ++ " \x7b").toList :: (bodyLines body ++ [['\x7d']]) := by
  have plain : '\n' ∉ (head ++ " \x7b").toList := by
    rw [toList_opening, List.mem_append, not_or]
    exact ⟨single, by decide⟩
  have nonempty : (head ++ " \x7b").toList ≠ [] := by
    rw [toList_opening]
    exact List.append_ne_nil_of_right_ne_nil _ (List.cons_ne_nil _ _)
  rw [Code.lines, linesAt_single 0 plain nonempty]
  simp only [List.map_append, List.map_cons, List.map_nil, toList_indented_zero, List.cons_append,
    List.nil_append]
  rfl

/-- Within a block nothing is declared. -/
theorem silent_block (single : '\n' ∉ head.toList)
    (silent : ∀ behind, readDeclaration (head ++ " \x7b").toList behind = none)
    (body : List Code) : (Code.block head body).Silent := by
  have all : ∀ l ∈ bodyLines body ++ [['\x7d'], []], Inner l := inner_of_mem_bodyLines
  intro line member behind
  have member := List.mem_map_of_mem (f := String.toList) member
  rw [lines_block single] at member
  rcases List.mem_cons.mp member with same | inside
  · rw [same]
    exact silent behind
  · refine (all _ ?_).readDeclaration behind
    exact List.mem_append.mpr ((List.mem_append.mp inside).imp_right fun brace =>
      List.mem_cons.mpr (Or.inl (List.mem_singleton.mp brace)))

theorem textLines_function {f : Function} (single : '\n' ∉ f.head.toList) :
    (Item.function f).textLines =
      (f.head ++ " \x7b").toList :: (bodyLines f.body ++ [['\x7d'], []]) := by
  have lines : (Code.allLines 0 [f.code]).map String.toList =
      (f.head ++ " \x7b").toList :: (bodyLines f.body ++ [['\x7d']]) := by
    rw [Code.allLines, Code.allLines, List.append_nil, Function.code, lines_block single]
  have nonempty : Code.allLines 0 [f.code] ≠ [] := by
    rintro nothing
    rw [nothing] at lines
    cases lines
  rw [Item.textLines]
  change textLines (layOut [f.code]) ++ [[]] = _
  rw [layOut, textLines_intercalate nonempty fun text shown =>
    (Code.inside_allLines 0 [f.code] text shown).newline_not_mem, lines, List.cons_append,
    List.append_assoc]
  rfl

end Head

/-- What is read of a function. -/
def definitionOf (f : Function) : Option Definition :=
  readDefinition (tokens (f.head ++ " \x7b").toList) (tokens (['\n'].intercalate (bodyLines f.body)))

section Functions

variable {rest : List (List Char)}

theorem found_function {f : Function} (single : '\n' ∉ f.head.toList) :
    found readFunction ((Item.function f).textLines ++ rest) =
      (definitionOf f).toList ++ found readFunction rest := by
  have begins : "pub fn ".toList <+: (f.head ++ " \x7b").toList ∨
      "fn ".toList <+: (f.head ++ " \x7b").toList := by
    unfold Function.head
    simp only [String.toList_append, List.append_assoc]
    cases f.isPublic
    · exact Or.inr (List.prefix_append _ _)
    · exact Or.inl (List.prefix_append _ _)
  have here : readFunction (f.head ++ " \x7b").toList (bodyLines f.body ++ [['\x7d'], []] ++ rest) =
      definitionOf f := by
    rw [readFunction, if_pos begins, List.append_assoc, List.cons_append, takeWhile_bodyLines]
    rfl
  have inside : ∀ line ∈ bodyLines f.body ++ [['\x7d'], []], ∀ behind,
      readFunction line behind = none :=
    fun line member behind => (inner_of_mem_bodyLines line member).readFunction behind
  rw [textLines_function single, List.cons_append, Generated.found, here, found_append inside]

/-- Functions are found in order. -/
theorem found_functions {functions : List Function}
    (single : ∀ f ∈ functions, '\n' ∉ f.head.toList) :
    found readFunction ((functions.map Item.function).flatMap Item.textLines) =
      functions.filterMap definitionOf := by
  induction functions with
  | nil => rfl
  | cons f functions ih =>
    rw [List.map_cons, List.flatMap_cons, found_function (single f List.mem_cons_self),
      ih fun g member => single g (List.mem_cons_of_mem _ member), List.filterMap_cons]
    cases definitionOf f <;> rfl

theorem silent_function {f : Function} (single : '\n' ∉ f.head.toList)
    (silent : ∀ behind, readDeclaration (f.head ++ " \x7b").toList behind = none) :
    (Item.function f).Silent :=
  silent_layOut rfl fun part member => by
    rw [List.mem_singleton.mp member]
    exact silent_block single silent f.body

end Functions

section Lookups

variable (classMap : ClassMap) (transitions : Transitions)

/-- The heads are the same for all tables. -/
theorem head_of_mem_lookups : ∀ f ∈ lookups classMap transitions,
    f.head ∈ [rowLookup.head, (classLookup (.dense #[])).head, (stateLookup (.dense #[])).head] := by
  intro f listed
  rcases List.mem_append.mp listed with first | last
  · cases transitions with
    | dense => cases first
    | rows | squeezed =>
      rw [List.mem_singleton.mp first]
      exact List.mem_cons_self
  · rw [List.mem_cons, List.mem_singleton] at last
    rcases last with rfl | rfl
    · exact List.mem_cons_of_mem _ List.mem_cons_self
    · exact List.mem_cons_of_mem _ (List.mem_cons_of_mem _ List.mem_cons_self)

theorem single_of_mem_lookups : ∀ f ∈ lookups classMap transitions, '\n' ∉ f.head.toList := by
  intro f listed
  have head := head_of_mem_lookups classMap transitions f listed
  simp only [List.mem_cons, List.not_mem_nil, or_false] at head
  rcases head with head | head | head <;> rw [head] <;> decide +kernel

/-- A function that looks something up declares neither an array nor a constant. -/
theorem silent_lookups :
    ∀ item ∈ (lookups classMap transitions).map Item.function, item.Silent := by
  intro item member
  obtain ⟨f, listed, rfl⟩ := List.mem_map.mp member
  refine silent_function (single_of_mem_lookups classMap transitions f listed) fun behind => ?_
  have head := head_of_mem_lookups classMap transitions f listed
  simp only [List.mem_cons, List.not_mem_nil, or_false] at head
  rcases head with head | head | head <;> rw [head] <;> rfl

end Lookups

section Definitions

open Expression (named number)

/-- A word as a place in a list. -/
def Expression.place (value : Expression) : Expression := value.cast "usize"

/-- The page of the symbol `c`. -/
def pageOf : Expression :=
  .place (.follow (.required ((named "CLASS_INDEX").method "get"
    (.place (.binary .shiftRight (named "c") (number 8))))))

/-- The class of `c` in its page. -/
def entryOf : Expression :=
  .index (named "CLASS_PAGES") (.binary .sum (.binary .product (named "page") (number 256))
    (.binary .both (named "c").place (number 0xFF)))

def classDefinition (classMap : ClassMap) : Definition where
  name := "class_of"
  arguments := .single "c"
  body :=
    match classMap with
    | .dense _ => ⟨[], ((named "CLASS_MAP").method "get" (named "c").place).method "copied" .unit⟩
    | .paged _ _ => ⟨[(.single "page", pageOf)], .call "Some" entryOf⟩

/-- Where exceptions begin, or end. -/
def offsetAt (place : Expression) : Expression :=
  Expression.place (.index (named "EXCEPTION_OFFSET") place)

/-- The place of the class among the exceptions of the row. -/
def placeOfClass : Expression :=
  (Expression.index (named "EXCEPTION_CLASS") (.binary .range (named "low") (named "high"))).method
    "binary_search" (.borrow (named "class"))

def rowDefinition : Definition where
  name := "row_lookup"
  arguments := .pair "state" "class"
  body :=
    ⟨[(.pair "low" "high", .pair (offsetAt (named "state").place)
        (offsetAt (.binary .sum (named "state").place (number 1))))],
      .search placeOfClass "i"
        (.index (named "EXCEPTION_NEXT") (.binary .sum (named "low") (named "i")))
        (.index (named "DEFAULT") (named "state").place)⟩

def stateDefinition (transitions : Transitions) : Definition where
  name := "next_state"
  arguments := .pair "state" "class"
  body :=
    ⟨[], match transitions with
      | .dense _ => .index (named "NEXT") (.place
          (.binary .sum (.binary .product (named "state") (named "NUM_CLASSES")) (named "class")))
      | .rows _ => .call "row_lookup" (.pair (named "state") (named "class"))
      | .squeezed _ _ => .call "row_lookup"
          (.pair (named "state") (.index (named "META") (named "class").place))⟩

/-- The lines of a body without blocks, each of them further in than the head. -/
theorem bodyLines_lines (texts : List String) : bodyLines (texts.map .line) =
    texts.flatMap fun text => (Text.lines text.toList).map fun content =>
      if content = [] then [] else [' ', ' ', ' ', ' '] ++ content := by
  induction texts with
  | nil => rfl
  | cons text texts ih =>
    rw [List.map_cons, bodyLines, Code.allLines, List.map_append, List.flatMap_cons, ← ih, Code.lines,
      linesAt, List.map_map]
    congr 1
    exact List.map_congr_left fun content _ => toList_indented 1 content

theorem definitionOf_lines {f : Function} {texts : List String} (body : f.body = texts.map .line) :
    definitionOf f = readDefinition (tokens (f.head.toList ++ [' ', '\x7b']))
      (tokens (['\n'].intercalate (texts.flatMap fun text =>
        (Text.lines text.toList).map fun content =>
          if content = [] then [] else [' ', ' ', ' ', ' '] ++ content))) := by
  rw [definitionOf, body, bodyLines_lines, toList_opening]

/-- What is read of a function does not depend on the tables that it is for. -/
theorem definitionOf_lookups :
    definitionOf rowLookup = some rowDefinition ∧
      definitionOf (classLookup (.dense #[])) = some (classDefinition (.dense #[])) ∧
      definitionOf (classLookup (.paged #[] #[])) = some (classDefinition (.paged #[] #[])) ∧
      definitionOf (stateLookup (.dense #[])) = some (stateDefinition (.dense #[])) ∧
      definitionOf (stateLookup (.rows #[])) = some (stateDefinition (.rows #[])) ∧
      definitionOf (stateLookup (.squeezed #[] #[])) =
        some (stateDefinition (.squeezed #[] #[])) := by
  repeat rw [definitionOf_lines rfl]
  simp only [List.flatMap_cons, List.flatMap_nil, Function.head, rowLookup, classLookup, stateLookup,
    String.toList_append]
  -- It is slow to compute the letters of a text.
  repeat rw [Text.toList_of_spelled rfl]
  decide +kernel

theorem definitionOf_classLookup (classMap : ClassMap) :
    definitionOf (classLookup classMap) = some (classDefinition classMap) := by
  obtain ⟨_, dense, paged, _⟩ := definitionOf_lookups
  cases classMap with
  | dense => exact dense
  | paged => exact paged

theorem definitionOf_stateLookup (transitions : Transitions) :
    definitionOf (stateLookup transitions) = some (stateDefinition transitions) := by
  obtain ⟨_, _, _, dense, rows, squeezed⟩ := definitionOf_lookups
  cases transitions with
  | dense => exact dense
  | rows => exact rows
  | squeezed => exact squeezed

/-- The functions that are read, in order. -/
def definitions (classMap : ClassMap) (transitions : Transitions) : List Definition :=
  (match transitions with
    | .dense _ => []
    | .rows _ | .squeezed _ _ => [rowDefinition]) ++
      [classDefinition classMap, stateDefinition transitions]

theorem filterMap_definitionOf (classMap : ClassMap) (transitions : Transitions) :
    (lookups classMap transitions).filterMap definitionOf = definitions classMap transitions := by
  unfold lookups definitions
  rw [List.filterMap_append,
    List.filterMap_cons_some (definitionOf_classLookup classMap),
    List.filterMap_cons_some (definitionOf_stateLookup transitions), List.filterMap_nil]
  cases transitions with
  | dense => rfl
  | rows | squeezed => rw [List.filterMap_cons_some definitionOf_lookups.1, List.filterMap_nil]

theorem definition_names_nodup (classMap : ClassMap) (transitions : Transitions) :
    ((definitions classMap transitions).map Definition.name).Nodup := by
  unfold definitions
  cases transitions <;> simp [classDefinition, stateDefinition, rowDefinition]

end Definitions

end Scangen.Generated
