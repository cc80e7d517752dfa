import Scangen.Proofs.Generated.Values

/-!
Arrays are read back from their lines, with all values and the number of values that they declare.
-/

namespace Scangen.Generated

section Chunks

variable {α : Type} {size : Nat}

theorem flatten_chunks (size fuel : Nat) (items : List α) :
    (chunks size fuel items).flatten = items := by
  fun_induction chunks size fuel items with
  | case1 => rfl
  | case2 items _ => simp
  | case3 fuel items _ ih => rw [List.flatten_cons, ih, List.take_append_drop]

theorem ne_nil_of_mem_chunks (positive : 0 < size) (fuel : Nat) (items : List α) :
    ∀ chunk ∈ chunks size fuel items, chunk ≠ [] := by
  fun_induction chunks size fuel items with
  | case1 => simp
  | case2 items some => simpa using some
  | case3 fuel items some ih =>
    intro chunk member
    rcases List.mem_cons.mp member with rfl | later
    · rw [Ne, List.take_eq_nil_iff, not_or]
      exact ⟨Nat.ne_of_gt positive, some⟩
    · exact ih chunk later

end Chunks

/-- The line of some values of an array. -/
def rowLine (row : List String) : List Char := ("    " ++ ", ".intercalate row ++ ",").toList

section Rows

variable {row : List String} {rest : List Char}

theorem valuesFrom_intercalate (nonempty : row ≠ []) (legible : ∀ value ∈ row, Legible value) :
    valuesFrom 0 [] ((", ".intercalate row).toList ++ ',' :: rest) =
      row ++ valuesFrom 0 [] rest := by
  induction row with
  | nil => exact absurd rfl nonempty
  | cons value row ih =>
    have first := legible value List.mem_cons_self
    cases row with
    | nil => rw [String.intercalate_singleton, first.ends, List.singleton_append]
    | cons second row =>
      have later := ih (List.cons_ne_nil _ _) fun v member =>
        legible v (List.mem_cons_of_mem _ member)
      rw [String.intercalate_cons_cons, String.toList_append, String.toList_append,
        List.append_assoc, List.append_assoc]
      change valuesFrom 0 [] (value.toList ++ ',' :: ' ' :: _) = _
      rw [first.ends, List.cons_append, ← later]
      rfl

theorem valuesFrom_rowLine (nonempty : row ≠ []) (legible : ∀ value ∈ row, Legible value) :
    valuesFrom 0 [] (rowLine row ++ rest) = row ++ valuesFrom 0 [] rest := by
  rw [rowLine, String.toList_append, String.toList_append, List.append_assoc, List.append_assoc]
  exact valuesFrom_intercalate nonempty legible

theorem newline_not_mem_intercalate (single : ∀ value ∈ row, '\n' ∉ value.toList) :
    '\n' ∉ (", ".intercalate row).toList := by
  induction row with
  | nil => exact List.not_mem_nil
  | cons value row ih =>
    have first := single value List.mem_cons_self
    cases row with
    | nil => rwa [String.intercalate_singleton]
    | cons second row =>
      have later := ih fun v member => single v (List.mem_cons_of_mem _ member)
      rw [String.intercalate_cons_cons, String.toList_append, String.toList_append,
        List.mem_append, List.mem_append]
      rintro ((member | member) | member)
      · exact first member
      · exact absurd member (by decide)
      · exact later member

theorem newline_not_mem_rowLine (legible : ∀ value ∈ row, Legible value) :
    '\n' ∉ rowLine row := by
  rw [rowLine, String.toList_append, String.toList_append, List.mem_append, List.mem_append]
  rintro ((member | member) | member)
  · exact absurd member (by decide)
  · exact newline_not_mem_intercalate (fun value listed => (legible value listed).single) member
  · exact absurd member (by decide)

/-- The values of all rows, up to the bracket behind them. -/
theorem valuesFrom_rows {rows : List (List String)} (nonempty : ∀ row ∈ rows, row ≠ [])
    (legible : ∀ row ∈ rows, ∀ value ∈ row, Legible value) (behind : List (List Char)) :
    valuesFrom 0 [] (['\n'].intercalate (rows.map rowLine ++ "];".toList :: behind)) =
      rows.flatten := by
  induction rows with
  | nil =>
    cases behind with
    | nil => rfl
    | cons line behind => rfl
  | cons row rows ih =>
    have later := ih (fun r member => nonempty r (List.mem_cons_of_mem _ member))
      fun r member => legible r (List.mem_cons_of_mem _ member)
    have more : rows.map rowLine ++ "];".toList :: behind ≠ [] :=
      List.append_ne_nil_of_right_ne_nil _ (List.cons_ne_nil _ _)
    rw [List.map_cons, List.cons_append, List.intercalate_cons_of_ne_nil more, List.append_assoc,
      valuesFrom_rowLine (nonempty row List.mem_cons_self) (legible row List.mem_cons_self),
      List.flatten_cons, ← later]
    rfl

end Rows

/-- The parts of the array can be told apart. -/
structure ConstantArray.Legible (a : ConstantArray) : Prop where
  name : ∀ c ∈ a.name.toList, c ≠ ':' ∧ c ≠ '\n'
  element : ∀ c ∈ a.element.toList, c ≠ ';' ∧ c ≠ '\n'
  values : ∀ value ∈ a.values, Generated.Legible value

namespace ConstantArray.Legible

variable {a : ConstantArray}

theorem toList_head (a : ConstantArray) : a.head.toList = "pub static ".toList ++ (a.name.toList ++
    (": [".toList ++ (a.element.toList ++ ("; ".toList ++ (digits a.values.length ++
      "] = [".toList))))) := by
  show ("pub static " ++ a.name ++ ": [" ++ a.element ++ "; " ++ toString a.values.length ++
    "] = [").toList = _
  rw [String.toList_append, String.toList_append, String.toList_append, String.toList_append,
    String.toList_append, String.toList_append, toList_toString]
  simp only [List.append_assoc]

theorem readHead_head (legible : a.Legible) (rest : List Char) :
    readHead (a.head.toList ++ rest) = some (a.name, a.element, a.values.length, rest) := by
  have name : ∀ c ∈ a.name.toList, decide (c ≠ ':') = true :=
    fun c member => decide_eq_true (legible.name c member).1
  have element : ∀ c ∈ a.element.toList, decide (c ≠ ';') = true :=
    fun c member => decide_eq_true (legible.element c member).1
  rw [toList_head]
  simp only [List.append_assoc, readHead, isPrefixOf?_append, bind, Option.bind_some]
  rw [takeWhile_append_of_stop name rfl, dropWhile_append_of_stop name rfl, isPrefixOf?_append,
    Option.bind_some, takeWhile_append_of_stop element rfl, dropWhile_append_of_stop element rfl,
    isPrefixOf?_append, Option.bind_some, takeWhile_digits rfl, dropWhile_digits rfl,
    isPrefixOf?_append, Option.bind_some, ofDigitChars_digits, String.ofList_toList,
    String.ofList_toList]

theorem newline_not_mem_head (legible : a.Legible) : '\n' ∉ a.head.toList := by
  have name : '\n' ∉ a.name.toList := fun member => (legible.name _ member).2 rfl
  have element : '\n' ∉ a.element.toList := fun member => (legible.element _ member).2 rfl
  have count := (passes_digits 0 a.values.length).single
  rw [toList_head]
  simp [name, element, count]

end ConstantArray.Legible

section Found

variable {a : ConstantArray}

theorem flatten_rows (a : ConstantArray) : a.rows.flatten = a.values := flatten_chunks _ _ _

theorem ne_nil_of_mem_rows : ∀ row ∈ a.rows, row ≠ [] := ne_nil_of_mem_chunks (by decide) _ _

theorem legible_of_mem_rows (legible : a.Legible) :
    ∀ row ∈ a.rows, ∀ value ∈ row, Legible value := by
  intro row listed value member
  refine legible.values value ?_
  rw [← flatten_rows]
  exact List.mem_flatten.mpr ⟨row, listed, member⟩

theorem newline_not_mem_lines (legible : a.Legible) : ∀ line ∈ a.lines, '\n' ∉ line.toList := by
  have head := legible.newline_not_mem_head
  intro line member
  unfold ConstantArray.lines at member
  split at member
  next =>
    rw [List.mem_singleton.mp member, String.toList_append, List.mem_append, not_or]
    exact ⟨head, by decide⟩
  next =>
    rw [List.mem_append, List.mem_cons, List.mem_singleton] at member
    rcases member with (rfl | inner) | rfl
    · exact head
    · obtain ⟨row, listed, rfl⟩ := List.mem_map.mp inner
      exact newline_not_mem_rowLine (legible_of_mem_rows legible row listed)
    · decide

/-- An array without values is declared on one line. -/
theorem textLines_array (legible : a.Legible) : a.item.textLines =
    if a.values = [] then [a.head.toList ++ "];".toList, []]
    else a.head.toList :: (a.rows.map rowLine ++ ["];".toList, []]) := by
  have nonempty : a.lines ≠ [] := by
    unfold ConstantArray.lines
    split <;> exact List.cons_ne_nil _ _
  rw [Item.textLines, ConstantArray.item, Item.text,
    textLines_intercalate nonempty (newline_not_mem_lines legible), ConstantArray.lines]
  split
  next nothing =>
    rw [if_pos nothing, List.map_singleton, String.toList_append]
    rfl
  next some =>
    rw [if_neg some, List.map_append, List.map_cons, List.map_map]
    simp only [List.map_cons, List.map_nil, List.cons_append, List.append_assoc, List.nil_append]
    rfl

/-- Behind the first line, nothing is declared. -/
theorem inner_of_mem_rows : ∀ line ∈ a.rows.map rowLine ++ ["];".toList, []], Inner line := by
  intro line member
  simp only [List.mem_append, List.mem_map, List.mem_cons, List.not_mem_nil, or_false] at member
  rcases member with ⟨row, _, rfl⟩ | rfl | rfl
  · rw [rowLine, String.toList_append, String.toList_append, List.append_assoc]
    rfl
  · rfl
  · rfl

theorem readDeclaration_of_readArray {line : List Char} {rest : List (List Char)}
    (array : readArray line rest = some (a, a.values.length)) :
    readDeclaration line rest = some (.array a a.values.length) := by
  rw [readDeclaration, array]
  rfl

/-- An array is found with all its values, and declares as many. -/
theorem found_array (legible : a.Legible) (rest : List (List Char)) :
    found readDeclaration (a.item.textLines ++ rest) =
      .array a a.values.length :: found readDeclaration rest := by
  rw [textLines_array legible]
  split
  next nothing =>
    have first : readArray (a.head.toList ++ "];".toList) ([] :: rest) =
        some (a, a.values.length) := by
      rw [readArray, legible.readHead_head, nothing]
      obtain ⟨name, element, values⟩ := a
      cases nothing
      rfl
    rw [List.cons_append, found, List.singleton_append, readDeclaration_of_readArray first]
    rfl
  next some_value =>
    have first : readArray a.head.toList (a.rows.map rowLine ++ "];".toList :: [] :: rest) =
        some (a, a.values.length) := by
      have head := legible.readHead_head []
      have values := valuesFrom_rows ne_nil_of_mem_rows (legible_of_mem_rows legible) ([] :: rest)
      have more : a.rows.map rowLine ++ "];".toList :: [] :: rest ≠ [] :=
        List.append_ne_nil_of_right_ne_nil _ (List.cons_ne_nil _ _)
      rw [List.append_nil] at head
      rw [flatten_rows] at values
      rw [readArray, head, Option.bind_eq_bind, Option.bind_some]
      dsimp only
      rw [List.intercalate_cons_of_ne_nil more]
      exact congrArg (fun values => some (ConstantArray.mk a.name a.element values,
        a.values.length)) values
    have others : ∀ line ∈ a.rows.map rowLine ++ ["];".toList, []], ∀ behind,
        readDeclaration line behind = none :=
      fun line member behind => (inner_of_mem_rows line member).readDeclaration behind
    rw [List.cons_append, found, found_append others, List.append_assoc]
    exact congrArg (·.toList ++ found readDeclaration rest) (readDeclaration_of_readArray first)

end Found

end Scangen.Generated
