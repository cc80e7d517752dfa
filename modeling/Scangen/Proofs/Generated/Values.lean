import Mathlib.Data.List.Basic
import Scangen.Proofs.Generated.Lines

/-!
The values in generated arrays are read back: numbers, options and tags. Each of them is read as a whole, up
to the comma behind it, for the commas inside of a tag stand in brackets.
-/

namespace Scangen.Generated

section Digits

variable {n : Nat} {rest : List Char}

def digits (n : Nat) : List Char := Nat.toDigits 10 n

theorem toList_toString (n : Nat) : (toString n).toList = digits n := by
  rw [Nat.toString_eq_ofList_toDigits, String.toList_ofList, digits]

theorem toList_enclosed (opening closing : String) (n : Nat) :
    (opening ++ toString n ++ closing).toList =
      opening.toList ++ (digits n ++ closing.toList) := by
  rw [String.toList_append, String.toList_append, toList_toString, List.append_assoc]

theorem isDigit_of_mem_digits : ∀ c ∈ digits n, c.isDigit = true :=
  fun _ => Nat.isDigit_of_mem_toDigits (by decide) (by decide)

theorem ne_of_mem_digits {c d : Char} (member : c ∈ digits n) (other : d.isDigit = false) :
    c ≠ d := by
  rintro rfl
  rw [isDigit_of_mem_digits c member] at other
  cases other

/-- The digits of a number end where something else stands behind them. -/
theorem takeWhile_digits (stop : rest.takeWhile Char.isDigit = []) :
    (digits n ++ rest).takeWhile Char.isDigit = digits n :=
  takeWhile_append_of_stop isDigit_of_mem_digits stop

theorem dropWhile_digits (stop : rest.dropWhile Char.isDigit = rest) :
    (digits n ++ rest).dropWhile Char.isDigit = rest :=
  dropWhile_append_of_stop isDigit_of_mem_digits stop

theorem ofDigitChars_digits : Nat.ofDigitChars 10 (digits n) 0 = n := Nat.ofDigitChars_ten_toDigits

theorem readNumber_digits : readNumber (digits n) = some n := by
  unfold readNumber
  rw [if_pos ⟨Nat.toDigits_ne_nil, List.all_eq_true.mpr isDigit_of_mem_digits⟩, ofDigitChars_digits]

theorem isPrefixOf?_append (opening text : List Char) :
    opening.isPrefixOf? (opening ++ text) = some text :=
  List.isPrefixOf?_eq_some_iff_append_eq.mpr rfl

theorem readNumberIn_digits {opening closing : String}
    (stop : closing.toList.takeWhile Char.isDigit = [])
    (stays : closing.toList.dropWhile Char.isDigit = closing.toList) :
    readNumberIn opening closing (opening.toList ++ (digits n ++ closing.toList)) = some n := by
  simp only [readNumberIn, isPrefixOf?_append, bind, Option.bind_some]
  rw [dropWhile_digits stays, takeWhile_digits stop, if_pos rfl, readNumber_digits]

end Digits

section Values

variable {before between after : Nat} {text text' : List Char}

/-- The text belongs to one value, in which it opens and closes brackets. -/
structure Passes (before after : Nat) (text : List Char) : Prop where
  single : '\n' ∉ text
  kept : ∀ current rest, valuesFrom before current (text ++ rest) =
    valuesFrom after (text.reverse ++ current) rest

theorem Passes.append (first : Passes before between text) (second : Passes between after text') :
    Passes before after (text ++ text') where
  single := by
    rw [List.mem_append, not_or]
    exact ⟨first.single, second.single⟩
  kept current rest := by
    rw [List.append_assoc, first.kept, second.kept, List.reverse_append, List.append_assoc]

theorem passes_digits (depth n : Nat) : Passes depth depth (digits n) where
  single member := ne_of_mem_digits member (by decide) rfl
  kept current rest := by
    have plain : ∀ c ∈ digits n, ∀ d : Char, d.isDigit = false → c ≠ d :=
      fun c member d => ne_of_mem_digits member
    generalize digits n = text at plain
    induction text generalizing current with
    | nil => rfl
    | cons c text ih =>
      have here := plain c List.mem_cons_self
      have step : valuesFrom depth current (c :: (text ++ rest)) =
          valuesFrom depth (c :: current) (text ++ rest) := by
        simp only [valuesFrom, here _ (show '('.isDigit = false by decide),
          here _ (show '\x7b'.isDigit = false by decide),
          here _ (show ')'.isDigit = false by decide),
          here _ (show '\x7d'.isDigit = false by decide),
          here _ (show ' '.isDigit = false by decide),
          here _ (show '\n'.isDigit = false by decide),
          here _ (show ','.isDigit = false by decide),
          here _ (show ']'.isDigit = false by decide), or_self, if_false, ite_self]
      rw [List.cons_append, step, ih _ fun c member => plain c (List.mem_cons_of_mem _ member),
        List.reverse_cons, List.append_assoc, List.singleton_append]

/-- The value is read as a whole. -/
def Legible (value : String) : Prop := Passes 0 0 value.toList

/-- The comma behind a value ends it. -/
theorem Legible.ends {value : String} (legible : Legible value) (rest : List Char) :
    valuesFrom 0 [] (value.toList ++ ',' :: rest) = value :: valuesFrom 0 [] rest := by
  rw [legible.kept, List.append_nil]
  show String.ofList value.toList.reverse.reverse :: valuesFrom 0 [] rest = _
  rw [List.reverse_reverse, String.ofList_toList]

theorem legible_number (n : Nat) : Legible (toString n) := by
  rw [Legible, toList_toString]
  exact passes_digits 0 n

theorem readNumber_toString (n : Nat) : readNumber (toString n).toList = some n := by
  rw [toList_toString, readNumber_digits]

theorem toList_optionText_some (n : Nat) :
    (optionText (some n)).toList = "Some(".toList ++ (digits n ++ ")".toList) :=
  toList_enclosed "Some(" ")" n

theorem legible_option (value : Option Nat) : Legible (optionText value) := by
  cases value with
  | none => exact ⟨by decide, fun _ _ => rfl⟩
  | some n =>
    rw [Legible, toList_optionText_some]
    have opening : Passes 0 1 "Some(".toList := ⟨by decide, fun _ _ => rfl⟩
    have closing : Passes 1 0 ")".toList := ⟨by decide, fun _ _ => rfl⟩
    exact opening.append ((passes_digits 1 n).append closing)

theorem readOption_optionText (value : Option Nat) :
    readOption (optionText value).toList = some value := by
  cases value with
  | none => rfl
  | some n =>
    rw [toList_optionText_some, readOption, if_neg (by simp), readNumberIn_digits rfl rfl,
      Option.map_some]

theorem toList_trailingText_head (n : Nat) : (trailingText (.head n)).toList =
    "Trailing::Head(".toList ++ (digits n ++ ")".toList) :=
  toList_enclosed "Trailing::Head(" ")" n

theorem toList_trailingText_tail (n : Nat) : (trailingText (.tail n)).toList =
    "Trailing::Tail(".toList ++ (digits n ++ ")".toList) :=
  toList_enclosed "Trailing::Tail(" ")" n

theorem passes_trailingText (trailing : Trailing) : Passes 2 2 (trailingText trailing).toList := by
  have closing : Passes 3 2 ")".toList := ⟨by decide, fun _ _ => rfl⟩
  cases trailing with
  | whole => exact ⟨by decide, fun _ _ => rfl⟩
  | head n =>
    rw [toList_trailingText_head]
    have opening : Passes 2 3 "Trailing::Head(".toList := ⟨by decide, fun _ _ => rfl⟩
    exact opening.append ((passes_digits 3 n).append closing)
  | tail n =>
    rw [toList_trailingText_tail]
    have opening : Passes 2 3 "Trailing::Tail(".toList := ⟨by decide, fun _ _ => rfl⟩
    exact opening.append ((passes_digits 3 n).append closing)

theorem readTrailing_trailingText (trailing : Trailing) :
    readTrailing (trailingText trailing).toList = some trailing := by
  cases trailing with
  | whole => rfl
  | head n =>
    rw [toList_trailingText_head, readTrailing, if_neg (by simp), readNumberIn_digits rfl rfl,
      Option.map_some, Option.some_or]
  | tail n =>
    have other : "Trailing::Head(".toList.isPrefixOf?
        ("Trailing::Tail(".toList ++ (digits n ++ ")".toList)) = none := rfl
    have unread : readNumberIn "Trailing::Head(" ")"
        ("Trailing::Tail(".toList ++ (digits n ++ ")".toList)) = none := by
      rw [readNumberIn, other]
      rfl
    rw [toList_trailingText_tail, readTrailing, if_neg (by simp), unread,
      readNumberIn_digits rfl rfl, Option.map_none, Option.none_or, Option.map_some]

theorem toList_acceptText_some (tag : Tag) : (acceptText (some tag)).toList =
    "Some(Accept \x7b rule: ".toList ++ (digits tag.rule ++ (", trailing: ".toList ++
      ((trailingText tag.trailing).toList ++ " \x7d)".toList))) := by
  show ("Some(Accept \x7b rule: " ++ toString tag.rule ++ ", trailing: " ++
    trailingText tag.trailing ++ " \x7d)").toList = _
  rw [String.toList_append, String.toList_append, toList_enclosed, List.append_assoc,
    List.append_assoc, List.append_assoc]

theorem legible_accept (tag : Option Tag) : Legible (acceptText tag) := by
  cases tag with
  | none => exact ⟨by decide, fun _ _ => rfl⟩
  | some tag =>
    rw [Legible, toList_acceptText_some]
    have opening : Passes 0 2 "Some(Accept \x7b rule: ".toList := ⟨by decide, fun _ _ => rfl⟩
    have middle : Passes 2 2 ", trailing: ".toList := ⟨by decide, fun _ _ => rfl⟩
    have closing : Passes 2 0 " \x7d)".toList := ⟨by decide, fun _ _ => rfl⟩
    exact opening.append ((passes_digits 2 tag.rule).append
      (middle.append ((passes_trailingText tag.trailing).append closing)))

theorem readAccept_acceptText (tag : Option Tag) : readAccept (acceptText tag).toList =
    some (tag.map fun tag => (tag.rule, tag.trailing)) := by
  cases tag with
  | none => rfl
  | some tag =>
    have suffix (text : List Char) : " \x7d)".toList.isSuffixOf? (text ++ " \x7d)".toList) =
      some text := List.isSuffixOf?_eq_some_iff_append_eq.mpr rfl
    rw [toList_acceptText_some, readAccept, if_neg (by simp)]
    simp only [isPrefixOf?_append, bind, Option.bind_some]
    rw [takeWhile_digits rfl, dropWhile_digits rfl, readNumber_digits, Option.bind_some,
      isPrefixOf?_append, Option.bind_some, suffix, Option.bind_some, readTrailing_trailingText,
      Option.bind_some, Option.map_some]

end Values

end Scangen.Generated
