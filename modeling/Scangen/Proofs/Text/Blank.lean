import Mathlib.Data.List.DropRight
import Scangen.Text.Blank

/-!
The blanks around a text, and texts that are put together from pieces and cut again.
-/

namespace Scangen.Text

variable {text front rest blanks : List Char}

theorem trimStart_append (text : List Char) :
    ∃ blanks, text = blanks ++ trimStart text ∧ ∀ c ∈ blanks, isBlank c :=
  ⟨text.takeWhile isBlank, List.takeWhile_append_dropWhile.symm, fun _ => List.mem_takeWhile_imp⟩

theorem trimEnd_append (text : List Char) :
    ∃ blanks, text = trimEnd text ++ blanks ∧ ∀ c ∈ blanks, isBlank c := by
  obtain ⟨blanks, whole, blank⟩ := trimStart_append text.reverse
  refine ⟨blanks.reverse, ?_, by simpa using blank⟩
  rw [trimEnd, ← List.reverse_append, ← trimStart, ← whole, List.reverse_reverse]

theorem trimEnd_append_blanks (blank : ∀ c ∈ blanks, isBlank c) :
    trimEnd (text ++ blanks) = trimEnd text := by
  rw [trimEnd, trimEnd, List.reverse_append, List.dropWhile_append_of_pos (by simpa using blank)]

theorem trimStart_append_blanks (blank : ∀ c ∈ blanks, isBlank c) :
    trimStart (blanks ++ text) = trimStart text :=
  List.dropWhile_append_of_pos blank

theorem trimStart_eq_self_iff : trimStart text = text ↔ ∀ c ∈ text.head?, isBlank c = false := by
  cases text with
  | nil => simp [trimStart]
  | cons c rest =>
    simp only [trimStart, List.dropWhile_cons, List.head?_cons, Option.mem_some_iff, forall_eq']
    split
    next blank =>
      have shorter := (List.dropWhile_suffix isBlank (l := rest)).length_le
      refine ⟨fun same => ?_, by simp [blank]⟩
      rw [same, List.length_cons] at shorter
      omega
    next visible => simpa using visible

theorem trimEnd_eq_self_iff : trimEnd text = text ↔ ∀ c ∈ text.getLast?, isBlank c = false := by
  rw [trimEnd, List.reverse_eq_iff, ← trimStart, trimStart_eq_self_iff, List.head?_reverse]

/-- What a text begins with begins as the text does. -/
theorem trimStart_of_append (trimmed : trimStart (front ++ rest) = front ++ rest) :
    trimStart front = front := by
  rw [trimStart_eq_self_iff] at trimmed ⊢
  cases front with
  | nil => simp
  | cons c front => exact trimmed

/-- What a text ends with ends as the text does. -/
theorem trimEnd_of_append (trimmed : trimEnd (front ++ rest) = front ++ rest) :
    trimEnd rest = rest := by
  rw [trimEnd_eq_self_iff] at trimmed ⊢
  intro c last
  exact trimmed c (by rw [List.getLast?_append, last]; rfl)

theorem trimStart_trimStart (text : List Char) : trimStart (trimStart text) = trimStart text :=
  List.dropWhile_idempotent _ _

theorem trimEnd_trimEnd (text : List Char) : trimEnd (trimEnd text) = trimEnd text :=
  List.rdropWhile_idempotent _ _

theorem trimStart_trim (text : List Char) : trimStart (trim text) = trim text := by
  obtain ⟨blanks, whole, -⟩ := trimEnd_append (trimStart text)
  have trimmed := trimStart_trimStart text
  rw [whole] at trimmed
  exact trimStart_of_append trimmed

theorem trim_append_blanks (visible : ∀ c ∈ text, isBlank c = false)
    (blank : ∀ c ∈ blanks, isBlank c) : trim (text ++ blanks) = text := by
  cases text with
  | nil =>
    have nothing : trimStart (blanks ++ []) = [] := trimStart_append_blanks blank
    rw [List.append_nil] at nothing
    rw [List.nil_append, trim, nothing]
    rfl
  | cons c rest =>
    have first : trimStart (c :: rest ++ blanks) = c :: rest ++ blanks :=
      trimStart_eq_self_iff.mpr (by simp [visible c])
    have last : trimEnd (c :: rest) = c :: rest :=
      trimEnd_eq_self_iff.mpr fun d ends => visible d (List.mem_of_getLast? ends)
    rw [trim, first, trimEnd_append_blanks blank, last]

/-- A text that begins and ends with something is not trimmed. -/
theorem trim_of_ends {text front back : List Char} (parts : text = front ++ back)
    (first : ∀ c ∈ text.head?, isBlank c = false) (nonempty : back ≠ [])
    (last : ∀ c ∈ back.getLast?, isBlank c = false) : trim text = text := by
  have ends : text.getLast? = back.getLast? := by
    rw [parts, List.getLast?_append_of_ne_nil _ nonempty]
  rw [trim, trimStart_eq_self_iff.mpr first, trimEnd_eq_self_iff, ends]
  exact last

section Pieces

variable {separator : Char → Bool} {piece : List Char} {names : List (List Char)}

theorem pieces_of_plain (plain : ∀ c ∈ piece, separator c = false) :
    pieces separator piece = [piece] := by
  induction piece with
  | nil => rfl
  | cons c piece ih =>
    obtain ⟨first, later⟩ := List.forall_mem_cons.mp plain
    rw [pieces, first, ih later]
    rfl

theorem pieces_append_cons {c : Char} (plain : ∀ c ∈ piece, separator c = false)
    (separates : separator c = true) (rest : List Char) :
    pieces separator (piece ++ c :: rest) = piece :: pieces separator rest := by
  induction piece with
  | nil => rw [List.nil_append, pieces, if_pos separates]
  | cons d piece ih =>
    obtain ⟨first, later⟩ := List.forall_mem_cons.mp plain
    rw [List.cons_append, pieces, first, ih later]
    rfl

theorem pieces_intercalate {c : Char} (separates : separator c = true)
    (nonempty : names ≠ []) (plain : ∀ name ∈ names, ∀ d ∈ name, separator d = false) :
    pieces separator ([c].intercalate names) = names := by
  induction names with
  | nil => exact absurd rfl nonempty
  | cons name rest ih =>
    obtain ⟨first, later⟩ := List.forall_mem_cons.mp plain
    cases rest with
    | nil => simpa using pieces_of_plain first
    | cons second rest =>
      rw [List.intercalate_cons_cons, List.append_assoc, List.singleton_append,
        pieces_append_cons first separates, ih (List.cons_ne_nil _ _) later]

theorem mem_intercalate {c d : Char}
    (member : d ∈ [c].intercalate names) : d = c ∨ ∃ name ∈ names, d ∈ name := by
  induction names with
  | nil => cases member
  | cons name rest ih =>
    cases rest with
    | nil => exact Or.inr ⟨name, List.mem_cons_self, by simpa using member⟩
    | cons second rest =>
      rw [List.intercalate_cons_cons, List.append_assoc, List.singleton_append, List.mem_append,
        List.mem_cons] at member
      rcases member with inside | same | later
      · exact Or.inr ⟨name, List.mem_cons_self, inside⟩
      · exact Or.inl same
      · rcases ih later with same | ⟨other, listed, inside⟩
        · exact Or.inl same
        · exact Or.inr ⟨other, List.mem_cons_of_mem _ listed, inside⟩

/-- Words that are written one after the other are read as they are. -/
theorem words_flatMap (visible : ∀ name ∈ names, ∀ c ∈ name, isBlank c = false)
    (nonempty : ∀ name ∈ names, name ≠ []) : words (names.flatMap (' ' :: ·)) = names := by
  have parts : pieces isBlank (names.flatMap (' ' :: ·)) = [] :: names := by
    induction names with
    | nil => rfl
    | cons name rest ih =>
      obtain ⟨first, later⟩ := List.forall_mem_cons.mp visible
      have others := ih later (List.forall_mem_cons.mp nonempty).2
      rw [List.flatMap_cons, List.cons_append, pieces, if_pos (by decide)]
      cases rest with
      | nil => rw [List.flatMap_nil, List.append_nil, pieces_of_plain first]
      | cons second rest =>
        rw [List.flatMap_cons, List.cons_append, pieces, if_pos (by decide)] at others
        rw [List.flatMap_cons, List.cons_append, pieces_append_cons first (by decide)]
        rw [List.cons.inj others |>.2]
  rw [words, parts, List.filter_cons_of_neg (by simp), List.filter_eq_self]
  simpa using nonempty

end Pieces

end Scangen.Text
