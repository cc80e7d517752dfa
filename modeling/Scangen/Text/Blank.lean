/-!
Blank characters, and cutting text at them.
-/

namespace Scangen.Text

/-- The characters with the Unicode property White_Space. -/
def isBlank (c : Char) : Bool :=
  let n := c.toNat
  (9 ≤ n && n ≤ 13) || n = 0x20 || n = 0x85 || n = 0xA0 || n = 0x1680 ||
    (0x2000 ≤ n && n ≤ 0x200A) || n = 0x2028 || n = 0x2029 || n = 0x202F || n = 0x205F ||
    n = 0x3000

def trimStart (text : List Char) : List Char := text.dropWhile isBlank

def trimEnd (text : List Char) : List Char := (text.reverse.dropWhile isBlank).reverse

def trim (text : List Char) : List Char := trimEnd (trimStart text)

/-- The pieces between the separators, of which there is one more than separators. -/
def pieces (separator : Char → Bool) : List Char → List (List Char)
  | [] => [[]]
  | c :: rest =>
    if separator c then [] :: pieces separator rest
    else
      match pieces separator rest with
      | [] => [[c]]
      | piece :: others => (c :: piece) :: others

/-- The maximal runs without blank characters. -/
def words (text : List Char) : List (List Char) := (pieces isBlank text).filter (· ≠ [])

/-- What stands before and after the first separator. -/
def splitFirst (separator : Char) (text : List Char) : Option (List Char × List Char) :=
  match text.dropWhile (· ≠ separator) with
  | [] => none
  | _ :: after => some (text.takeWhile (· ≠ separator), after)

/-- A split takes out the separator and nothing else. -/
theorem append_of_splitFirst {separator : Char} {text before after : List Char}
    (split : splitFirst separator text = some (before, after)) :
    text = before ++ separator :: after ∧ ¬separator ∈ before := by
  induction text generalizing before with
  | nil => simp [splitFirst] at split
  | cons c rest ih =>
    by_cases same : c = separator
    · subst same
      simp only [splitFirst, List.dropWhile_cons, ne_eq, decide_not, decide_true, Bool.not_true,
        Bool.false_eq_true, if_false, List.takeWhile_cons, Option.some.injEq, Prod.mk.injEq] at split
      obtain ⟨rfl, rfl⟩ := split
      exact ⟨rfl, List.not_mem_nil⟩
    · have step : splitFirst separator (c :: rest) =
          (splitFirst separator rest).map fun halves => (c :: halves.1, halves.2) := by
        simp only [splitFirst, List.dropWhile_cons, List.takeWhile_cons, ne_eq, same,
          not_false_eq_true, decide_true, if_true]
        split <;> simp
      rw [step, Option.map_eq_some_iff] at split
      obtain ⟨halves, found, equal⟩ := split
      obtain ⟨rfl, rfl⟩ := Prod.mk.inj equal
      obtain ⟨text, absent⟩ := ih found
      refine ⟨by rw [List.cons_append, ← text], ?_⟩
      intro member
      rcases List.mem_cons.mp member with first | later
      · exact same first.symm
      · exact absent later

theorem splitFirst_append {separator : Char} {before : List Char} (absent : separator ∉ before)
    (after : List Char) : splitFirst separator (before ++ separator :: after) = some (before, after) := by
  have other : ∀ c ∈ before, (decide (c ≠ separator)) = true := by
    intro c member
    exact decide_eq_true fun same => absent (same ▸ member)
  rw [splitFirst, List.dropWhile_append_of_pos other, List.takeWhile_append_of_pos other]
  simp

theorem dropWhile_isBlank {text : List Char} (visible : ∀ c ∈ text, isBlank c = false) :
    text.dropWhile isBlank = text := by
  cases text with
  | nil => rfl
  | cons c rest => exact List.dropWhile_cons_of_neg (by simp [visible c])

theorem trim_eq_self {text : List Char} (visible : ∀ c ∈ text, isBlank c = false) :
    trim text = text := by
  have reversed : ∀ c ∈ text.reverse, isBlank c = false := by simpa using visible
  rw [trim, trimStart, dropWhile_isBlank visible, trimEnd, dropWhile_isBlank reversed,
    List.reverse_reverse]

end Scangen.Text
