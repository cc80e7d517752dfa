import Mathlib.Data.Nat.Init
import Mathlib.Tactic.Ring
import Scangen.Text.Numeral

/-!
Written numbers are read back, in every base up to sixteen, and a text with few digits is no large number.
-/

namespace Scangen.Text

variable {base value n : Nat} {text : List Char}

section Bounds

theorem digitsValue_lt (made : digitsValue base value text = some n) :
    n < (value + 1) * base ^ text.length := by
  induction text generalizing value with
  | nil =>
    obtain rfl : value = n := by simpa [digitsValue] using made
    simp
  | cons c rest ih =>
    rw [digitsValue] at made
    split at made
    next digit =>
      have next : value * base + digitValue c + 1 ≤ (value + 1) * base := by
        rw [Nat.succ_mul]
        omega
      calc
        n < (value * base + digitValue c + 1) * base ^ rest.length := ih made
        _ ≤ (value + 1) * base * base ^ rest.length := Nat.mul_le_mul_right _ next
        _ = (value + 1) * base ^ (c :: rest).length := by
          rw [List.length_cons, Nat.pow_succ]
          ring
    next => cases made

/-- A number that is read has the digits of the text, perhaps without its first character. -/
theorem exists_digits_of_readWord (made : readWord base text = some n) :
    ∃ digits, digits.length ≤ text.length ∧ digitsValue base 0 digits = some n ∧
      n < UInt32.size := by
  have short : (if text.head? = some '+' then text.tail else text).length ≤ text.length := by
    split
    next => simp
    next => exact Nat.le_refl _
  unfold readWord at made
  dsimp only at made
  generalize (if text.head? = some '+' then text.tail else text) = digits at made short
  split at made
  next => cases made
  next =>
    obtain ⟨value, small⟩ := Option.filter_eq_some_iff.mp made
    exact ⟨digits, short, value, by simpa using small⟩

theorem readWord_small (made : readWord base text = some n) : n < UInt32.size := by
  obtain ⟨_, _, _, small⟩ := exists_digits_of_readWord made
  exact small

theorem readWord_lt (positive : 0 < base) (made : readWord base text = some n) :
    n < base ^ text.length := by
  obtain ⟨digits, short, value, _⟩ := exists_digits_of_readWord made
  calc
    n < (0 + 1) * base ^ digits.length := digitsValue_lt value
    _ = base ^ digits.length := by rw [Nat.zero_add, Nat.one_mul]
    _ ≤ base ^ text.length := Nat.pow_le_pow_right positive short

end Bounds

section Written

theorem digitValue_digitChar : ∀ digit < 16, digitValue digit.digitChar = digit := by
  decide

theorem digitsValue_append (first second : List Char) :
    digitsValue base value (first ++ second) =
      (digitsValue base value first).bind fun before => digitsValue base before second := by
  induction first generalizing value with
  | nil => rfl
  | cons c rest ih =>
    rw [List.cons_append, digitsValue, digitsValue]
    split
    next => exact ih
    next => rfl

variable (several : 1 < base) (few : base ≤ 16)

include several

theorem exists_of_mem_toDigits {c : Char} (member : c ∈ Nat.toDigits base n) :
    ∃ digit < base, c = digit.digitChar := by
  induction n using Nat.strong_induction_on with
  | _ n ih =>
    by_cases small : n < base
    · rw [Nat.toDigits_of_lt_base small, List.mem_singleton] at member
      exact ⟨n, small, member⟩
    · have large : base ≤ n := Nat.le_of_not_lt small
      rw [Nat.toDigits_of_base_le several large] at member
      rcases List.mem_append.mp member with front | last
      · exact ih (n / base) (Nat.div_lt_self (by omega) several) front
      · exact ⟨n % base, Nat.mod_lt n (by omega), List.mem_singleton.mp last⟩

include few

/-- No digit is a sign, a blank or a character that stands next to numbers. -/
theorem not_mem_toDigits {c : Char} (other : ∀ digit < 16, Nat.digitChar digit ≠ c) (n : Nat) :
    c ∉ Nat.toDigits base n := by
  intro member
  obtain ⟨digit, small, same⟩ := exists_of_mem_toDigits several member
  exact other digit (Nat.lt_of_lt_of_le small few) same.symm

theorem digitsValue_toDigits (n : Nat) : digitsValue base 0 (Nat.toDigits base n) = some n := by
  have single : ∀ value digit, digit < base →
      digitsValue base value [digit.digitChar] = some (value * base + digit) := by
    intro value digit small
    simp [digitsValue, digitValue_digitChar digit (Nat.lt_of_lt_of_le small few), small]
  induction n using Nat.strong_induction_on with
  | _ n ih =>
    by_cases small : n < base
    · rw [Nat.toDigits_of_lt_base small, single 0 n small, Nat.zero_mul, Nat.zero_add]
    · have large : base ≤ n := Nat.le_of_not_lt small
      rw [Nat.toDigits_of_base_le several large, digitsValue_append,
        ih (n / base) (Nat.div_lt_self (by omega) several), Option.bind_some,
        single _ _ (Nat.mod_lt n (by omega)), Nat.div_add_mod']

theorem readWord_toDigits (small : n < UInt32.size) :
    readWord base (Nat.toDigits base n) = some n := by
  have unsigned : (Nat.toDigits base n).head? ≠ some '+' := by
    intro sign
    exact not_mem_toDigits several few (by decide) n (List.mem_of_mem_head? sign)
  have fits : n < 0x100000000 := small
  simp [readWord, unsigned, Nat.toDigits_ne_nil, digitsValue_toDigits several few, fits]

end Written

end Scangen.Text
