import Scangen.Generated.Arrays
import Scangen.Generated.Evaluation

/-!
How the functions of a generated scanner are evaluated, one step for each form of expression that they
use. The lists that a function names are those of the arrays.
-/

namespace Scangen.Generated

namespace Progress

variable {value : Value} {next : Value → Progress}

@[simp] theorem stuck_andThen : stuck.andThen next = stuck := rfl

@[simp] theorem ended_andThen : (ended value).andThen next = ended value := rfl

@[simp] theorem reached_andThen : (reached value).andThen next = next value := rfl

@[simp] theorem ofOption_none : ofOption none = stuck := rfl

@[simp] theorem ofOption_some : ofOption (some value) = reached value := rfl

@[simp] theorem result_stuck : stuck.result = none := rfl

@[simp] theorem result_ended : (ended value).result = some value := rfl

@[simp] theorem result_reached : (reached value).result = some value := rfl

@[simp] theorem result_ofOption (value : Option Value) : (ofOption value).result = value := by
  cases value <;> rfl

end Progress

section Values

variable (a b : Nat) (list : List Nat)

@[simp] theorem cast_word : (Value.word a).cast "usize" = some (.size a) := rfl

@[simp] theorem product_words : Operator.product.apply (.word a) (.word b) =
    some (.word (a * b % UInt32.size)) := rfl

@[simp] theorem sum_words : Operator.sum.apply (.word a) (.word b) =
    some (.word ((a + b) % UInt32.size)) := rfl

@[simp] theorem shiftRight_word : Operator.shiftRight.apply (.word a) (.literal b) =
    some (.word (a >>> b)) := rfl

@[simp] theorem product_size : Operator.product.apply (.size a) (.literal b) =
    some (.size (a * b)) := rfl

@[simp] theorem both_size : Operator.both.apply (.size a) (.literal b) =
    some (.size (a &&& b)) := rfl

@[simp] theorem sum_size : Operator.sum.apply (.size a) (.literal b) = some (.size (a + b)) := rfl

@[simp] theorem sum_sizes : Operator.sum.apply (.size a) (.size b) = some (.size (a + b)) := rfl

@[simp] theorem range_sizes : Operator.range.apply (.size a) (.size b) = some (.range a b) := rfl

@[simp] theorem entry_size : (Value.words list).entry (.size a) = list[a]?.map .word := rfl

theorem entry_range (room : a ≤ b ∧ b ≤ list.length) : (Value.words list).entry (.range a b) =
    some (.words ((list.drop a).take (b - a))) := if_pos room

@[simp] theorem method_get : (Value.words list).method "get" (.size a) =
    some (match list[a]? with
      | some n => .something (.borrowed (.word n))
      | none => .nothing) := rfl

@[simp] theorem method_search : (Value.words list).method "binary_search" (.borrowed (.word a)) =
    some (.found (placeOf a list)) := rfl

@[simp] theorem method_copied_nothing : Value.nothing.method "copied" .unit = some .nothing := rfl

@[simp] theorem method_copied_something (value : Value) :
    (Value.something (.borrowed value)).method "copied" .unit = some (.something value) := rfl

@[simp] theorem follow_borrowed (value : Value) : (Value.borrowed value).follow = some value := rfl

end Values

section Scope

variable {scope : Scope} {names : Names} {name text : String} {value : Value}

/-- What is bound last is known first. -/
@[simp] theorem valueOf_cons : scope.valueOf ((name, value) :: names) text =
    if text = name then some value else scope.valueOf names text := by
  unfold Scope.valueOf
  rw [List.lookup_cons]
  split
  next same => rw [if_pos (beq_iff_eq.mp same), Option.some_or]
  next other => rw [if_neg (beq_eq_false_iff_ne.mp other)]

/-- Other functions are what the scope says. -/
theorem call_of_ne (other : name ≠ "Some") : scope.call name value = scope.functions name value :=
  if_neg other

@[simp] theorem call_some : scope.call "Some" value = some (.something value) := rfl

/-- The lists of a scope are those of the arrays, by name. -/
def Shows (scope : Scope) (arrays : List ConstantArray) : Prop :=
  ∀ name values, numberArray name values ∈ arrays →
    scope.constants name = none ∧ scope.lists name = some values

variable {arrays arrays' : List ConstantArray}

theorem Shows.of_subset (shows : Shows scope arrays) (fewer : arrays' ⊆ arrays) :
    Shows scope arrays' :=
  fun name values member => shows name values (fewer member)

/-- A name that is not bound stands for its list. -/
theorem Shows.valueOf (shows : Shows scope arrays) {values : List Nat}
    (member : numberArray name values ∈ arrays) : scope.valueOf [] name = some (.words values) := by
  obtain ⟨constant, list⟩ := shows name values member
  rw [Scope.valueOf, constant, list]
  rfl

end Scope

end Scangen.Generated
