import Scangen.Table.Binary

/-!
What tables store: all numbers in them, and the lengths of all lists. The binary form has 32 bits for
each of them.
-/

namespace Scangen

/-- Each of the numbers can be written as a word. -/
def FitWords (numbers : List Nat) : Prop := ∀ n ∈ numbers, n < 0x100000000

instance (numbers : List Nat) : Decidable (FitWords numbers) := by
  unfold FitWords
  infer_instance

namespace ClassMap

def numbers : ClassMap → List Nat
  | dense classes => classes.toList
  | paged index pages => index.toList ++ pages.toList

def lengths : ClassMap → List Nat
  | dense classes => [classes.size]
  | paged index pages => [index.size, pages.size]

end ClassMap

namespace Row

def numbers (row : Row) : List Nat :=
  row.usual.toList ++ row.exceptions.toList.flatMap fun (classId, next) => classId :: next.toList

/-- An exception takes two words. -/
def wordCount (row : Row) : Nat := 2 * row.exceptions.size

end Row

namespace Transitions

def numbers : Transitions → List Nat
  | dense successors => successors.toList.flatMap Option.toList
  | rows stored => stored.toList.flatMap Row.numbers
  | squeezed columns stored => columns.toList ++ stored.toList.flatMap Row.numbers

def lengths : Transitions → List Nat
  | dense successors => [successors.size]
  | rows stored => stored.size :: stored.toList.map Row.wordCount
  | squeezed columns stored => columns.size :: stored.size :: stored.toList.map Row.wordCount

end Transitions

namespace Tables

def tagNumbers : Option Tag → List Nat
  | none => []
  | some tag => [tag.rule, tag.priority, (trailingCode tag.trailing).2]

/-- All numbers in the tables. -/
def numbers (t : Tables) : List Nat :=
  [t.numStates, t.numClasses] ++ t.lineStart.toList ++ t.lineEnd.toList ++ t.starts.toList ++
    t.endActions.toList.flatMap Option.toList ++ t.accept.toList.flatMap tagNumbers ++
    t.classMap.numbers ++ t.transitions.numbers

/-- The lengths of all lists in the tables. -/
def lengths (t : Tables) : List Nat :=
  [t.starts.size, t.endActions.size, t.accept.size] ++ t.classMap.lengths ++ t.transitions.lengths

end Tables

end Scangen
