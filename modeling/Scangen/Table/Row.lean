import Scangen.Finite.Distinct

/-!
The successors of one state, stored as the most frequent one and the exceptions to it. A missing
successor is the dead state.
-/

namespace Scangen

structure Row where
  /-- The successor on all classes but the exceptions. -/
  usual : Option Nat
  /-- Classes and their successors, in ascending order of classes. -/
  exceptions : Array (Nat × Option Nat)
deriving DecidableEq

namespace Row

/-- The dead state comes before all others. -/
def Precedes : Option Nat → Option Nat → Prop
  | none, some _ => True
  | some a, some b => a < b
  | _, none => False

instance : (a b : Option Nat) → Decidable (Precedes a b)
  | none, some _ => .isTrue trivial
  | some a, some b => inferInstanceAs (Decidable (a < b))
  | none, none => .isFalse id
  | some _, none => .isFalse id

/-- The first successor occurs more often in the row, or as often and precedes the second. -/
def Outweighs (row : List (Option Nat)) (a b : Option Nat) : Prop :=
  row.count b < row.count a ∨ row.count b = row.count a ∧ Precedes a b

instance (row : List (Option Nat)) (a b : Option Nat) : Decidable (Outweighs row a b) := by
  unfold Outweighs
  infer_instance

/-- The most frequent successor of a row. -/
def mostFrequent (row : List (Option Nat)) : Option Nat :=
  match distinct row with
  | [] => none
  | first :: others =>
    others.foldl (fun best next => if Outweighs row next best then next else best) first

def ofList (row : List (Option Nat)) : Row :=
  let usual := mostFrequent row
  ⟨usual, ((row.zipIdx.filter fun (next, _) => next ≠ usual).map fun (next, classId) =>
    (classId, next)).toArray⟩

/-- Halves the `size` entries from `base` on until one is left: the last one that is not above the
class, if the entries are in order. -/
def locate (entries : Array (Nat × Option Nat)) (classId : Nat) : Nat → Nat → Nat → Nat
  | 0, base, _ => base
  | fuel + 1, base, size =>
    if size ≤ 1 then base
    else
      let half := size / 2
      let middle := base + half
      let above :=
        match entries[middle]? with
        | some (key, _) => decide (classId < key)
        | none => true
      locate entries classId fuel (if above then base else middle) (size - half)

/-- The successor on a class. -/
def lookup (row : Row) (classId : Nat) : Option Nat :=
  match row.exceptions[locate row.exceptions classId row.exceptions.size 0 row.exceptions.size]? with
  | some (key, next) => if key = classId then next else row.usual
  | none => row.usual

/-- How many successors are stored. -/
def size (row : Row) : Nat := 1 + row.exceptions.size

end Row

end Scangen
