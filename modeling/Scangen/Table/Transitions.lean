import Scangen.Finite.Total
import Scangen.Options
import Scangen.Table.Row

/-!
The successors of all states in one of three encodings.
-/

namespace Scangen

inductive Transitions where
  /-- The successors of one state after those of another. -/
  | dense (successors : Array (Option Nat))
  | rows (stored : Array Row)
  /-- Classes with equal columns share one; the rows are over the shared columns. -/
  | squeezed (columns : Array Nat) (stored : Array Row)
deriving DecidableEq

namespace Transitions

/-- The successors of all states on each class. -/
def columnsOf (rows : List (List (Option Nat))) (numClasses : Nat) : List (List (Option Nat)) :=
  (List.range numClasses).map fun classId => rows.map fun row => row[classId]?.join

/-- Encodes the rows of all states; each row has a successor for every class. -/
def ofRows (rows : List (List (Option Nat))) (numClasses : Nat) : Compression → Transitions
  | .dense => dense rows.flatten.toArray
  | .rows => .rows (rows.map Row.ofList).toArray
  | .squeezed =>
    let columns := columnsOf rows numClasses
    let shared := distinct columns
    .squeezed (ranks columns).toArray
      ((List.range rows.length).map fun s =>
        Row.ofList (shared.map fun column => column[s]?.join)).toArray

/-- Where a dense array holds the successor of a state on a class. The place is computed in words. -/
def place (numClasses s classId : Nat) : Nat :=
  (s.toUInt32 * numClasses.toUInt32 + classId.toUInt32).toNat

/-- The successor of a state on a class. -/
def next (t : Transitions) (numClasses s classId : Nat) : Option Nat :=
  match t with
  | dense successors => successors[place numClasses s classId]?.join
  | rows stored => stored[s]?.bind fun row => row.lookup classId
  | squeezed columns stored =>
    stored[s]?.bind fun row => columns[classId]?.bind fun column => row.lookup column

/-- The places of all successors are words. -/
def Addressable (numStates numClasses : Nat) : Transitions → Prop
  | dense _ => numStates * numClasses ≤ UInt32.size
  | _ => True

instance (numStates numClasses : Nat) :
    (t : Transitions) → Decidable (t.Addressable numStates numClasses)
  | dense _ => inferInstanceAs (Decidable (numStates * numClasses ≤ UInt32.size))
  | rows _ | squeezed _ _ => inferInstanceAs (Decidable True)

/-- How many numbers are stored, as a measure of size. -/
def size : Transitions → Nat
  | dense successors => successors.size
  | rows stored => total Row.size stored.toList
  | squeezed columns stored => columns.size + total Row.size stored.toList

end Transitions

end Scangen
