import Scangen.Table.Binary

/-!
The arithmetic on numbers that were read from bytes. Lengths of lists are compared with the number of
bytes that are left, and the check adds and multiplies: page numbers in 64 bits, states and classes in
64 bits, column numbers in 32 bits.
-/

namespace Scangen

/-- A sum or a product: its result in unlimited numbers, and the bits that there are for it. -/
structure Computed where
  bits : Nat
  result : Nat
deriving DecidableEq

/-- Nothing of the result is lost. -/
def Computed.InRange (c : Computed) : Prop := c.result < Nat.pow 2 c.bits

instance (c : Computed) : Decidable c.InRange := by
  unfold Computed.InRange
  infer_instance

/-- Words behind their number. No room is made for more words than there are bytes for. -/
def Decoder.guardedVector : Decoder (Array Nat) := do
  let count ← word
  fun bytes => if bytes.length / 4 < count then .error .truncated else repeated word count #[] bytes

namespace ClassMap

/-- The end of each page that a block asks for, up to the first one that is not there. -/
def computedEnds (size : Nat) : List Nat → List Computed
  | [] => []
  | page :: rest =>
    ⟨64, page + 1⟩ :: ⟨64, (page + 1) * pageSize⟩ ::
      if (page + 1) * pageSize ≤ size then computedEnds size rest else []

def computed : ClassMap → List Computed
  | dense _ => []
  | paged index pages =>
    if pages.size % pageSize = 0 then computedEnds pages.size index.toList else []

end ClassMap

/-- The number of entries in one piece, or of shared columns. -/
def Transitions.computed (numStates numClasses : Nat) : Transitions → List Computed
  | .dense _ => [⟨64, numStates * numClasses⟩]
  | .rows _ => []
  | .squeezed columns _ => columns.toList.max?.toList.map fun greatest => ⟨32, greatest + 1⟩

/-- A column number cannot be counted on in 32 bits. -/
def Transitions.Overflows : Transitions → Prop
  | .dense _ => False
  | .rows _ => False
  | .squeezed columns _ => Bytes.missing ∈ columns

namespace Tables

/-- The check gets as far as the class map. -/
def checksClassMap (t : Tables) : Bool :=
  t.accept.size = t.numStates &&
    (t.starts.all (· < t.numStates) && t.starts.size = t.endActions.size) &&
    (t.lineStart.all (· < t.numClasses) && t.lineEnd.all (· < t.numClasses))

/-- The check gets as far as the transitions. -/
def checksTransitions (t : Tables) : Bool := t.checksClassMap && t.classMapValid

/-- All sums and products of the check, in order. -/
def computed (t : Tables) : List Computed :=
  (if t.checksClassMap then t.classMap.computed else []) ++
    if t.checksTransitions then t.transitions.computed t.numStates t.numClasses else []

/-- All sums and products on the way from bytes to tables: there are none before the check. -/
def computedOf (bytes : List UInt8) : List Computed :=
  match decodeParts bytes with
  | .error _ => []
  | .ok (t, _) => t.computed

/-- All that a malformed table can be turned down for. -/
def places : List String :=
  ["unknown alphabet", "unknown accept kind", "unknown class map kind", "unknown transition kind",
    "odd exception list", "accept table size", "start states", "anchor class", "class map",
    "transition table"]

/-- The errors that bytes can lead to. -/
def Refusal (e : TableError) : Prop :=
  e = .badMagic ∨ e = .truncated ∨ ∃ place ∈ places, e = .invalid place

end Tables

end Scangen
