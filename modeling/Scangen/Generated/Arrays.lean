import Scangen.Generated.Code
import Scangen.Table.Basic
import Scangen.Table.Bytes

/-!
The constant arrays of a generated scanner: all that the tables hold. Rows of exceptions lie one behind the
other in two arrays, and a third one tells where each of them starts.
-/

namespace Scangen.Generated

def optionText (value : Option Nat) : String :=
  match value with
  | none => "None"
  | some n => s!"Some({n})"

def trailingText : Trailing → String
  | .whole => "Trailing::None"
  | .head n => s!"Trailing::Head({n})"
  | .tail n => s!"Trailing::Tail({n})"

def acceptText (tag : Option Tag) : String :=
  match tag with
  | none => "None"
  | some tag =>
    "Some(Accept \x7b rule: " ++ toString tag.rule ++ ", trailing: " ++ trailingText tag.trailing ++
      " \x7d)"

def numberArray (name : String) (values : List Nat) : ConstantArray :=
  ⟨name, "u32", values.map toString⟩

/-- A dead successor is the greatest word. -/
def successorArray (name : String) (values : List (Option Nat)) : ConstantArray :=
  numberArray name (values.map fun next => next.getD Bytes.missing)

/-- Where the exceptions of each row start, and where the last ones end. -/
def offsets (start : Nat) : List Row → List Nat
  | [] => [start]
  | row :: rest => start :: offsets (start + row.exceptions.size) rest

def rowArrays (rows : List Row) : List ConstantArray :=
  let exceptions := rows.flatMap fun row => row.exceptions.toList
  [successorArray "DEFAULT" (rows.map Row.usual),
    numberArray "EXCEPTION_OFFSET" (offsets 0 rows),
    numberArray "EXCEPTION_CLASS" (exceptions.map Prod.fst),
    successorArray "EXCEPTION_NEXT" (exceptions.map Prod.snd)]

def classArrays : ClassMap → List ConstantArray
  | .dense classes => [numberArray "CLASS_MAP" classes.toList]
  | .paged index pages =>
    [numberArray "CLASS_INDEX" index.toList, numberArray "CLASS_PAGES" pages.toList]

def transitionArrays : Transitions → List ConstantArray
  | .dense next => [successorArray "NEXT" next.toList]
  | .rows rows => rowArrays rows.toList
  | .squeezed columns rows => numberArray "META" columns.toList :: rowArrays rows.toList

def arrays (t : Tables) : List ConstantArray :=
  [numberArray "START" t.starts.toList,
    ⟨"EOF_ACTION", "Option<u32>", t.endActions.toList.map optionText⟩,
    ⟨"ACCEPT", "Option<Accept>", t.accept.toList.map acceptText⟩] ++
    classArrays t.classMap ++ transitionArrays t.transitions

end Scangen.Generated
