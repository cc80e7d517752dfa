import Scangen.Generated.Code
import Scangen.Table.ClassMap
import Scangen.Table.Transitions

/-!
The functions with which a generated scanner looks things up in its arrays.
-/

namespace Scangen.Generated

/-- The class of a symbol is found in one array, or in a page of symbols. -/
def classLookup (classMap : ClassMap) : Function where
  isPublic := true
  name := "class_of"
  arguments := ["c: u32"]
  result := "Option<u32>"
  body := List.map .line <|
    match classMap with
    | .dense _ => ["CLASS_MAP.get(c as usize).copied()"]
    | .paged _ _ =>
      ["let page = *CLASS_INDEX.get((c >> 8) as usize)? as usize;",
        "Some(CLASS_PAGES[page * 256 + (c as usize & 0xFF)])"]

/-- The successor on a class or a column is one of the exceptions of a row, or the usual one. -/
def rowLookup : Function where
  isPublic := false
  name := "row_lookup"
  arguments := ["state: u32", "class: u32"]
  result := "u32"
  body := List.map .line
    ["let (low, high) = (EXCEPTION_OFFSET[state as usize] as usize, " ++
        "EXCEPTION_OFFSET[state as usize + 1] as usize);",
      "match EXCEPTION_CLASS[low..high].binary_search(&class) \x7b",
      "    Ok(i) => EXCEPTION_NEXT[low + i],",
      "    Err(_) => DEFAULT[state as usize],",
      "\x7d"]

/-- The successor of a state is found in one array, or in the row of the state, on the class itself or on
the column that it shares. -/
def stateLookup (transitions : Transitions) : Function where
  isPublic := true
  name := "next_state"
  arguments := ["state: u32", "class: u32"]
  result := "u32"
  body := List.map .line
    [match transitions with
      | .dense _ => "NEXT[(state * NUM_CLASSES + class) as usize]"
      | .rows _ => "row_lookup(state, class)"
      | .squeezed _ _ => "row_lookup(state, META[class as usize])"]

/-- Rows are looked up by a function of their own. -/
def lookups (classMap : ClassMap) (transitions : Transitions) : List Function :=
  (match transitions with
    | .dense _ => []
    | .rows _ | .squeezed _ _ => [rowLookup]) ++ [classLookup classMap, stateLookup transitions]

end Scangen.Generated
