import Scangen.Table.Basic
import Scangen.Table.Bytes
import Scangen.Text.Json

/-!
Tables as a JSON document. A dead successor is the greatest word, and a choice between several forms is
a record whose only field names the form.
-/

namespace Scangen

open Text (Json)

def Alphabet.document : Alphabet → Json
  | .byte => .text "Byte"
  | .unicode => .text "Unicode"

def successorDocument (next : Option Nat) : Json := .number (next.getD Bytes.missing)

def ClassMap.document : ClassMap → Json
  | .dense classes => .record [("Dense", .numbers classes.toList)]
  | .paged index pages =>
    .record [("Paged", .record [("index", .numbers index.toList), ("pages", .numbers pages.toList)])]

def Row.document (row : Row) : Json :=
  .record [
    ("default", successorDocument row.usual),
    ("exceptions", .list (row.exceptions.toList.map fun (classId, next) =>
      .list [.number classId, successorDocument next]))]

def rowsDocument (rows : Array Row) : Json := .list (rows.toList.map Row.document)

def Transitions.document : Transitions → Json
  | .dense next => .record [("Dense", .list (next.toList.map successorDocument))]
  | .rows states => .record [("RowCompressed", rowsDocument states)]
  | .squeezed columns states =>
    .record [("Squeeze",
      .record [("meta", .numbers columns.toList), ("rows", rowsDocument states)])]

def Trailing.document : Trailing → Json
  | .whole => .text "None"
  | .head n => .record [("FixedHead", .number n)]
  | .tail n => .record [("FixedTail", .number n)]

def Tag.document (tag : Tag) : Json :=
  .record [("rule", .number tag.rule), ("priority", .number tag.priority),
    ("trailing", tag.trailing.document)]

def Tables.document (t : Tables) : Json :=
  .record [
    ("alphabet", t.alphabet.document),
    ("num_states", .number t.numStates),
    ("num_classes", .number t.numClasses),
    ("class_map", t.classMap.document),
    ("transitions", t.transitions.document),
    ("accept", .list (t.accept.toList.map (.optional Tag.document))),
    ("starts", .numbers t.starts.toList),
    ("eof_actions", .list (t.endActions.toList.map (.optional .number))),
    ("bol_class", .optional .number t.lineStart),
    ("eol_class", .optional .number t.lineEnd)]

end Scangen
