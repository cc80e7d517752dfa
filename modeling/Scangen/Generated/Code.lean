import Scangen.Text.Lines

/-!
Generated code as it is handed to a formatter, item by item, and the layout that a formatter gives it:
an empty line between two items, and blocks of lines further in than the lines around them.
-/

namespace Scangen.Generated

/-- Code as it is laid out. A text of several lines is as far in on each of them. -/
inductive Code where
  | line (text : String)
  | block (head : String) (body : List Code)

/-- Puts blanks before a line that is not empty. -/
def indented (depth : Nat) (line : List Char) : String :=
  if line = [] then "" else String.ofList (List.replicate (4 * depth) ' ' ++ line)

def linesAt (depth : Nat) (text : String) : List String :=
  (Text.lines text.toList).map (indented depth)

mutual

def Code.lines (depth : Nat) : Code → List String
  | .line text => linesAt depth text
  | .block head body =>
    linesAt depth (head ++ " \x7b") ++ Code.allLines (depth + 1) body ++ [indented depth ['\x7d']]

def Code.allLines (depth : Nat) : List Code → List String
  | [] => []
  | code :: rest => Code.lines depth code ++ Code.allLines depth rest

end

structure Function where
  isPublic : Bool
  name : String
  /-- Each argument with its type, or the value that a method is called on. -/
  arguments : List String
  result : String
  body : List Code

namespace Function

def head (f : Function) : String :=
  (if f.isPublic then "pub fn " else "fn ") ++ f.name ++ "(" ++ ", ".intercalate f.arguments ++
    ") -> " ++ f.result

def code (f : Function) : Code := .block f.head f.body

end Function

/-- What a module is made of. -/
inductive Item where
  | raw (text : String)
  | function (f : Function)
  | enumeration (name : String) (traits : List String) (representation : Option String)
      (variants : List String)
  | record (name : String) (traits fields : List String)
  | methods (name : String) (functions : List Function)

def traitsLine (traits : List String) : Code :=
  .line ("#[derive(" ++ ", ".intercalate traits ++ ")]")

def representationLine (type : String) : Code := .line s!"#[repr({type})]"

/-- The name, and one line for each part. -/
def listed (head : String) (parts : List String) : Code :=
  .block head (parts.map fun part => .line (part ++ ","))

/-- All items but raw text are laid out. -/
def Item.code : Item → List Code
  | raw text => [.line text]
  | function f => [f.code]
  | enumeration name traits representation variants =>
    traitsLine traits :: representation.toList.map representationLine ++
      [listed s!"pub enum {name}" variants]
  | record name traits fields => [traitsLine traits, listed s!"pub struct {name}" fields]
  | methods name functions =>
    [.block s!"impl {name}" ((functions.map Function.code).intersperse (.line "\n"))]

def layOut (parts : List Code) : String := "\n".intercalate (Code.allLines 0 parts)

def Item.text : Item → String
  | raw text => text
  | item => layOut item.code

/-- The text of all items; the last line does not end. -/
def format (items : List Item) : String := "\n\n".intercalate (items.map Item.text)

/-- What the layout of a module is relied on for. -/
structure Formats (format : List Item → String) : Prop where
  /-- The items stay in order, with an empty line between two of them. -/
  separated : ∀ items, items ≠ [] →
    format items = "\n\n".intercalate (items.map fun item => format [item])
  /-- A raw text is taken as it is. -/
  raw : ∀ text, format [.raw text] = text
  /-- The body of a function is further in than its head and the brace behind it. -/
  function : ∀ f, format [.function f] = layOut [f.code]
  enumeration : ∀ name traits representation variants,
    format [.enumeration name traits representation variants] =
      layOut (traitsLine traits :: representation.toList.map representationLine ++
        [listed s!"pub enum {name}" variants])
  record : ∀ name traits fields,
    format [.record name traits fields] =
      layOut [traitsLine traits, listed s!"pub struct {name}" fields]
  /-- There is an empty line between two methods. -/
  methods : ∀ name functions,
    format [.methods name functions] =
      layOut [.block s!"impl {name}" ((functions.map Function.code).intersperse (.line "\n"))]

theorem format_single (item : Item) : format [item] = item.text := by
  rw [format, List.map_singleton, String.intercalate_singleton]

theorem formats_format : Formats format where
  separated items _ := by rw [funext format_single, format]
  raw text := format_single (.raw text)
  function f := format_single (.function f)
  enumeration name traits representation variants :=
    format_single (.enumeration name traits representation variants)
  record name traits fields := format_single (.record name traits fields)
  methods name functions := format_single (.methods name functions)

/-- A constant with the text of its value. -/
structure Constant where
  name : String
  type : String
  value : String

namespace Constant

def text (c : Constant) : String :=
  "pub const " ++ c.name ++ ": " ++ c.type ++ " = " ++ c.value ++ ";"

def item (c : Constant) : Item := .raw c.text

end Constant

/-- A constant array with the text of each of its values. -/
structure ConstantArray where
  name : String
  element : String
  values : List String
deriving DecidableEq

/-- Cuts a list into pieces of `size` items, as long as `fuel` lasts. -/
def chunks {α : Type} (size : Nat) : Nat → List α → List (List α)
  | _, [] => []
  | 0, items => [items]
  | fuel + 1, items => items.take size :: chunks size fuel (items.drop size)

namespace ConstantArray

def valuesPerLine : Nat := 16

def rows (a : ConstantArray) : List (List String) := chunks valuesPerLine a.values.length a.values

def head (a : ConstantArray) : String :=
  s!"pub static {a.name}: [{a.element}; {a.values.length}] = ["

def lines (a : ConstantArray) : List String :=
  match a.values with
  | [] => [a.head ++ "];"]
  | _ => a.head :: a.rows.map (fun row => "    " ++ ", ".intercalate row ++ ",") ++ ["];"]

def item (a : ConstantArray) : Item := .raw ("\n".intercalate a.lines)

end ConstantArray

end Scangen.Generated
