import Scangen.Text.Quoted

/-!
JSON documents, and their form on many lines: each item of a list and each field of a record stands on a
line of its own, two blanks further in than the brackets around it.
-/

namespace Scangen.Text

inductive Json where
  | null
  | number (n : Nat)
  | text (s : String)
  | list (items : List Json)
  | record (fields : List (String × Json))

namespace Json

def numbers (values : List Nat) : Json := list (values.map number)

def optional {α : Type} (write : α → Json) (value : Option α) : Json :=
  match value with
  | none => null
  | some a => write a

/-- The codes are those that no reader refuses. -/
def escaping : Escaping where
  letters := [('"', '"'), ('\\', '\\'), ('\x08', 'b'), ('\x0c', 'f'), ('\n', 'n'), ('\r', 'r'),
    ('\t', 't')]
  kept c := 0x20 ≤ c.toNat
  code c := "\\u00".toList ++ (if c.toNat < 16 then ['0'] else []) ++ Nat.toDigits 16 c.toNat

def quoted (s : String) : String := String.ofList (escaping.quote s.toList)

/-- The start of a line at some depth. -/
def newLine (depth : Nat) : String := String.ofList ('\n' :: List.replicate (2 * depth) ' ')

/-- Items between brackets, one on each line. -/
def bracketed (opening closing : String) (depth : Nat) (items : List String) : String :=
  match items with
  | [] => opening ++ closing
  | items =>
    opening ++ newLine (depth + 1) ++ ("," ++ newLine (depth + 1)).intercalate items ++
      newLine depth ++ closing

mutual

/-- The text of a document that stands at some depth. -/
def render (depth : Nat) : Json → String
  | null => "null"
  | number n => toString n
  | text s => quoted s
  | list items => bracketed "[" "]" depth (renderItems (depth + 1) items)
  | record fields => bracketed "\x7b" "\x7d" depth (renderFields (depth + 1) fields)

def renderItems (depth : Nat) : List Json → List String
  | [] => []
  | item :: rest => render depth item :: renderItems depth rest

def renderFields (depth : Nat) : List (String × Json) → List String
  | [] => []
  | (name, value) :: rest => (quoted name ++ ": " ++ render depth value) :: renderFields depth rest

end

end Json

end Scangen.Text
