import Scangen.Automaton.Tag
import Scangen.Generated.Code
import Scangen.Generated.Evaluation

/-!
Reading a generated scanner: what a text declares, and what its functions compute from that. Nothing but
the text is used. Where a name is declared more than once, the last one counts.
-/

namespace Scangen.Generated

def textLines (text : String) : List (List Char) := text.toList.splitOn '\n'

/-- What is read at the lines of a text. A line is read together with the lines behind it. -/
def found {α : Type} (read : List Char → List (List Char) → Option α) :
    List (List Char) → List α
  | [] => []
  | line :: rest => (read line rest).toList ++ found read rest

/-- The values of a list up to its closing bracket, without the blanks around them. A comma inside of
brackets does not end a value; `depth` is the number of those that are open, and `current` holds what
has been read of a value, the last character first. -/
def valuesFrom (depth : Nat) (current : List Char) : List Char → List String
  | [] => []
  | c :: rest =>
    if c = '(' ∨ c = '\x7b' then valuesFrom (depth + 1) (c :: current) rest
    else if c = ')' ∨ c = '\x7d' then valuesFrom (depth - 1) (c :: current) rest
    else if 0 < depth then valuesFrom depth (c :: current) rest
    else if c = ' ' ∨ c = '\n' then valuesFrom depth current rest
    else if c = ',' then String.ofList current.reverse :: valuesFrom depth [] rest
    else if c = ']' then (if current = [] then [] else [String.ofList current.reverse])
    else valuesFrom depth (c :: current) rest

/-- Reads the first line of an array: its name, the type and the number of its values, and what stands
behind the opening bracket. -/
def readHead (line : List Char) : Option (String × String × Nat × List Char) := do
  let line ← "pub static ".toList.isPrefixOf? line
  let name := line.takeWhile (· ≠ ':')
  let line ← ": [".toList.isPrefixOf? (line.dropWhile (· ≠ ':'))
  let element := line.takeWhile (· ≠ ';')
  let line ← "; ".toList.isPrefixOf? (line.dropWhile (· ≠ ';'))
  let count := Nat.ofDigitChars 10 (line.takeWhile Char.isDigit) 0
  let line ← "] = [".toList.isPrefixOf? (line.dropWhile Char.isDigit)
  some (String.ofList name, String.ofList element, count, line)

/-- An array, and the number of values that it is declared with. -/
def readArray (line : List Char) (rest : List (List Char)) : Option (ConstantArray × Nat) := do
  let (name, element, count, line) ← readHead line
  some (⟨name, element, valuesFrom 0 [] (['\n'].intercalate (line :: rest))⟩, count)

def readNumber (text : List Char) : Option Nat :=
  if text ≠ [] ∧ text.all Char.isDigit then some (Nat.ofDigitChars 10 text 0) else none

/-- The number behind a prefix and in front of a suffix. -/
def readNumberIn (opening closing : String) (text : List Char) : Option Nat := do
  let text ← opening.toList.isPrefixOf? text
  let digits := text.takeWhile Char.isDigit
  if text.dropWhile Char.isDigit = closing.toList then readNumber digits else none

def readOption (text : List Char) : Option (Option Nat) :=
  if text = "None".toList then some none else (readNumberIn "Some(" ")" text).map some

def readTrailing (text : List Char) : Option Trailing :=
  if text = "Trailing::None".toList then some .whole
  else ((readNumberIn "Trailing::Head(" ")" text).map .head).or
    ((readNumberIn "Trailing::Tail(" ")" text).map .tail)

/-- The rule and the trailing length of a tag. -/
def readAccept (text : List Char) : Option (Option (Nat × Trailing)) :=
  if text = "None".toList then some none
  else do
    let text ← "Some(Accept \x7b rule: ".toList.isPrefixOf? text
    let rule ← readNumber (text.takeWhile Char.isDigit)
    let text ← ", trailing: ".toList.isPrefixOf? (text.dropWhile Char.isDigit)
    let text ← " \x7d)".toList.isSuffixOf? text
    let trailing ← readTrailing text
    some (some (rule, trailing))

/-- A constant word and its name. -/
def readConstant (line : List Char) : Option (String × Nat) := do
  let line ← "pub const ".toList.isPrefixOf? line
  let n ← readNumberIn ": u32 = " ";" (line.dropWhile (· ≠ ':'))
  some (String.ofList (line.takeWhile (· ≠ ':')), n)

/-- What a name stands for outside of functions. -/
inductive Declaration where
  | array (a : ConstantArray) (count : Nat)
  | constant (name : String) (n : Nat)
deriving DecidableEq

def Declaration.name : Declaration → String
  | array a _ => a.name
  | constant name _ => name

def readDeclaration (line : List Char) (rest : List (List Char)) : Option Declaration :=
  ((readArray line rest).map fun (a, count) => .array a count).or
    ((readConstant line).map fun (name, n) => .constant name n)

/-- A function that is not part of something else. Its body ends at the brace that is as far out. -/
def readFunction (line : List Char) (rest : List (List Char)) : Option Definition :=
  if "pub fn ".toList <+: line ∨ "fn ".toList <+: line then
    readDefinition (tokens line) (tokens (['\n'].intercalate (rest.takeWhile (· ≠ ['\x7d']))))
  else none

structure Reading where
  declarations : List Declaration
  functions : List Definition

def read (text : String) : Reading :=
  let lines := textLines text
  ⟨found readDeclaration lines, found readFunction lines⟩

namespace Reading

variable (r : Reading)

/-- The arrays, each with the number of values that it is declared with. -/
def arrays : List (ConstantArray × Nat) :=
  r.declarations.filterMap fun
    | .array a count => some (a, count)
    | .constant _ _ => none

def declaration (name : String) : Option Declaration :=
  r.declarations.reverse.find? fun declaration => declaration.name = name

def values (name : String) : Option (List String) :=
  match r.declaration name with
  | some (.array a _) => some a.values
  | _ => none

def numbers (name : String) : Option (List Nat) := do
  let values ← r.values name
  values.mapM fun value => readNumber value.toList

def starts : Option (List Nat) := r.numbers "START"

def endActions : Option (List (Option Nat)) := do
  let values ← r.values "EOF_ACTION"
  values.mapM fun value => readOption value.toList

def accept : Option (List (Option (Nat × Trailing))) := do
  let values ← r.values "ACCEPT"
  values.mapM fun value => readAccept value.toList

def constant (name : String) : Option Nat :=
  match r.declaration name with
  | some (.constant _ n) => some n
  | _ => none

def function (name : String) : Option Definition :=
  r.functions.reverse.find? fun definition => definition.name = name

/-- What a function does if calls are no deeper than `depth`. -/
def call : Nat → String → Value → Option Value
  | 0, _, _ => none
  | depth + 1, name, argument => do
    let definition ← r.function name
    definition.apply ⟨r.numbers, r.constant, call depth⟩ argument

/-- Runs a function. Calls are no deeper than there are functions, as none calls itself. -/
def run (name : String) (argument : Value) : Option Value :=
  r.call r.functions.length name argument

def classOf (c : Nat) : Option (Option Nat) :=
  match r.run "class_of" (.word c) with
  | some .nothing => some none
  | some (.something (.word classId)) => some (some classId)
  | _ => none

def nextState (s classId : Nat) : Option Nat :=
  match r.run "next_state" (.pair (.word s) (.word classId)) with
  | some (.word next) => some next
  | _ => none

end Reading

end Scangen.Generated
