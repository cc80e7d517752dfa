import Scangen.Table.Basic
import Scangen.Table.Bytes

/-!
The binary form of tables: a magic word, the numbers of states and classes, starts, end actions, tags,
class map and transitions. What is read has to pass a check of every number that a scanner may follow.
-/

namespace Scangen.Tables

/-- The bytes of `LEXATBL1`. -/
def magic : List UInt8 := [76, 69, 88, 65, 84, 66, 76, 49]

def alphabetByte : Alphabet → UInt8
  | .byte => 0
  | .unicode => 1

/-- The kind of a tag and the number that goes with it. -/
def trailingCode : Trailing → UInt8 × Nat
  | .whole => (1, 0)
  | .head n => (2, n)
  | .tail n => (3, n)

def encodeTag : Option Tag → List UInt8
  | none => [0]
  | some tag =>
    let (kind, n) := trailingCode tag.trailing
    kind :: Bytes.word tag.rule ++ Bytes.word tag.priority ++ Bytes.word n

def encodeClassMap : ClassMap → List UInt8
  | .dense classes => 0 :: Bytes.vector classes.toList
  | .paged index pages => 1 :: Bytes.vector index.toList ++ Bytes.vector pages.toList

/-- A successor as a number. -/
def successorWord (next : Option Nat) : Nat := next.getD Bytes.missing

def encodeRow (row : Row) : List UInt8 :=
  Bytes.optional row.usual ++
    Bytes.vector (row.exceptions.toList.flatMap fun (classId, next) => [classId, successorWord next])

def encodeRows (rows : Array Row) : List UInt8 :=
  Bytes.word rows.size ++ rows.toList.flatMap encodeRow

def encodeTransitions : Transitions → List UInt8
  | .dense next => 0 :: Bytes.vector (next.toList.map successorWord)
  | .rows rows => 1 :: encodeRows rows
  | .squeezed columns rows => 2 :: Bytes.vector columns.toList ++ encodeRows rows

def encode (t : Tables) : List UInt8 :=
  magic ++ alphabetByte t.alphabet :: Bytes.word t.numStates ++ Bytes.word t.numClasses ++
    Bytes.optional t.lineStart ++ Bytes.optional t.lineEnd ++ Bytes.vector t.starts.toList ++
    Bytes.vector (t.endActions.toList.map successorWord) ++ Bytes.word t.accept.size ++
    t.accept.toList.flatMap encodeTag ++ encodeClassMap t.classMap ++
    encodeTransitions t.transitions

def invalid {α : Type} (place : String) : Decoder α := fun _ => .error (.invalid place)

def decodeMagic : Decoder Unit := fun bytes =>
  if bytes.length < magic.length then .error .truncated
  else if bytes.take magic.length = magic then .ok ((), bytes.drop magic.length)
  else .error .badMagic

def decodeAlphabet : Decoder Alphabet := do
  let kind ← Decoder.byte
  if kind = 0 then pure .byte
  else if kind = 1 then pure .unicode
  else invalid "unknown alphabet"

def decodeTag : Decoder (Option Tag) := do
  let kind ← Decoder.byte
  if kind = 0 then pure none
  else
    let rule ← Decoder.word
    let priority ← Decoder.word
    let n ← Decoder.word
    if kind = 1 then pure (some ⟨rule, priority, .whole⟩)
    else if kind = 2 then pure (some ⟨rule, priority, .head n⟩)
    else if kind = 3 then pure (some ⟨rule, priority, .tail n⟩)
    else invalid "unknown accept kind"

def decodeClassMap : Decoder ClassMap := do
  let kind ← Decoder.byte
  if kind = 0 then
    let classes ← Decoder.vector
    pure (.dense classes)
  else if kind = 1 then
    let index ← Decoder.vector
    let pages ← Decoder.vector
    pure (.paged index pages)
  else invalid "unknown class map kind"

/-- Exceptions are stored as pairs in a row; an odd number of words makes no pairs. -/
def pairs : List Nat → Option (List (Nat × Option Nat))
  | [] => some []
  | [_] => none
  | classId :: next :: rest => (pairs rest).map ((classId, Decoder.absent next) :: ·)

def decodeRow : Decoder Row := do
  let usual ← Decoder.optional
  let flat ← Decoder.vector
  match pairs flat.toList with
  | some exceptions => pure ⟨usual, exceptions.toArray⟩
  | none => invalid "odd exception list"

def decodeRows : Decoder (Array Row) := do
  let count ← Decoder.word
  Decoder.repeated decodeRow count #[]

def decodeTransitions : Decoder Transitions := do
  let kind ← Decoder.byte
  if kind = 0 then
    let next ← Decoder.vector
    pure (.dense (next.map Decoder.absent))
  else if kind = 1 then
    let rows ← decodeRows
    pure (.rows rows)
  else if kind = 2 then
    let columns ← Decoder.vector
    let rows ← decodeRows
    pure (.squeezed columns rows)
  else invalid "unknown transition kind"

def decodeParts : Decoder Tables := do
  decodeMagic
  let alphabet ← decodeAlphabet
  let numStates ← Decoder.word
  let numClasses ← Decoder.word
  let lineStart ← Decoder.optional
  let lineEnd ← Decoder.optional
  let starts ← Decoder.vector
  let endActions ← Decoder.vector
  let count ← Decoder.word
  let accept ← Decoder.repeated decodeTag count #[]
  let classMap ← decodeClassMap
  let transitions ← decodeTransitions
  pure {
    alphabet, numStates, numClasses, classMap, transitions, accept, starts
    endActions := endActions.map Decoder.absent, lineStart, lineEnd }

/-- A successor that exists or is dead. -/
def successorValid (t : Tables) (next : Option Nat) : Bool := next.all (· < t.numStates)

def rowsValid (t : Tables) (width : Nat) (rows : Array Row) : Bool :=
  rows.size = t.numStates && rows.all fun row =>
    t.successorValid row.usual && row.exceptions.all fun (classId, next) =>
      classId < width && t.successorValid next

/-- The number of shared columns, counted in 32 bits. -/
def columnCount (columns : Array Nat) : Nat :=
  match columns.toList.max? with
  | none => 0
  | some greatest => (greatest + 1) % 0x100000000

def classMapValid (t : Tables) : Bool :=
  match t.classMap with
  | .dense classes => classes.all (· < t.numClasses)
  | .paged index pages =>
    pages.size % ClassMap.pageSize = 0 &&
      index.all (fun page => (page + 1) * ClassMap.pageSize ≤ pages.size) &&
      pages.all (· < t.numClasses)

def transitionsValid (t : Tables) : Bool :=
  match t.transitions with
  | .dense next => t.numStates * t.numClasses = next.size && next.all t.successorValid
  | .rows rows => t.rowsValid t.numClasses rows
  | .squeezed columns rows =>
    columns.size = t.numClasses && t.rowsValid (columnCount columns) rows

/-- Checks every number that a scanner may follow. -/
def validate (t : Tables) : Except TableError Unit :=
  if t.accept.size ≠ t.numStates then .error (.invalid "accept table size")
  else if !(t.starts.all (· < t.numStates)) || t.starts.size ≠ t.endActions.size then
    .error (.invalid "start states")
  else if !(t.lineStart.all (· < t.numClasses)) || !(t.lineEnd.all (· < t.numClasses)) then
    .error (.invalid "anchor class")
  else if !t.classMapValid then .error (.invalid "class map")
  else if !t.transitionsValid then .error (.invalid "transition table")
  else .ok ()

/-- Reads tables from the front of some bytes; what follows them does not matter. -/
def decode (bytes : List UInt8) : Except TableError Tables :=
  match decodeParts bytes with
  | .error e => .error e
  | .ok (tables, _) => tables.validate.map fun _ => tables

end Scangen.Tables
