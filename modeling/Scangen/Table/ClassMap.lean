import Scangen.Partition

/-!
The class of each symbol as plain numbers: in one piece, or in pages of 256 symbols of which equal ones
are stored once.
-/

namespace Scangen

inductive ClassMap where
  /-- One class for each symbol. -/
  | dense (classes : Array Nat)
  /-- The page for each block of symbols, and the pages in a row. -/
  | paged (index pages : Array Nat)
deriving DecidableEq

namespace ClassMap

def pageSize : Nat := 256

/-- The classes of all symbols in order. -/
def classesOf (p : Partition) : Array Nat :=
  (p.intervals.flatMap fun (r, classId) => List.replicate (r.high - r.low + 1) classId).toArray

/-- The blocks of symbols in order, each one as long as a page. -/
def blocks (classes : Array Nat) : List (List Nat) :=
  (List.range (classes.size / pageSize)).map fun i =>
    (classes.extract (i * pageSize) (i * pageSize + pageSize)).toList

def ofPartition (p : Partition) (compress : Bool) : ClassMap :=
  let classes := classesOf p
  if compress then
    let blocks := blocks classes
    paged (ranks blocks).toArray (distinct blocks).flatten.toArray
  else dense classes

/-- The class of a symbol, if it has one. -/
def lookup : ClassMap → Nat → Option Nat
  | dense classes, c => classes[c]?
  | paged index pages, c =>
    match index[c / pageSize]? with
    | none => none
    | some page => pages[page * pageSize + c % pageSize]?

/-- How many numbers are stored. -/
def size : ClassMap → Nat
  | dense classes => classes.size
  | paged index pages => index.size + pages.size

end ClassMap

end Scangen
