import Scangen.Finite.IndexSet
import Scangen.Options
import Scangen.Spec.Basic

/-!
Classes of symbols. The ends of all ranges cut the alphabet into intervals, and intervals that
belong to the same sets form one class. Automata see class numbers only; the start and the end of a
line get a class of their own, behind those of the symbols, if a rule asks for them.
-/

namespace Scangen

structure Partition where
  alphabet : Alphabet
  /-- The intervals in ascending order with their classes; together they cover the alphabet. -/
  intervals : List (SymbolRange × Nat)
  /-- The symbols of each class. -/
  classSets : List SymbolSet
  lineStart : Option Nat
  lineEnd : Option Nat
deriving DecidableEq

/-- Part of a class lies in a range and part of it outside. -/
structure SplitClass where
  range : SymbolRange
  classId : Nat
  interval : SymbolRange
deriving DecidableEq

def SplitClass.message (split : SplitClass) : String :=
  s!"{split.range.describe} splits class {split.classId} ({split.interval.describe})"

namespace Partition

/-- Gives the start and the end of a line the next free classes. -/
def withAnchors (alphabet : Alphabet) (intervals : List (SymbolRange × Nat))
    (classSets : List SymbolSet) (usesLineStart usesLineEnd : Bool) : Partition :=
  { alphabet, intervals, classSets
    lineStart := if usesLineStart then some classSets.length else none
    lineEnd := if usesLineEnd then some (classSets.length + usesLineStart.toNat) else none }

/-- One class for each symbol. -/
def identity (alphabet : Alphabet) (usesLineStart usesLineEnd : Bool) : Partition :=
  let symbols := List.range alphabet.cardinality
  withAnchors alphabet (symbols.map fun c => (.single c, c)) (symbols.map .single)
    usesLineStart usesLineEnd

/-- Puts a point into an ascending list that holds each point once. -/
def insertPoint (point : Nat) : List Nat → List Nat
  | [] => [point]
  | first :: rest =>
    if point < first then point :: first :: rest
    else if point = first then first :: rest
    else first :: insertPoint point rest

/-- The symbols of the alphabet at which a range starts or behind which one ends, and zero. -/
def cuts (alphabet : Alphabet) (sets : List SymbolSet) : List Nat :=
  let ends := sets.flatMap fun s => s.ranges.flatMap fun r => [r.low, r.high + 1]
  (ends.filter (· ≤ alphabet.maxSymbol)).foldl (fun points point => insertPoint point points) [0]

/-- The last symbol in front of the next cut, or of all. -/
def lastBefore (max : Nat) : List Nat → Nat
  | [] => max
  | next :: _ => next - 1

/-- The ranges between ascending cuts; the last one ends at `max`. -/
def rangesBetween (max : Nat) : List Nat → List SymbolRange
  | [] => []
  | low :: rest =>
    if ordered : low ≤ lastBefore max rest then
      ⟨low, lastBefore max rest, ordered⟩ :: rangesBetween max rest
    else rangesBetween max rest

/-- The coarsest partition in which every set is made of whole classes. -/
def ofSets (alphabet : Alphabet) (sets : List SymbolSet) (usesLineStart usesLineEnd : Bool) :
    Partition :=
  let ranges := rangesBetween alphabet.maxSymbol (cuts alphabet sets)
  let signatures := ranges.map fun r => sets.map fun s => s.contains r.low
  let intervals := ranges.zip (ranks signatures)
  let classSets := (List.range (distinct signatures).length).map fun k =>
    SymbolSet.ofRanges ((intervals.filter fun (_, classId) => classId = k).map Prod.fst)
  withAnchors alphabet intervals classSets usesLineStart usesLineEnd

/-- The sets of all literals and classes in the rules, each one once. -/
def setsOf (spec : Spec) (charset : Charset) : List SymbolSet :=
  distinct ((spec.patterns.flatMap (Pattern.symbolSets charset)).filter fun s => !s.isEmpty)

def ofSpec (spec : Spec) (config : Config) : Partition :=
  if config.classes then
    ofSets config.charset.alphabet (setsOf spec config.charset) spec.usesLineStart spec.usesLineEnd
  else identity config.charset.alphabet spec.usesLineStart spec.usesLineEnd

def numSymbolClasses (p : Partition) : Nat := p.classSets.length

def numClasses (p : Partition) : Nat :=
  p.classSets.length + p.lineStart.isSome.toNat + p.lineEnd.isSome.toNat

def classOf (p : Partition) (c : Nat) : Option Nat :=
  (p.intervals.find? fun (r, _) => r.contains c).map Prod.snd

/-- Adds the classes of a range, which must not hold a class in part. -/
def addRange (p : Partition) (classes : IndexSet) (range : SymbolRange) :
    Except SplitClass IndexSet :=
  p.intervals.foldlM (fun classes (interval, classId) =>
    if interval.high < range.low ∨ range.high < interval.low then .ok classes
    else if range.low ≤ interval.low ∧ interval.high ≤ range.high then .ok (classes.insert classId)
    else .error ⟨range, classId, interval⟩) classes

/-- The classes that a set is made of; the first interval that it cuts in two is an error. -/
def classesOf (p : Partition) (s : SymbolSet) : Except SplitClass IndexSet :=
  s.ranges.foldlM p.addRange ∅

end Partition

end Scangen
