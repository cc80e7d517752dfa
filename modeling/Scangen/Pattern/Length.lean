import Scangen.Pattern.Regex

/-!
The number of symbols that every match of an expression consumes, where that number is fixed.
Lengths are stored in 32 bits; the same rule in unlimited numbers stands beside them.
-/

namespace Scangen.Regex

variable {α : Type} [DecidableEq α] [Add α] [Mul α]

mutual

/-- The fixed length in a given kind of number, if every match has the same one. A repetition has
one if what is repeated is empty, or if the count is fixed too. -/
def lengthIn (ofNat : Nat → α) : Regex → Option α
  | symbol _ => some (ofNat 1)
  | symbolClass _ => some (ofNat 1)
  | empty => some (ofNat 0)
  | concatenation factors => totalLengthIn ofNat factors
  | alternation alternates =>
    match lengthsIn ofNat alternates with
    | some first :: others => if others.all (· = some first) then some first else none
    | _ => none
  | star inner => (lengthIn ofNat inner).filter (· = ofNat 0)
  | plus inner => (lengthIn ofNat inner).filter (· = ofNat 0)
  | optional inner => (lengthIn ofNat inner).filter (· = ofNat 0)
  | repetition inner least most =>
    match lengthIn ofNat inner with
    | none => none
    | some length =>
      if length = ofNat 0 then some (ofNat 0)
      else if most = some least then some (length * ofNat least)
      else none

def totalLengthIn (ofNat : Nat → α) : List Regex → Option α
  | [] => some (ofNat 0)
  | first :: rest =>
    match lengthIn ofNat first, totalLengthIn ofNat rest with
    | some a, some b => some (a + b)
    | _, _ => none

def lengthsIn (ofNat : Nat → α) : List Regex → List (Option α)
  | [] => []
  | first :: rest => lengthIn ofNat first :: lengthsIn ofNat rest

end

/-- The fixed length as rules store it. -/
def fixedLength (r : Regex) : Option UInt32 := r.lengthIn Nat.toUInt32

/-- The fixed length without a limit on its size. -/
def exactLength (r : Regex) : Option Nat := r.lengthIn id

mutual

/-- The expression and all that it is made of. -/
def parts : Regex → List Regex
  | alternation alternates => alternation alternates :: partsOfAll alternates
  | concatenation factors => concatenation factors :: partsOfAll factors
  | star inner => star inner :: parts inner
  | plus inner => plus inner :: parts inner
  | optional inner => optional inner :: parts inner
  | repetition inner least most => repetition inner least most :: parts inner
  | symbol c => [symbol c]
  | symbolClass c => [symbolClass c]
  | empty => [empty]

def partsOfAll : List Regex → List Regex
  | [] => []
  | first :: rest => parts first ++ partsOfAll rest

end

/-- No fixed length in the expression is too large to be stored. -/
def LengthsFit (r : Regex) : Prop := ∀ part ∈ r.parts, ∀ n ∈ part.exactLength, n < UInt32.size

end Scangen.Regex
