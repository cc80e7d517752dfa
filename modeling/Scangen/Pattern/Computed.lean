import Scangen.Pattern.Length

/-!
What is computed for a fixed length: the results of all sums and products in the order in which they
are needed. What limits them are the symbols and the counts in the expression.
-/

namespace Scangen.Regex

variable {α : Type} [DecidableEq α] [Add α] [Mul α]

/-- The product for a repetition of something with this length, if it is needed. -/
def productIn (ofNat : Nat → α) (length : Option α) (least : Nat) (most : Option Nat) : List α :=
  match length with
  | none => []
  | some length =>
    if length = ofNat 0 then []
    else if most = some least then [length * ofNat least]
    else []

mutual

/-- All sums and products on the way to the fixed length, in a given kind of number. -/
def computedIn (ofNat : Nat → α) : Regex → List α
  | symbol _ => []
  | symbolClass _ => []
  | empty => []
  | concatenation factors => computedSumsIn ofNat factors (ofNat 0)
  | alternation alternates => computedSameIn ofNat alternates none
  | star inner => computedIn ofNat inner
  | plus inner => computedIn ofNat inner
  | optional inner => computedIn ofNat inner
  | repetition inner least most =>
    computedIn ofNat inner ++ productIn ofNat (lengthIn ofNat inner) least most

/-- Factors are added one by one to the length of those in front, up to the first one without a fixed
length. -/
def computedSumsIn (ofNat : Nat → α) : List Regex → α → List α
  | [], _ => []
  | first :: rest, sum =>
    computedIn ofNat first ++
      match lengthIn ofNat first with
      | none => []
      | some length => (sum + length) :: computedSumsIn ofNat rest (sum + length)

/-- Alternates are looked at as long as they have the length of those in front, if there are any. -/
def computedSameIn (ofNat : Nat → α) : List Regex → Option α → List α
  | [], _ => []
  | first :: rest, expected =>
    computedIn ofNat first ++
      match lengthIn ofNat first with
      | none => []
      | some length =>
        if expected.all (· = length) then computedSameIn ofNat rest (some length) else []

end

mutual

/-- The symbols and classes of symbols in an expression. -/
def leaves : Regex → Nat
  | symbol _ => 1
  | symbolClass _ => 1
  | empty => 0
  | concatenation factors => leavesOfAll factors
  | alternation alternates => leavesOfAll alternates
  | star inner => leaves inner
  | plus inner => leaves inner
  | optional inner => leaves inner
  | repetition inner _ _ => leaves inner

def leavesOfAll : List Regex → Nat
  | [] => 0
  | first :: rest => leaves first + leavesOfAll rest

end

mutual

/-- The least counts of all repetitions in an expression, multiplied. -/
def counts : Regex → Nat
  | symbol _ => 1
  | symbolClass _ => 1
  | empty => 1
  | concatenation factors => countsOfAll factors
  | alternation alternates => countsOfAll alternates
  | star inner => counts inner
  | plus inner => counts inner
  | optional inner => counts inner
  | repetition inner least _ => counts inner * max 1 least

def countsOfAll : List Regex → Nat
  | [] => 1
  | first :: rest => counts first * countsOfAll rest

end

end Scangen.Regex
