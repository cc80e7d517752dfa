import Scangen.Generated.Grammar
import Scangen.Table.Row

/-!
What generated functions compute. There is no result where a name stands for nothing, where a value is not
of the kind that is asked for, or where a place is outside of its list.
-/

namespace Scangen.Generated

inductive Value where
  | unit
  /-- A number that is a word or a size, as those around it are. -/
  | literal (n : Nat)
  | word (n : Nat)
  | size (n : Nat)
  /-- A list of words, or a part of one. -/
  | words (list : List Nat)
  | borrowed (value : Value)
  | nothing
  | something (value : Value)
  | pair (first second : Value)
  | range (low high : Nat)
  /-- The place that a search has found. -/
  | found (place : Option Nat)

/-- Where a key stands in a list. The list is searched as the exceptions of a row are. -/
def placeOf (key : Nat) (keys : List Nat) : Option Nat :=
  let entries := (keys.map fun key => (key, none)).toArray
  let place := Row.locate entries key entries.size 0 entries.size
  if keys[place]? = some key then some place else none

/-- What is computed from two numbers; products and sums may be too large. -/
def Operator.compute (cut : Nat → Nat) : Operator → Nat → Nat → Option Nat
  | product, a, b => some (cut (a * b))
  | sum, a, b => some (cut (a + b))
  | shiftRight, a, b => some (a >>> b)
  | both, a, b => some (a &&& b)
  | range, _, _ => none

/-- Words have 32 bits. Sizes have more, and all that is computed from words here has room in them. -/
def Operator.apply (operator : Operator) : Value → Value → Option Value
  | .word a, .word b | .word a, .literal b | .literal a, .word b =>
    (operator.compute (· % UInt32.size) a b).map .word
  | .size a, .size b | .size a, .literal b | .literal a, .size b =>
    if operator = range then some (.range a b) else (operator.compute id a b).map .size
  | _, _ => none

namespace Value

def method : Value → String → Value → Option Value
  | words list, "get", size place =>
    some (match list[place]? with
      | some n => something (borrowed (word n))
      | none => nothing)
  | words list, "binary_search", borrowed (word key) => some (found (placeOf key list))
  | something (borrowed value), "copied", unit => some (something value)
  | nothing, "copied", unit => some nothing
  | _, _, _ => none

/-- The number at a place, or the part between two places. -/
def entry : Value → Value → Option Value
  | words list, size place => list[place]?.map word
  | words list, range low high =>
    if low ≤ high ∧ high ≤ list.length then some (words ((list.drop low).take (high - low))) else none
  | _, _ => none

def cast : Value → String → Option Value
  | word n, "usize" => some (size n)
  | size n, "u32" => some (word (n % UInt32.size))
  | _, _ => none

def follow : Value → Option Value
  | borrowed value => some value
  | _ => none

end Value

/-- What is left of a function: nothing can be done, it has ended with a value, or it goes on with one. -/
inductive Progress where
  | stuck
  | ended (value : Value)
  | reached (value : Value)

namespace Progress

def ofOption : Option Value → Progress
  | none => stuck
  | some value => reached value

def andThen (progress : Progress) (next : Value → Progress) : Progress :=
  match progress with
  | stuck => stuck
  | ended value => ended value
  | reached value => next value

/-- The value of a function that is left like this. -/
def result : Progress → Option Value
  | stuck => none
  | ended value | reached value => some value

end Progress

/-- What is known outside of functions: lists and constants by their names, and what functions do. -/
structure Scope where
  lists : String → Option (List Nat)
  constants : String → Option Nat
  functions : String → Value → Option Value

/-- The values of names inside of a function. -/
abbrev Names := List (String × Value)

/-- What is bound last hides what is bound before, and that hides what is known outside. -/
def Scope.valueOf (scope : Scope) (names : Names) (text : String) : Option Value :=
  (names.lookup text).or
    (((scope.constants text).map .word).or ((scope.lists text).map .words))

def Scope.call (scope : Scope) (function : String) (argument : Value) : Option Value :=
  if function = "Some" then some (.something argument) else scope.functions function argument

def Expression.eval (scope : Scope) : Expression → Names → Progress
  | unit, _ => .reached .unit
  | number n, _ => .reached (.literal n)
  | named text, names => .ofOption (scope.valueOf names text)
  | pair first second, names =>
    (first.eval scope names).andThen fun a =>
      (second.eval scope names).andThen fun b => .reached (.pair a b)
  | call function argument, names =>
    (argument.eval scope names).andThen fun value => .ofOption (scope.call function value)
  | method receiver name argument, names =>
    (receiver.eval scope names).andThen fun value =>
      (argument.eval scope names).andThen fun given => .ofOption (value.method name given)
  | index list place, names =>
    (list.eval scope names).andThen fun list =>
      (place.eval scope names).andThen fun place => .ofOption (list.entry place)
  | cast value type, names => (value.eval scope names).andThen fun value => .ofOption (value.cast type)
  | borrow value, names => (value.eval scope names).andThen fun value => .reached (.borrowed value)
  | follow reference, names => (reference.eval scope names).andThen fun value => .ofOption value.follow
  | required value, names =>
    (value.eval scope names).andThen fun
      | .something value => .reached value
      | .nothing => .ended .nothing
      | _ => .stuck
  | binary operator left right, names =>
    (left.eval scope names).andThen fun a =>
      (right.eval scope names).andThen fun b => .ofOption (operator.apply a b)
  | search result place found missed, names =>
    (result.eval scope names).andThen fun
      | .found (some n) => found.eval scope ((place, .size n) :: names)
      | .found none => missed.eval scope names
      | _ => .stuck

def Binder.bind : Binder → Value → Option Names
  | single name, value => some [(name, value)]
  | pair first second, .pair a b => some [(first, a), (second, b)]
  | pair _ _, _ => none

/-- The bindings one after another, and the result with all of them. -/
def evalBindings (scope : Scope) (result : Expression) :
    List (Binder × Expression) → Names → Progress
  | [], names => result.eval scope names
  | (binder, value) :: rest, names =>
    (value.eval scope names).andThen fun value =>
      match binder.bind value with
      | none => .stuck
      | some bound => evalBindings scope result rest (bound ++ names)

/-- What a function does with its argument, or with a pair of them. -/
def Definition.apply (definition : Definition) (scope : Scope) (argument : Value) : Option Value := do
  let names ← definition.arguments.bind argument
  (evalBindings scope definition.body.result definition.body.bindings names).result

end Scangen.Generated
