import Scangen.Generated.Variants

/-!
The language of generated functions, as far as they use it: values are bound to names, and one expression
is the result. A text is cut into words and marks, and these are put together by the strength of their
operators.
-/

namespace Scangen.Generated

inductive Token where
  | word (text : List Char)
  | mark (c : Char)
deriving DecidableEq

/-- Puts a character in front of what has been cut; a word goes on to the left. -/
def Token.extend (c : Char) (joined : Bool) : List Token → List Token
  | .word text :: later =>
    if joined then .word (c :: text) :: later else .word [c] :: .word text :: later
  | later => .word [c] :: later

/-- The words and marks of a text, without the blanks around them. -/
def tokens : List Char → List Token
  | [] => []
  | c :: rest =>
    if isIdentifierCharacter c then
      Token.extend c (rest.head?.any isIdentifierCharacter) (tokens rest)
    else if c = ' ' ∨ c = '\n' then tokens rest
    else .mark c :: tokens rest

inductive Operator where
  | range
  | both
  | shiftRight
  | sum
  | product
deriving DecidableEq

/-- How strong an operator binds. -/
def Operator.strength : Operator → Nat
  | range => 0
  | both => 1
  | shiftRight => 2
  | sum => 3
  | product => 4

/-- What is given to a function or a method is one value, or a pair of two. -/
inductive Expression where
  | unit
  | number (n : Nat)
  | named (text : String)
  | pair (first second : Expression)
  | call (function : String) (argument : Expression)
  | method (receiver : Expression) (name : String) (argument : Expression)
  | index (list place : Expression)
  | cast (value : Expression) (type : String)
  | borrow (value : Expression)
  | follow (reference : Expression)
  /-- The value, or the function has no result. -/
  | required (value : Expression)
  | binary (operator : Operator) (left right : Expression)
  /-- What comes of a search that finds a place, and of one that finds none. -/
  | search (result : Expression) (place : String) (found missed : Expression)
deriving DecidableEq

/-- Names for a value, or for both parts of a pair. -/
inductive Binder where
  | single (name : String)
  | pair (first second : String)
deriving DecidableEq

structure Body where
  bindings : List (Binder × Expression)
  result : Expression
deriving DecidableEq

/-- The value of a digit, of a number in tens or in sixteens. -/
def digitValue (c : Char) : Nat :=
  if c.isDigit then c.toNat - '0'.toNat else c.toUpper.toNat - 'A'.toNat + 10

/-- A word that begins with a digit is a number; behind `0x` it is one in sixteens. -/
def atomOf (text : List Char) : Expression :=
  match text with
  | '0' :: 'x' :: digits => .number (digits.foldl (fun n c => 16 * n + digitValue c) 0)
  | _ =>
    if text.head?.any Char.isDigit then .number (text.foldl (fun n c => 10 * n + digitValue c) 0)
    else .named (String.ofList text)

/-- The operator that comes first. -/
def operatorAt : List Token → Option (Operator × List Token)
  | .mark '*' :: rest => some (.product, rest)
  | .mark '+' :: rest => some (.sum, rest)
  | .mark '>' :: .mark '>' :: rest => some (.shiftRight, rest)
  | .mark '&' :: rest => some (.both, rest)
  | .mark '.' :: .mark '.' :: rest => some (.range, rest)
  | _ => none

/-- The tokens behind the expected ones. -/
def expect (expected text : List Token) : Option (List Token) := expected.isPrefixOf? text

mutual

/-- Reads an expression of operators that are at least as strong. All reading ends when `fuel` does. -/
def readExpression : Nat → Nat → List Token → Option (Expression × List Token)
  | 0, _, _ => none
  | fuel + 1, least, text => do
    let (first, rest) ← readOperand fuel text
    readOperators fuel least first rest

/-- Goes on behind an expression. What is written first is done first; a conversion is stronger than all
operators. -/
def readOperators : Nat → Nat → Expression → List Token → Option (Expression × List Token)
  | 0, _, _, _ => none
  | fuel + 1, least, left, .word ['a', 's'] :: .word type :: rest =>
    readOperators fuel least (.cast left (String.ofList type)) rest
  | fuel + 1, least, left, text =>
    match operatorAt text with
    | none => some (left, text)
    | some (operator, behind) =>
      if operator.strength < least then some (left, text)
      else do
        let (right, rest) ← readExpression fuel (operator.strength + 1) behind
        readOperators fuel least (.binary operator left right) rest

def readOperand : Nat → List Token → Option (Expression × List Token)
  | 0, _ => none
  | fuel + 1, .mark '*' :: text => do
    let (value, rest) ← readOperand fuel text
    some (.follow value, rest)
  | fuel + 1, .mark '&' :: text => do
    let (value, rest) ← readOperand fuel text
    some (.borrow value, rest)
  | fuel + 1, .mark '(' :: text => do
    let (value, rest) ← readBracketed fuel text
    readSuffixes fuel value rest
  | fuel + 1, .word ['m', 'a', 't', 'c', 'h'] :: text => readSearch fuel text
  | fuel + 1, .word name :: .mark '(' :: text => do
    let (argument, rest) ← readBracketed fuel text
    readSuffixes fuel (.call (String.ofList name) argument) rest
  | fuel + 1, .word name :: text => readSuffixes fuel (atomOf name) text
  | _ + 1, _ => none

/-- Calls of methods, places in lists and question marks behind a value. -/
def readSuffixes : Nat → Expression → List Token → Option (Expression × List Token)
  | 0, _, _ => none
  | fuel + 1, value, .mark '?' :: text => readSuffixes fuel (.required value) text
  | fuel + 1, value, .mark '[' :: text => do
    let (place, rest) ← readExpression fuel 0 text
    let rest ← expect [.mark ']'] rest
    readSuffixes fuel (.index value place) rest
  | fuel + 1, value, .mark '.' :: .word name :: .mark '(' :: text => do
    let (argument, rest) ← readBracketed fuel text
    readSuffixes fuel (.method value (String.ofList name) argument) rest
  | _ + 1, value, text => some (value, text)

/-- Nothing, one value or a pair, up to the closing bracket. -/
def readBracketed : Nat → List Token → Option (Expression × List Token)
  | 0, _ => none
  | _ + 1, .mark ')' :: rest => some (.unit, rest)
  | fuel + 1, text => do
    let (first, rest) ← readExpression fuel 0 text
    match rest with
    | .mark ')' :: rest => some (first, rest)
    | .mark ',' :: rest => do
      let (second, rest) ← readExpression fuel 0 rest
      let rest ← expect [.mark ')'] rest
      some (.pair first second, rest)
    | _ => none

/-- The two cases of the result of a search. -/
def readSearch : Nat → List Token → Option (Expression × List Token)
  | 0, _ => none
  | fuel + 1, text => do
    let (result, rest) ← readExpression fuel 0 text
    match rest with
    | .mark '\x7b' :: .word ['O', 'k'] :: .mark '(' :: .word place :: .mark ')' :: .mark '=' ::
        .mark '>' :: rest => do
      let (found, rest) ← readExpression fuel 0 rest
      let rest ← expect (tokens ",Err(_)=>".toList) rest
      let (missed, rest) ← readExpression fuel 0 rest
      let rest ← expect [.mark ',', .mark '\x7d'] rest
      some (.search result (String.ofList place) found missed, rest)
    | _ => none

end

/-- Enough to read an expression of all these tokens. -/
def fuelFor (text : List Token) : Nat := 4 * text.length

/-- Reads the bindings one after another, and the result behind them. -/
def readBody : Nat → List Token → Option Body
  | 0, _ => none
  | fuel + 1, .word ['l', 'e', 't'] :: .word name :: .mark '=' :: text => do
    let (value, rest) ← readExpression (fuelFor text) 0 text
    let body ← readBody fuel (← expect [.mark ';'] rest)
    some { body with bindings := (.single (String.ofList name), value) :: body.bindings }
  | fuel + 1, .word ['l', 'e', 't'] :: .mark '(' :: .word first :: .mark ',' :: .word second ::
      .mark ')' :: .mark '=' :: text => do
    let (value, rest) ← readExpression (fuelFor text) 0 text
    let body ← readBody fuel (← expect [.mark ';'] rest)
    let names := Binder.pair (String.ofList first) (String.ofList second)
    some { body with bindings := (names, value) :: body.bindings }
  | _ + 1, text => do
    let (result, rest) ← readExpression (fuelFor text) 0 text
    if rest = [] then some ⟨[], result⟩ else none

/-- The names of the arguments, each of them a word. -/
def readArguments : List Token → Option Binder
  | [.word name, .mark ':', .word ['u', '3', '2']] => some (.single (String.ofList name))
  | [.word first, .mark ':', .word ['u', '3', '2'], .mark ',', .word second, .mark ':',
      .word ['u', '3', '2']] => some (.pair (String.ofList first) (String.ofList second))
  | _ => none

/-- A function that can be called. -/
structure Definition where
  name : String
  arguments : Binder
  body : Body
deriving DecidableEq

/-- Reads a function from the tokens of its head and those of its body. -/
def readDefinition (head body : List Token) : Option Definition := do
  let head := (expect [.word ['p', 'u', 'b']] head).getD head
  match head with
  | .word ['f', 'n'] :: .word name :: .mark '(' :: rest => do
    let arguments ← readArguments (rest.takeWhile (· ≠ .mark ')'))
    let body ← readBody (body.length + 1) body
    some ⟨String.ofList name, arguments, body⟩
  | _ => none

end Scangen.Generated
