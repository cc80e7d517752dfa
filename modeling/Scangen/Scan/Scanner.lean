import Scangen.Table.Basic

/-!
Scanning with tables: longest matches one after the other. Behind a token the scanner goes on right
after it, so a context that followed the token is read again.
-/

namespace Scangen

structure Scanner where
  tables : Tables
  /-- The start condition in which the scanner is. -/
  condition : Nat

structure UnknownCondition where
  id : Nat
deriving DecidableEq

def UnknownCondition.message (e : UnknownCondition) : String := s!"unknown start condition {e.id}"

inductive ScanError where
  | noMatch (offset : Nat)
deriving DecidableEq

def ScanError.message : ScanError → String
  | noMatch offset => s!"no rule matches at offset {offset}"

structure Token where
  rule : Nat
  start : Nat
  stop : Nat
deriving DecidableEq

inductive ScanResult where
  /-- With the end-of-input rule of the condition. -/
  | endOfInput (action : Option Nat)
  | failed
  | token (token : Token)
deriving DecidableEq

namespace Scanner

def ofTables (tables : Tables) : Scanner := ⟨tables, 0⟩

def setCondition (s : Scanner) (condition : Nat) : Except UnknownCondition Scanner :=
  if condition < s.tables.starts.size then .ok { s with condition } else .error ⟨condition⟩

/-- A line starts at the beginning of the input and after each line feed. -/
def atLineStart (previous : Option Nat) : Bool := previous.all (· = lineFeed)

/-- The longest match at the start of the rest of an input. -/
def matchRest (s : Scanner) (previous : Option Nat) (rest : List Nat) : Option Match :=
  s.tables.recognizer.longestMatch s.condition rest (atLineStart previous)

/-- The token at a place of the input. -/
def nextWord (s : Scanner) (input : List Nat) (cursor : Nat) : ScanResult :=
  match input.drop cursor with
  | [] => .endOfInput (s.tables.endAction s.condition)
  | rest =>
    let previous := if cursor = 0 then none else input[cursor - 1]?
    match s.matchRest previous rest with
    | none => .failed
    | some m => .token ⟨m.rule, cursor, cursor + m.length⟩

/-- The tokens of the rest of an input, which starts at `offset`. No token is empty, so there are
fewer of them than `fuel` if that is more than the length of the rest. -/
def scanRest (s : Scanner) : Nat → Option Nat → Nat → List Nat →
    Except ScanError (List (Nat × List Nat))
  | 0, _, _, _ => .ok []
  | _ + 1, _, _, [] => .ok []
  | fuel + 1, previous, offset, rest =>
    match s.matchRest previous rest with
    | none => .error (.noMatch offset)
    | some m =>
      let lexeme := rest.take m.length
      (scanRest s fuel (lexeme.getLast?.or previous) (offset + m.length) (rest.drop m.length)).map
        ((m.rule, lexeme) :: ·)

/-- Cuts all of an input into tokens, without leaving the condition. -/
def scan (s : Scanner) (input : List Nat) : Except ScanError (List (Nat × List Nat)) :=
  s.scanRest (input.length + 1) none 0 input

end Scanner

end Scangen
