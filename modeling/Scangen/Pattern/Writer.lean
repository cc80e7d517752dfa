import Scangen.Pattern.Basic

/-!
A full written form of expressions: every symbol by its number, every part of a larger expression in
parentheses. The text of a rule is put together from the texts of its expressions.
-/

namespace Scangen

def writeSymbol (c : Nat) : List Char := "\\u\x7b".toList ++ Nat.toDigits 16 c ++ ['\x7d']

def SymbolRange.write (r : SymbolRange) : List Char :=
  if r.low = r.high then writeSymbol r.low else writeSymbol r.low ++ '-' :: writeSymbol r.high

def SymbolClass.write (c : SymbolClass) : List Char :=
  '[' :: (if c.negated then ['^'] else []) ++ c.ranges.ranges.flatMap SymbolRange.write ++ [']']

def writeCount (least : Nat) (most : Option Nat) : List Char :=
  '\x7b' :: Nat.toDigits 10 least ++ ',' :: (most.map (Nat.toDigits 10)).getD [] ++ ['\x7d']

def inParentheses (text : List Char) : List Char := '(' :: text ++ [')']

namespace Regex

mutual

def write : Regex → List Char
  | alternation alternates => writeAlternates alternates
  | concatenation factors => writeFactors factors
  | star inner => inParentheses (write inner) ++ ['*']
  | plus inner => inParentheses (write inner) ++ ['+']
  | optional inner => inParentheses (write inner) ++ ['?']
  | repetition inner least most => inParentheses (write inner) ++ writeCount least most
  | symbol c => writeSymbol c
  | symbolClass c => c.write
  | empty => ['"', '"']

def writeFactors : List Regex → List Char
  | [] => []
  | first :: rest => inParentheses (write first) ++ writeFactors rest

def writeAlternates : List Regex → List Char
  | [] => []
  | [last] => inParentheses (write last)
  | first :: second :: rest =>
    inParentheses (write first) ++ '|' :: writeAlternates (second :: rest)

end

/-- The number of a character. -/
def IsScalar (c : Nat) : Prop := c.isValidChar

mutual

/-- Expressions that a text can stand for: lists of parts have at least two, classes have members,
symbols and the ends of ranges are characters, and counts are numbers of 32 bits in order. -/
def WellFormed : Regex → Prop
  | alternation alternates => 2 ≤ alternates.length ∧ AllWellFormed alternates
  | concatenation factors => 2 ≤ factors.length ∧ AllWellFormed factors
  | star inner => WellFormed inner
  | plus inner => WellFormed inner
  | optional inner => WellFormed inner
  | repetition inner least most =>
    least < UInt32.size ∧ (∀ limit ∈ most, least ≤ limit ∧ limit < UInt32.size) ∧ WellFormed inner
  | symbol c => IsScalar c
  | symbolClass c => c.ranges ≠ ∅ ∧ ∀ r ∈ c.ranges.ranges, IsScalar r.low ∧ IsScalar r.high
  | empty => True

def AllWellFormed : List Regex → Prop
  | [] => True
  | first :: rest => WellFormed first ∧ AllWellFormed rest

end

end Regex

/-- The text of a rule: the body, perhaps in front of a context, with or without anchors. -/
def ruleText (lineStart : Bool) (body : List Char) (context : Option (List Char)) (lineEnd : Bool) :
    List Char :=
  (if lineStart then ['^'] else []) ++ body ++ (context.map ('/' :: ·)).getD [] ++
    if lineEnd then ['$'] else []

def Pattern.WellFormed (p : Pattern) : Prop :=
  p.body.WellFormed ∧ ∀ context ∈ p.context, context.WellFormed

end Scangen
