import Scangen.Pattern.Length

/-!
Patterns of rules: an expression, perhaps bound to the start or the end of a line, perhaps followed
by a context that has to match as well but does not belong to the token.
-/

namespace Scangen

structure Pattern where
  /-- Matches only at the start of a line. -/
  lineStart : Bool
  body : Regex
  context : Option Regex
  /-- Matches only right before the end of a line. -/
  lineEnd : Bool

namespace Pattern

def ofRegex (body : Regex) : Pattern := ⟨false, body, none, false⟩

def symbolSets (charset : Charset) (p : Pattern) : List SymbolSet :=
  p.body.symbolSets charset ++
    match p.context with
    | none => []
    | some context => context.symbolSets charset

end Pattern

end Scangen
