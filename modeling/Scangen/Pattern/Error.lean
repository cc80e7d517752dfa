/-!
What can be wrong with the text of a pattern.
-/

namespace Scangen

inductive PatternError where
  | unexpectedEnd
  | unexpected (c : Char)
  | unbalanced
  | badCount (text : List Char)
  | badEscape (text : List Char)
  | emptyClass
  | invertedRange
  | empty
deriving DecidableEq

def PatternError.message : PatternError → String
  | unexpectedEnd => "unexpected end of pattern"
  | unexpected c => "unexpected `" ++ c.toString ++ "` in pattern"
  | unbalanced => "unbalanced parenthesis"
  | badCount text => "malformed repetition count `" ++ String.ofList text ++ "`"
  | badEscape text => "malformed escape sequence `\\" ++ String.ofList text ++ "`"
  | emptyClass => "empty character class"
  | invertedRange => "inverted range in character class"
  | empty => "empty pattern"

end Scangen
