import Scangen.Spec.Definition

/-!
Definition texts in full: every rule with its name and its conditions, every line ended.
-/

namespace Scangen

/-- A line of a definition as it is to be written. -/
inductive WrittenLine where
  | declaration (exclusive : Bool) (names : List (List Char))
  /-- Without a list, the rule is active in all conditions. -/
  | rule (name : List Char) (conditions : Option (List (List Char))) (pattern : List Char)

namespace WrittenLine

def conditionText (conditions : Option (List (List Char))) : List Char :=
  match conditions with
  | none => ['*']
  | some names => [','].intercalate names

def text : WrittenLine → List Char
  | declaration exclusive names =>
    ['%', if exclusive then 'x' else 's'] ++ names.flatMap (' ' :: ·)
  | rule name conditions pattern =>
    name ++ [':', ' ', '<'] ++ conditionText conditions ++ '>' :: pattern

end WrittenLine

def writeDefinition (lines : List WrittenLine) : List Char :=
  lines.flatMap fun line => line.text ++ ['\n']

end Scangen
