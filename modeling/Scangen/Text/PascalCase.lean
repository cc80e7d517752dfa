import Scangen.Text.Cluster
import Scangen.Text.LetterCase

/-!
Names in Pascal case. A name falls into words at its separators, between letters and digits, before a
capital behind a small letter, and before the last of several capitals if a small letter follows it. For
these rules a letter is a cluster: a separator with an accent is none.
-/

namespace Scangen.Text

def isSeparator (cluster : List Char) : Bool :=
  cluster = ['_'] || cluster = ['-'] || cluster = [' ']

def isDigit (cluster : List Char) : Bool := cluster.all Char.isDigit

/-- A word ends between the first two clusters; the third one follows them. -/
def isWordBoundary (a b : List Char) (next : Option (List Char)) : Bool :=
  (isLower a && (isUpper b || isDigit b)) || (isUpper a && isDigit b) ||
    (isDigit a && (isUpper b || isLower b)) || (isUpper a && isUpper b && next.any isLower)

/-- The words of a name behind `previous`. Next to a separator, a word may be empty. -/
def nameWords (previous : Option (List Char)) : List (List Char) → List (List (List Char))
  | [] => [[]]
  | c :: rest =>
    if isSeparator c then [] :: nameWords (some c) rest
    else
      match nameWords (some c) rest with
      | [] => [[c]]
      | word :: others =>
        if previous.any fun a => isWordBoundary a c rest.head? then [] :: (c :: word) :: others
        else (c :: word) :: others

/-- The first character in upper case and the others in lower case. -/
def capitalize : List Char → List Char
  | [] => []
  | first :: rest => upper first ++ lowerAll rest

def pascalCase (name : String) : String :=
  let words := nameWords none (clusters name.toList)
  String.ofList (words.flatMap fun word => capitalize word.flatten)

end Scangen.Text
