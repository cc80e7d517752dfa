/-!
Paths: names between slashes, to be followed from left to right.
-/

namespace Scangen.Program

structure Path where
  /-- The path begins at the root. -/
  rooted : Bool
  /-- The names in their order. A dot is one of them. -/
  names : List String
  /-- A slash at the end asks for a directory. -/
  closed : Bool
  /-- No system takes a path that is longer. -/
  tooLong : Bool

def Path.ofText (text : String) : Path where
  rooted := text.toList.head? = some '/'
  names := ((text.toList.splitOn '/').map String.ofList).filter (· ≠ "")
  closed := text.toList.getLast? = some '/'
  tooLong := 4096 ≤ text.utf8ByteSize

/-- A name that no directory can hold. -/
def isLongName (name : String) : Bool := 255 < name.utf8ByteSize

/-- The last name of a path up to its last dot; a dot in front does not count. -/
def fileStem (path : String) : Option String :=
  match ((Path.ofText path).names.filter (· ≠ ".")).getLast? with
  | none => none
  | some ".." => none
  | some name =>
    match name.toList.reverse.dropWhile (· ≠ '.') with
    | [] => some name
    | [_] => some name
    | _ :: stem => some (String.ofList stem.reverse)

end Scangen.Program
