import Scangen.Finite.Total

/-!
The lines of a text and their lengths in bytes.
-/

namespace Scangen.Text

/-- A line ends at a line feed, which may follow a carriage return; the last line need not end. -/
def lines : List Char → List (List Char)
  | [] => []
  | '\n' :: rest => [] :: lines rest
  | '\r' :: '\n' :: rest => [] :: lines rest
  | c :: rest =>
    match lines rest with
    | [] => [[c]]
    | line :: others => (c :: line) :: others

/-- The length in UTF-8. -/
def byteLength (text : List Char) : Nat := total Char.utf8Size text

@[simp] theorem byteLength_append (a b : List Char) :
    byteLength (a ++ b) = byteLength a + byteLength b := by
  simp [byteLength]

end Scangen.Text
