/-!
Characters listed by runs of consecutive code points.
-/

namespace Scangen.Text

/-- First and last code point of each run, in ascending order. -/
abbrev CharRuns := List (Nat × Nat)

/-- The character lies in one of the runs. -/
def CharRuns.holds (runs : CharRuns) (c : Char) : Bool :=
  runs.any fun (first, last) => first ≤ c.toNat && c.toNat ≤ last

end Scangen.Text
