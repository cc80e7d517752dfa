/-!
Marks of accepting states: which rule has matched, and how much of what was read is its token.
-/

namespace Scangen

inductive Trailing where
  /-- All of the match is the token. -/
  | whole
  /-- The token is the first `n` symbols. -/
  | head (n : Nat)
  /-- The last `n` symbols are context. -/
  | tail (n : Nat)
deriving DecidableEq

namespace Trailing

/-- The length of the token in a match of `matched` symbols. -/
def tokenLength : Trailing → Nat → Nat
  | whole, matched => matched
  | head n, _ => n
  | tail n, matched => matched - n

/-- No more is kept or cut off than was read. -/
def Within : Trailing → Nat → Prop
  | whole, _ => True
  | head n, matched => n ≤ matched
  | tail n, matched => n ≤ matched

/-- More would be cut off than was read. -/
def Underflows : Trailing → Nat → Prop
  | tail n, matched => matched < n
  | _, _ => False

/-- The place among all trailings: first `whole`, then by kind and number. -/
def rank : Trailing → Nat × Nat
  | whole => (0, 0)
  | head n => (1, n)
  | tail n => (2, n)

theorem Within.tokenLength_le {trailing : Trailing} {matched : Nat}
    (within : trailing.Within matched) : trailing.tokenLength matched ≤ matched := by
  cases trailing with
  | whole => exact Nat.le_refl _
  | head n => exact within
  | tail n => exact Nat.sub_le _ _

theorem Within.not_underflows {trailing : Trailing} {matched : Nat}
    (within : trailing.Within matched) : ¬trailing.Underflows matched := by
  cases trailing with
  | whole => exact id
  | head n => exact id
  | tail n => exact Nat.not_lt.mpr within

end Trailing

structure Tag where
  rule : Nat
  /-- The place of the rule in its specification; the lower one wins. -/
  priority : Nat
  trailing : Trailing
deriving DecidableEq

namespace Tag

/-- Tags are ranked by priority, then by rule, then by what follows the token. -/
def Before (a b : Tag) : Prop :=
  a.priority < b.priority ∨ a.priority = b.priority ∧
    (a.rule < b.rule ∨ a.rule = b.rule ∧
      (a.trailing.rank.1 < b.trailing.rank.1 ∨ a.trailing.rank.1 = b.trailing.rank.1 ∧
        a.trailing.rank.2 < b.trailing.rank.2))

instance (a b : Tag) : Decidable (a.Before b) := by
  unfold Before
  infer_instance

/-- The first of the tags in their order. -/
def first? : List Tag → Option Tag
  | [] => none
  | tag :: others =>
    match first? others with
    | none => some tag
    | some best => if best.Before tag then some best else some tag

end Tag

end Scangen
