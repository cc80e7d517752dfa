import Scangen.Finite.IndexSet
import Scangen.Finite.Distinct

/-!
Search in a finite graph given by its successor function: the set of all nodes that can be reached
from some nodes, and all reachable keys in breadth-first order.
-/

namespace Scangen.Search

/-- Splits off the nodes not seen so far, each one once, and marks them as seen. -/
def discover (seen : IndexSet) : List Nat → List Nat × IndexSet
  | [] => ([], seen)
  | node :: rest =>
    if seen.contains node then discover seen rest
    else
      let found := discover (seen.insert node) rest
      (node :: found.1, found.2)

/-- Follows the pending nodes, all of them marked as seen. Every node is pending at most once, so
a graph with `fuel` nodes is searched to its end. -/
def follow (successors : Nat → List Nat) : Nat → List Nat → IndexSet → IndexSet
  | 0, _, seen => seen
  | _ + 1, [], seen => seen
  | fuel + 1, node :: pending, seen =>
    let found := discover seen (successors node)
    follow successors fuel (found.1 ++ pending) found.2

/-- All nodes reachable from `seeds` in a graph with nodes below `size`. -/
def reachable (size : Nat) (successors : Nat → List Nat) (seeds : List Nat) : IndexSet :=
  let found := discover ∅ seeds
  follow successors size found.1 found.2

variable {κ : Type} [DecidableEq κ]

/-- Visits the known keys from number `next` on, appending the successors that are new. -/
def visit (successors : κ → List κ) : Nat → Nat → List κ → List κ
  | 0, _, known => known
  | fuel + 1, next, known =>
    match known[next]? with
    | none => known
    | some key => visit successors fuel (next + 1) (addNew known (successors key))

/-- All keys reachable from `starts`, the starts first and then in the order in which a
breadth-first search meets them; `bound` is a bound on their number. -/
def breadthFirst (bound : Nat) (successors : κ → List κ) (starts : List κ) : List κ :=
  visit successors bound 0 (distinct starts)

theorem visit_eq_append (successors : κ → List κ) (fuel next : Nat) (known : List κ) :
    ∃ fresh, visit successors fuel next known = known ++ fresh := by
  induction fuel generalizing next known with
  | zero => exact ⟨[], (List.append_nil known).symm⟩
  | succ fuel ih =>
    rw [visit]
    split
    next => exact ⟨[], (List.append_nil known).symm⟩
    next key _ =>
      obtain ⟨added, grown⟩ := addNew_eq_append known (successors key)
      obtain ⟨fresh, same⟩ := ih (next + 1) (addNew known (successors key))
      exact ⟨added ++ fresh, by rw [same, grown, List.append_assoc]⟩

theorem visit_nodup (successors : κ → List κ) (fuel next : Nat) {known : List κ}
    (unique : known.Nodup) : (visit successors fuel next known).Nodup := by
  induction fuel generalizing next known with
  | zero => exact unique
  | succ fuel ih =>
    rw [visit]
    split
    next => exact unique
    next key _ => exact ih (next + 1) (addNew_nodup unique)

theorem breadthFirst_nodup (bound : Nat) (successors : κ → List κ) (starts : List κ) :
    (breadthFirst bound successors starts).Nodup :=
  visit_nodup successors bound 0 (distinct_nodup starts)

end Scangen.Search
