/-!
Sums over lists.
-/

namespace Scangen

/-- The sum of the values of all items. -/
def total {α : Type} (value : α → Nat) : List α → Nat
  | [] => 0
  | item :: rest => value item + total value rest

@[simp] theorem total_append {α : Type} (value : α → Nat) (first second : List α) :
    total value (first ++ second) = total value first + total value second := by
  induction first with
  | nil => simp [total]
  | cons item rest ih => simp only [List.cons_append, total, ih, Nat.add_assoc]

theorem total_congr {α : Type} {value value' : α → Nat} {items : List α}
    (same : ∀ item ∈ items, value item = value' item) : total value items = total value' items := by
  induction items with
  | nil => rfl
  | cons item rest ih =>
    have here := same item List.mem_cons_self
    have later := ih fun other member => same other (List.mem_cons_of_mem _ member)
    simp only [total, here, later]

end Scangen
