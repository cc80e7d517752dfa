/-!
Lists of lists of one length, put one behind the other.
-/

namespace Scangen

variable {α : Type}

theorem length_flatten {width : Nat} {lists : List (List α)}
    (uniform : ∀ l ∈ lists, l.length = width) : lists.flatten.length = lists.length * width := by
  induction lists with
  | nil => simp
  | cons first rest ih =>
    rw [List.flatten_cons, List.length_append, uniform first List.mem_cons_self,
      ih fun l member => uniform l (List.mem_cons_of_mem _ member), List.length_cons, Nat.succ_mul,
      Nat.add_comm]

theorem getElem?_flatten {width : Nat} {lists : List (List α)}
    (uniform : ∀ l ∈ lists, l.length = width) {i j : Nat}
    (inside : j < width) : lists.flatten[i * width + j]? = lists[i]?.bind fun l => l[j]? := by
  induction lists generalizing i with
  | nil => simp
  | cons first rest ih =>
    have first_length := uniform first List.mem_cons_self
    have rest_uniform : ∀ l ∈ rest, l.length = width :=
      fun l member => uniform l (List.mem_cons_of_mem _ member)
    rw [List.flatten_cons]
    cases i with
    | zero =>
      rw [Nat.zero_mul, Nat.zero_add, List.getElem?_append_left (by omega)]
      rfl
    | succ i =>
      have start : (i + 1) * width + j = width + (i * width + j) := by
        rw [Nat.succ_mul]
        omega
      rw [start, List.getElem?_append_right (by omega), first_length,
        Nat.add_sub_cancel_left, ih rest_uniform]
      rfl

end Scangen
