/-!
Keys numbered 0, 1, 2, … in order of first appearance.
-/

namespace Scangen

variable {κ : Type} [DecidableEq κ]

/-- Appends the keys that are not known yet, each one once. -/
def addNew (known : List κ) : List κ → List κ
  | [] => known
  | key :: rest => if key ∈ known then addNew known rest else addNew (known ++ [key]) rest

/-- The keys without repetition, in order of first appearance. -/
def distinct (keys : List κ) : List κ := addNew [] keys

/-- The number of each key, where equal keys share one. -/
def ranks (keys : List κ) : List Nat :=
  let known := distinct keys
  keys.map fun key => known.idxOf key

theorem mem_addNew {known keys : List κ} {key : κ} :
    key ∈ addNew known keys ↔ key ∈ known ∨ key ∈ keys := by
  induction keys generalizing known with
  | nil => simp [addNew]
  | cons first rest ih =>
    rw [addNew]
    split
    next old =>
      rw [ih]
      constructor
      · rintro (member | member)
        · exact Or.inl member
        · exact Or.inr (List.mem_cons_of_mem _ member)
      · rintro (member | member)
        · exact Or.inl member
        · rcases List.mem_cons.mp member with same | later
          · exact Or.inl (same ▸ old)
          · exact Or.inr later
    next new =>
      rw [ih]
      simp only [List.mem_append, List.mem_cons, List.not_mem_nil, or_false, or_assoc]

theorem addNew_nodup {known keys : List κ} (unique : known.Nodup) : (addNew known keys).Nodup := by
  induction keys generalizing known with
  | nil => exact unique
  | cons first rest ih =>
    rw [addNew]
    split
    next old => exact ih unique
    next new =>
      apply ih
      rw [List.nodup_append]
      refine ⟨unique, by simp, ?_⟩
      intro a member b single
      rw [List.mem_singleton] at single
      rintro rfl
      exact new (single ▸ member)

/-- What is known stays where it is. -/
theorem addNew_eq_append (known keys : List κ) : ∃ fresh, addNew known keys = known ++ fresh := by
  induction keys generalizing known with
  | nil => exact ⟨[], (List.append_nil known).symm⟩
  | cons first rest ih =>
    rw [addNew]
    split
    next old => exact ih known
    next new =>
      obtain ⟨fresh, same⟩ := ih (known ++ [first])
      exact ⟨first :: fresh, by rw [same, List.append_assoc]; rfl⟩

@[simp] theorem mem_distinct {keys : List κ} {key : κ} : key ∈ distinct keys ↔ key ∈ keys := by
  simp [distinct, mem_addNew]

theorem distinct_nodup (keys : List κ) : (distinct keys).Nodup :=
  addNew_nodup List.nodup_nil

@[simp] theorem length_ranks (keys : List κ) : (ranks keys).length = keys.length := by
  simp [ranks]

end Scangen
