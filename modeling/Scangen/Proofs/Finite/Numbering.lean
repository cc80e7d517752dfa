import Mathlib.Data.List.Perm.Subperm
import Scangen.Finite.Distinct

/-!
Numbers for keys: below the number of different keys, the same only for the same key, and handed out
in order.
-/

namespace Scangen

variable {α κ : Type} [DecidableEq κ] {l : List α} {key : α → κ}

/-- The number that the key of an entry has among those of a list. -/
def numberOf (l : List α) (key : α → κ) (a : α) : Nat := (distinct (l.map key)).idxOf (key a)

theorem ranks_map : ranks (l.map key) = l.map (numberOf l key) := by
  rw [ranks, List.map_map]
  rfl

theorem zip_ranks : l.zip (ranks (l.map key)) = l.map fun a => (a, numberOf l key a) := by
  have paired := List.zip_map' (f := id) (g := numberOf l key) (l := l)
  rw [List.map_id] at paired
  rw [ranks_map, paired]
  rfl

theorem numberOf_lt {a : α} (member : a ∈ l) : numberOf l key a < (distinct (l.map key)).length :=
  List.idxOf_lt_length_of_mem (mem_distinct.mpr (List.mem_map_of_mem member))

theorem numberOf_inj {a b : α} (member : a ∈ l) :
    numberOf l key a = numberOf l key b ↔ key a = key b :=
  List.idxOf_inj (mem_distinct.mpr (List.mem_map_of_mem member))

/-- The key with a number that was handed out. -/
theorem getElem?_distinct {keys : List κ} {k : κ} (member : k ∈ keys) :
    (distinct keys)[(distinct keys).idxOf k]? = some k :=
  List.getElem?_idxOf (mem_distinct.mpr member)

theorem length_distinct_le (keys : List κ) : (distinct keys).length ≤ keys.length :=
  ((distinct_nodup keys).subperm fun _ member => mem_distinct.mp member).length_le

/-- Numbers are positions. -/
theorem idxOf_distinct {keys : List κ} {i : Nat} (small : i < (distinct keys).length) :
    (distinct keys).idxOf (distinct keys)[i] = i :=
  (distinct_nodup keys).idxOf_getElem i small

theorem lt_of_mem_ranks {keys : List κ} {i : Nat} (member : i ∈ ranks keys) :
    i < (distinct keys).length := by
  obtain ⟨key, listed, rfl⟩ := List.mem_map.mp member
  exact List.idxOf_lt_length_of_mem (mem_distinct.mpr listed)

/-- Every number up to that of the last key is handed out. -/
theorem mem_ranks {keys : List κ} {i : Nat} (small : i < (distinct keys).length) :
    i ∈ ranks keys :=
  List.mem_map.mpr ⟨_, mem_distinct.mp (List.getElem_mem small), idxOf_distinct small⟩

/-- Equal keys, and no others, share a number. -/
theorem ranks_eq_iff {keys : List κ} {i j : Nat} :
    (ranks keys)[i]? = (ranks keys)[j]? ↔ keys[i]? = keys[j]? := by
  rw [ranks, List.getElem?_map, List.getElem?_map]
  cases found : keys[i]? with
  | none => cases keys[j]? <;> simp
  | some key =>
    have listed : key ∈ distinct keys := mem_distinct.mpr (List.mem_of_getElem? found)
    cases keys[j]? with
    | none => simp
    | some other =>
      rw [Option.map_some, Option.map_some, Option.some_inj, Option.some_inj,
        List.idxOf_inj listed]

/-! A number is handed out after all smaller ones. Numbers with that property are determined by which
entries share one. -/

/-- Before the first entry with a number come entries with all smaller numbers. -/
def InOrder (number : Nat → Option Nat) : Prop :=
  ∀ i k, number i = some k → ∀ smaller < k, ∃ j < i, number j = some smaller

theorem distinct_append (front back : List κ) :
    distinct (front ++ back) = addNew (distinct front) back := by
  unfold distinct
  generalize [] = known
  induction front generalizing known with
  | nil => rfl
  | cons key rest ih =>
    rw [List.cons_append, addNew, addNew]
    split
    next => exact ih known
    next => exact ih (known ++ [key])

/-- New keys are appended as they are. -/
theorem addNew_of_nodup {known keys : List κ} (unique : (known ++ keys).Nodup) :
    addNew known keys = known ++ keys := by
  induction keys generalizing known with
  | nil => rw [addNew, List.append_nil]
  | cons key rest ih =>
    have fresh : key ∉ known := by
      intro old
      exact (List.nodup_append.mp unique).2.2 key old key List.mem_cons_self rfl
    rw [addNew, if_neg fresh, ih (by rwa [List.append_assoc]), List.append_assoc]
    rfl

/-- The numbers that come first are the first numbers. -/
theorem eq_range_of_append {n : Nat} {front back : List Nat} (whole : List.range n = front ++ back) :
    front = List.range front.length := by
  have length := congrArg List.length whole
  rw [List.length_range, List.length_append] at length
  calc front = (List.range n).take front.length := by rw [whole, List.take_left]
    _ = List.range front.length := by rw [List.take_range, Nat.min_eq_left (by omega)]

/-- A key has the next number unless it has been there before. -/
theorem idxOf_distinct_le (front : List κ) (key : κ) (back : List κ) :
    (distinct (front ++ key :: back)).idxOf key ≤ (distinct front).length := by
  rw [distinct_append, addNew]
  by_cases old : key ∈ distinct front
  · rw [if_pos old]
    obtain ⟨fresh, whole⟩ := addNew_eq_append (distinct front) back
    rw [whole, List.idxOf_append_of_mem old]
    exact Nat.le_of_lt (List.idxOf_lt_length_of_mem old)
  · rw [if_neg old]
    obtain ⟨fresh, whole⟩ := addNew_eq_append (distinct front ++ [key]) back
    rw [whole, List.append_assoc, List.idxOf_append_of_notMem old, List.singleton_append,
      List.idxOf_cons_self]
    exact Nat.le_refl _

theorem ranks_inOrder (keys : List κ) : InOrder fun i => (ranks keys)[i]? := by
  intro i k numbered smaller below
  simp only [ranks, List.getElem?_map, Option.map_eq_some_iff] at numbered ⊢
  obtain ⟨key, found, rfl⟩ := numbered
  obtain ⟨inside, rfl⟩ := List.getElem?_eq_some_iff.mp found
  have parts : keys.take i ++ keys[i] :: keys.drop (i + 1) = keys := by
    rw [← List.drop_eq_getElem_cons, List.take_append_drop]
  have early : smaller < (distinct (keys.take i)).length := by
    have bound := idxOf_distinct_le (keys.take i) keys[i] (keys.drop (i + 1))
    rw [parts] at bound
    omega
  obtain ⟨fresh, whole⟩ : ∃ fresh, distinct keys = distinct (keys.take i) ++ fresh := by
    rw [← parts, distinct_append, parts]
    exact addNew_eq_append _ _
  have within : smaller < (distinct keys).length := by
    rw [whole, List.length_append]
    omega
  have earlier : (distinct keys)[smaller] ∈ keys.take i := by
    rw [← mem_distinct]
    simp only [whole, List.getElem_append_left early, List.getElem_mem]
  obtain ⟨j, before, there⟩ := List.mem_take_iff_getElem.mp earlier
  refine ⟨j, by omega, (distinct keys)[smaller], ?_, idxOf_distinct within⟩
  rw [← there]
  exact List.getElem?_eq_getElem (by omega)

/-- Before an entry come entries with all smaller numbers. -/
theorem exists_numberOf {i smaller : Nat} {a : α} (there : l[i]? = some a)
    (below : smaller < numberOf l key a) :
    ∃ j < i, ∃ b, l[j]? = some b ∧ numberOf l key b = smaller := by
  have rank : ∀ j : Nat, (ranks (l.map key))[j]? = l[j]?.map (numberOf l key) := by
    intro j
    rw [ranks_map, List.getElem?_map]
  have numbered : (ranks (l.map key))[i]? = some (numberOf l key a) := by
    rw [rank, there, Option.map_some]
  obtain ⟨j, before, found⟩ := ranks_inOrder (l.map key) i _ numbered smaller below
  exact ⟨j, before, Option.map_eq_some_iff.mp ((rank j).symm.trans found)⟩

namespace InOrder

variable {f g : Nat → Option Nat} {i a b : Nat}

/-- The number of a new entry is not above one that is also in order. -/
theorem le_of_agree (second : InOrder g) (same : ∀ i j, f i = f j ↔ g i = g j)
    (agree : ∀ j < i, f j = g j) (left : f i = some a) (right : g i = some b) : b ≤ a := by
  by_contra above
  obtain ⟨j, before, numbered⟩ := second i b right a (by omega)
  have together : f j = f i := by rw [agree j before, numbered, left]
  rw [same, numbered, right, Option.some_inj] at together
  omega

/-- Two numberings in order that give the same entries the same numbers are equal. -/
theorem unique (first : InOrder f) (second : InOrder g) (defined : ∀ i, f i = none ↔ g i = none)
    (same : ∀ i j, f i = f j ↔ g i = g j) : f = g := by
  funext i
  induction i using Nat.strongRecOn with
  | _ i agree =>
    cases left : f i with
    | none => exact ((defined i).mp left).symm
    | some a =>
      cases right : g i with
      | none => rw [(defined i).mpr right] at left; cases left
      | some b =>
        have below := second.le_of_agree same agree left right
        have above := first.le_of_agree (fun i j => (same i j).symm)
          (fun j before => (agree j before).symm) right left
        rw [Nat.le_antisymm above below]

end InOrder

end Scangen
