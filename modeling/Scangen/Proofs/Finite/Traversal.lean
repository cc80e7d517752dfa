import Mathlib.Data.List.Forall2
import Scangen.Proofs.Finite.Search

/-!
Breadth-first searches side by side. Keys that stand for one another are met in the same order, and a
larger bound changes nothing once all keys are found. All that is met is handed on from the starts.
-/

namespace Scangen

open Relator

section Related

theorem map_related {α α' β : Type} {R : α → α' → Prop} {f : α → β} {f' : α' → β} {l : List α}
    {l' : List α'} (same : List.Forall₂ R l l') (agree : ∀ {a a'}, R a a' → f a = f' a') :
    l.map f = l'.map f' := by
  rw [← List.forall₂_eq_eq_eq, List.forall₂_map_left_iff, List.forall₂_map_right_iff]
  exact same.imp fun _ _ => agree

variable {κ κ' : Type} [DecidableEq κ] [DecidableEq κ'] {R : κ → κ' → Prop}

theorem idxOf_related (unique : BiUnique R) {keys : List κ} {keys' : List κ'}
    (same : List.Forall₂ R keys keys') {key : κ} {key' : κ'} (related : R key key') :
    keys.idxOf key = keys'.idxOf key' := by
  induction same with
  | nil => rfl
  | @cons first first' rest rest' first_related _ ih =>
    have here : first = key ↔ first' = key' := rel_eq unique first_related related
    rw [List.idxOf_cons, List.idxOf_cons, ih]
    simp only [beq_iff_eq, cond_eq_ite, here]

theorem addNew_related (unique : BiUnique R) {known keys : List κ} {known' keys' : List κ'}
    (same : List.Forall₂ R known known') (more : List.Forall₂ R keys keys') :
    List.Forall₂ R (addNew known keys) (addNew known' keys') := by
  induction more generalizing known known' with
  | nil => exact same
  | @cons first first' _ _ related _ ih =>
    have old : first ∈ known ↔ first' ∈ known' := List.rel_mem unique related same
    rw [addNew, addNew]
    by_cases member : first ∈ known
    · rw [if_pos member, if_pos (old.mp member)]
      exact ih same
    · rw [if_neg member, if_neg fun member' => member (old.mpr member')]
      exact ih (List.rel_append same (.cons related .nil))

namespace Search

variable {successors : κ → List κ} {successors' : κ' → List κ'}

theorem visit_related (unique : BiUnique R)
    (step : ∀ {key key'}, R key key' → List.Forall₂ R (successors key) (successors' key'))
    (fuel next : Nat) {known : List κ} {known' : List κ'} (same : List.Forall₂ R known known') :
    List.Forall₂ R (visit successors fuel next known) (visit successors' fuel next known') := by
  induction fuel generalizing next known known' with
  | zero => exact same
  | succ fuel ih =>
    have length := same.length_eq
    rw [visit, visit]
    by_cases inside : next < known.length
    · have related := same.get inside (by omega)
      rw [List.getElem?_eq_getElem inside, List.getElem?_eq_getElem (by omega)]
      exact ih (next + 1) (addNew_related unique same (step related))
    · rw [List.getElem?_eq_none (by omega), List.getElem?_eq_none (by omega)]
      exact same

/-- Searches from related starts, along related successors, meet related keys. -/
theorem breadthFirst_related (unique : BiUnique R)
    (step : ∀ {key key'}, R key key' → List.Forall₂ R (successors key) (successors' key'))
    (bound : Nat) {starts : List κ} {starts' : List κ'} (same : List.Forall₂ R starts starts') :
    List.Forall₂ R (breadthFirst bound successors starts)
      (breadthFirst bound successors' starts') :=
  visit_related unique step bound 0 (addNew_related unique .nil same)

end Search

end Related

namespace Search

variable {κ : Type} [DecidableEq κ] {successors : κ → List κ} {starts : List κ} {bound : Nat}
  {P : κ → Prop}

/-- The search without a bound: it visits the known keys from number `next` on, appends what is new,
and ends when no key is left to visit. -/
inductive Finishes (successors : κ → List κ) : Nat → List κ → List κ → Prop
  | done {next : Nat} {known : List κ} :
      known[next]? = none → Finishes successors next known known
  | visit {next : Nat} {known found : List κ} {key : κ} : known[next]? = some key →
      Finishes successors (next + 1) (addNew known (successors key)) found →
      Finishes successors next known found

theorem Finishes.unique {next : Nat} {known found found' : List κ}
    (first : Finishes successors next known found)
    (second : Finishes successors next known found') : found = found' := by
  induction first with
  | done missing =>
    cases second with
    | done => rfl
    | visit there => cases missing.symm.trans there
  | visit there _ ih =>
    cases second with
    | done missing => cases missing.symm.trans there
    | visit there' rest =>
      cases there.symm.trans there'
      exact ih rest

/-- With as much fuel as there are keys left the search comes to its end. -/
theorem visit_finishes {fuel next : Nat} {known : List κ} (unique : known.Nodup)
    (allowed : ∀ key ∈ known, P key) (step : ∀ key, P key → ∀ later ∈ successors key, P later)
    (few : ∀ keys : List κ, keys.Nodup → (∀ key ∈ keys, P key) → keys.length ≤ bound)
    (enough : bound ≤ fuel + next) :
    Finishes successors next known (visit successors fuel next known) := by
  induction fuel generalizing next known with
  | zero =>
    have bounded := few known unique allowed
    exact .done (List.getElem?_eq_none (by omega))
  | succ fuel ih =>
    rw [visit]
    cases found : known[next]? with
    | none => exact .done found
    | some key =>
      refine .visit found (ih (addNew_nodup unique) (fun other member => ?_) (by omega))
      rcases mem_addNew.mp member with old | new
      · exact allowed other old
      · exact step key (allowed key (List.mem_of_getElem? found)) other new

/-- The bound on the number of keys does not end the search before it is done. -/
theorem breadthFirst_finishes (start : ∀ key ∈ starts, P key)
    (step : ∀ key, P key → ∀ later ∈ successors key, P later)
    (few : ∀ keys : List κ, keys.Nodup → (∀ key ∈ keys, P key) → keys.length ≤ bound) :
    Finishes successors 0 (distinct starts) (breadthFirst bound successors starts) :=
  visit_finishes (distinct_nodup starts) (fun key member => start key (mem_distinct.mp member)) step
    few (by omega)

/-- A bound on the number of keys may be raised. -/
theorem breadthFirst_more (start : ∀ key ∈ starts, P key)
    (step : ∀ key, P key → ∀ later ∈ successors key, P later)
    (few : ∀ keys : List κ, keys.Nodup → (∀ key ∈ keys, P key) → keys.length ≤ bound)
    (more : Nat) :
    breadthFirst (bound + more) successors starts = breadthFirst bound successors starts := by
  have few' : ∀ keys : List κ, keys.Nodup → (∀ key ∈ keys, P key) → keys.length ≤ bound + more :=
    fun keys unique allowed => Nat.le_add_right_of_le (few keys unique allowed)
  exact (breadthFirst_finishes start step few').unique (breadthFirst_finishes start step few)

/-- What known keys hand on to their successors holds of all keys that are met. -/
theorem visit_induction {fuel next : Nat} {known : List κ} (start : ∀ key ∈ known, P key)
    (step : ∀ key ∈ visit successors fuel next known, P key →
      ∀ later ∈ successors key, later ∈ visit successors fuel next known → P later) :
    ∀ key ∈ visit successors fuel next known, P key := by
  induction fuel generalizing next known with
  | zero => exact start
  | succ fuel ih =>
    rw [visit] at step ⊢
    cases found : known[next]? with
    | none => exact start
    | some key =>
      rw [found] at step
      have member : key ∈ known := List.mem_of_getElem? found
      have met : key ∈ visit successors fuel (next + 1) (addNew known (successors key)) :=
        subset_visit (mem_addNew.mpr (Or.inl member))
      refine ih (fun other known_now => ?_) step
      rcases mem_addNew.mp known_now with old | new
      · exact start other old
      · exact step key met (start key member) other new (subset_visit known_now)

theorem breadthFirst_induction (start : ∀ key ∈ starts, P key)
    (step : ∀ key ∈ breadthFirst bound successors starts, P key →
      ∀ later ∈ successors key, later ∈ breadthFirst bound successors starts → P later) :
    ∀ key ∈ breadthFirst bound successors starts, P key :=
  visit_induction (fun key member => start key (mem_distinct.mp member)) step

end Search

end Scangen
