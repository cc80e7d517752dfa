import Mathlib.Data.List.Perm.Subperm
import Mathlib.Logic.Relation
import Scangen.Finite.Search

/-!
What the searches find. The set of reachable nodes is closed under the successor function and holds
nothing that the seeds do not lead to; the keys met breadth first are closed as well, provided that
the bound on their number is one.
-/

namespace Scangen

theorem length_le_of_nodup_lt {l : List Nat} {size : Nat} (unique : l.Nodup)
    (small : ∀ i ∈ l, i < size) :
    l.length ≤ size := by
  have inside : l ⊆ List.range size := fun i member => List.mem_range.mpr (small i member)
  have bound := (unique.subperm inside).length_le
  rwa [List.length_range] at bound

namespace Search

/-- One node leads to another. -/
abbrev Leads (successors : Nat → List Nat) (a b : Nat) : Prop := b ∈ successors a

theorem mem_discover_seen {seen : IndexSet} {nodes : List Nat} {i : Nat} :
    i ∈ (discover seen nodes).2 ↔ i ∈ seen ∨ i ∈ nodes := by
  induction nodes generalizing seen with
  | nil => simp [discover]
  | cons node rest ih =>
    rw [discover]
    split
    next old =>
      rw [ih, List.mem_cons]
      constructor
      · rintro (known | later)
        · exact Or.inl known
        · exact Or.inr (Or.inr later)
      · rintro (known | same | later)
        · exact Or.inl known
        · exact Or.inl (same ▸ old)
        · exact Or.inr later
    next =>
      rw [ih, IndexSet.mem_insert, List.mem_cons]
      tauto

theorem mem_discover_fresh {seen : IndexSet} {nodes : List Nat} {i : Nat} :
    i ∈ (discover seen nodes).1 ↔ i ∈ nodes ∧ i ∉ seen := by
  induction nodes generalizing seen with
  | nil => simp [discover]
  | cons node rest ih =>
    rw [discover]
    split
    next old =>
      have known : node ∈ seen := old
      rw [ih, List.mem_cons]
      constructor
      · exact fun found => ⟨Or.inr found.1, found.2⟩
      · rintro ⟨same | later, fresh⟩
        · exact absurd (same ▸ known) fresh
        · exact ⟨later, fresh⟩
    next new =>
      have unknown : node ∉ seen := new
      simp only [List.mem_cons, ih, IndexSet.mem_insert]
      constructor
      · rintro (same | ⟨later, fresh⟩)
        · exact ⟨Or.inl same, same ▸ unknown⟩
        · exact ⟨Or.inr later, fun member => fresh (Or.inr member)⟩
      · rintro ⟨same | later, fresh⟩
        · exact Or.inl same
        · by_cases same : i = node
          · exact Or.inl same
          · exact Or.inr ⟨later, fun member => member.elim same fresh⟩

theorem discover_fresh_nodup (seen : IndexSet) (nodes : List Nat) :
    (discover seen nodes).1.Nodup := by
  induction nodes generalizing seen with
  | nil => exact List.nodup_nil
  | cons node rest ih =>
    rw [discover]
    split
    next => exact ih seen
    next =>
      refine List.nodup_cons.mpr ⟨?_, ih _⟩
      rw [mem_discover_fresh]
      exact fun found => found.2 (IndexSet.mem_insert.mpr (Or.inl rfl))

/-- What a search keeps true: the seen nodes are those that are finished and those that are pending,
each of them once, and finished nodes lead to seen ones only. -/
structure Progress (size : Nat) (successors : Nat → List Nat) (finished pending : List Nat)
    (seen : IndexSet) : Prop where
  mem_seen : ∀ i, i ∈ seen ↔ i ∈ finished ∨ i ∈ pending
  unique : (finished ++ pending).Nodup
  small : ∀ i ∈ seen, i < size
  followed : ∀ i ∈ finished, ∀ j ∈ successors i, j ∈ seen

section

variable {size : Nat} {successors : Nat → List Nat} {finished pending : List Nat} {seen : IndexSet}

theorem Progress.length_le (progress : Progress size successors finished pending seen) :
    finished.length + pending.length ≤ size := by
  have bound := length_le_of_nodup_lt progress.unique fun i member =>
    progress.small i ((progress.mem_seen i).mpr (List.mem_append.mp member))
  rwa [List.length_append] at bound

/-- Following one pending node finishes it. -/
theorem Progress.step {node : Nat}
    (progress : Progress size successors finished (node :: pending) seen)
    (inside : ∀ i < size, ∀ j ∈ successors i, j < size) :
    Progress size successors (node :: finished) ((discover seen (successors node)).1 ++ pending)
      (discover seen (successors node)).2 := by
  have node_seen : node ∈ seen := (progress.mem_seen node).mpr (Or.inr List.mem_cons_self)
  obtain ⟨finished_unique, pending_unique, apart⟩ := List.nodup_append.mp progress.unique
  obtain ⟨node_fresh, rest_unique⟩ := List.nodup_cons.mp pending_unique
  constructor
  · intro i
    rw [mem_discover_seen, progress.mem_seen, List.mem_append,
      mem_discover_fresh, progress.mem_seen,
      List.mem_cons, List.mem_cons]
    tauto
  · have fresh_unseen : ∀ i ∈ (discover seen (successors node)).1, i ∉ seen :=
      fun i member => (mem_discover_fresh.mp member).2
    rw [List.cons_append, List.nodup_cons, List.nodup_append, List.nodup_append]
    refine ⟨?_, finished_unique, ⟨discover_fresh_nodup _ _, rest_unique, ?_⟩, ?_⟩
    · rw [List.mem_append, List.mem_append]
      rintro (done | new | old)
      · exact apart node done node List.mem_cons_self rfl
      · exact fresh_unseen node new node_seen
      · exact node_fresh old
    · rintro i new j old rfl
      exact fresh_unseen i new ((progress.mem_seen i).mpr (Or.inr (List.mem_cons_of_mem _ old)))
    · rintro i done j later rfl
      rcases List.mem_append.mp later with new | old
      · exact fresh_unseen i new ((progress.mem_seen i).mpr (Or.inl done))
      · exact apart i done i (List.mem_cons_of_mem _ old) rfl
  · intro i member
    rcases mem_discover_seen.mp member with old | new
    · exact progress.small i old
    · exact inside node (progress.small node node_seen) i new
  · intro i done j next
    rcases List.mem_cons.mp done with same | old
    · exact mem_discover_seen.mpr (Or.inr (same ▸ next))
    · exact mem_discover_seen.mpr (Or.inl (progress.followed i old j next))

/-- With as much fuel as there are unfinished nodes the search comes to its end. -/
theorem follow_closed {fuel : Nat} (inside : ∀ i < size, ∀ j ∈ successors i, j < size)
    (progress : Progress size successors finished pending seen)
    (enough : size ≤ fuel + finished.length) :
    ∀ i ∈ follow successors fuel pending seen, ∀ j ∈ successors i,
      j ∈ follow successors fuel pending seen := by
  induction fuel generalizing finished pending seen with
  | zero =>
    have bound := progress.length_le
    have nothing : pending = [] := List.eq_nil_of_length_eq_zero (by omega)
    subst nothing
    intro i member
    rcases (progress.mem_seen i).mp member with done | absent
    · exact progress.followed i done
    · cases absent
  | succ fuel ih =>
    cases pending with
    | nil =>
      intro i member
      rcases (progress.mem_seen i).mp member with done | absent
      · exact progress.followed i done
      · cases absent
    | cons node rest =>
      rw [follow]
      apply ih (progress.step inside)
      rw [List.length_cons]
      omega

theorem subset_follow {fuel : Nat} {i : Nat} (member : i ∈ seen) :
    i ∈ follow successors fuel pending seen := by
  induction fuel generalizing pending seen with
  | zero => exact member
  | succ fuel ih =>
    cases pending with
    | nil => exact member
    | cons node rest => exact ih (mem_discover_seen.mpr (Or.inl member))

/-- A property of the seen nodes that every edge hands on holds of all that is found. -/
theorem follow_induction {P : Nat → Prop} {fuel : Nat} (start : ∀ i ∈ seen, P i)
    (waiting : ∀ i ∈ pending, P i)
    (step : ∀ i, P i → ∀ j ∈ successors i, P j) :
      ∀ i ∈ follow successors fuel pending seen, P i := by
  induction fuel generalizing pending seen with
  | zero => exact start
  | succ fuel ih =>
    cases pending with
    | nil => exact start
    | cons node rest =>
      have next := step node (waiting node List.mem_cons_self)
      apply ih
      · intro i member
        rcases mem_discover_seen.mp member with old | new
        · exact start i old
        · exact next i new
      · intro i member
        rcases List.mem_append.mp member with new | old
        · exact next i (mem_discover_fresh.mp new).1
        · exact waiting i (List.mem_cons_of_mem _ old)

end

variable {size : Nat} {successors : Nat → List Nat} {seeds : List Nat}

/-- The search finds the nodes that the seeds lead to, and no others. -/
theorem mem_reachable (small : ∀ i ∈ seeds, i < size)
    (inside : ∀ i < size, ∀ j ∈ successors i, j < size)
    {i : Nat} : i ∈ reachable size successors seeds ↔
      ∃ seed ∈ seeds, Relation.ReflTransGen (Leads successors) seed i := by
  have start : Progress size successors [] (discover ∅ seeds).1 (discover ∅ seeds).2 := by
    constructor
    · intro i
      simp [mem_discover_seen, mem_discover_fresh]
    · exact discover_fresh_nodup ∅ seeds
    · intro i member
      rcases mem_discover_seen.mp member with absent | seed
      · exact absurd absent (IndexSet.not_mem_empty i)
      · exact small i seed
    · intro i absent
      cases absent
  constructor
  · apply follow_induction (P := fun i => ∃ seed ∈ seeds,
      Relation.ReflTransGen (Leads successors) seed i)
    · intro i member
      rcases mem_discover_seen.mp member with absent | seed
      · exact absurd absent (IndexSet.not_mem_empty i)
      · exact ⟨i, seed, .refl⟩
    · intro i member
      exact ⟨i, (mem_discover_fresh.mp member).1, .refl⟩
    · rintro i ⟨seed, member, path⟩ j next
      exact ⟨seed, member, path.tail next⟩
  · rintro ⟨seed, member, path⟩
    induction path with
    | refl => exact subset_follow (mem_discover_seen.mpr (Or.inr member))
    | tail _ next ih => exact follow_closed inside start (by simp) _ ih _ next

section

variable {κ : Type} [DecidableEq κ] {successors : κ → List κ}

/-- Keys that are visited in order: those in front of number `next` lead to known keys only. -/
theorem visit_closed {fuel next bound : Nat} {known : List κ} {P : κ → Prop}
    (unique : known.Nodup) (allowed : ∀ key ∈ known, P key)
    (step : ∀ key, P key → ∀ later ∈ successors key, P later)
    (few : ∀ keys : List κ, keys.Nodup → (∀ key ∈ keys, P key) → keys.length ≤ bound)
    (visited : ∀ key ∈ known.take next, ∀ later ∈ successors key, later ∈ known)
    (enough : bound ≤ fuel + next) :
    ∀ key ∈ visit successors fuel next known, ∀ later ∈ successors key,
      later ∈ visit successors fuel next known := by
  induction fuel generalizing next known with
  | zero =>
    have bounded := few known unique allowed
    rw [List.take_of_length_le (by omega)] at visited
    exact visited
  | succ fuel ih =>
    rw [visit]
    split
    next missing =>
      rw [List.take_of_length_le (List.getElem?_eq_none_iff.mp missing)] at visited
      exact visited
    next key found =>
      obtain ⟨inRange, same⟩ := List.getElem?_eq_some_iff.mp found
      have member : key ∈ known := same ▸ List.getElem_mem inRange
      obtain ⟨added, grown⟩ := addNew_eq_append known (successors key)
      apply ih (addNew_nodup unique)
      · intro other later
        rcases mem_addNew.mp later with old | new
        · exact allowed other old
        · exact step key (allowed key member) other new
      · intro other front
        rw [grown, List.take_append_of_le_length (by omega), List.take_add_one, found] at front
        rcases List.mem_append.mp front with old | last
        · exact fun later follows => mem_addNew.mpr (Or.inl (visited other old later follows))
        · have here : other = key := by simpa using last
          exact fun later follows => mem_addNew.mpr (Or.inr (here ▸ follows))
      · omega

/-- What the keys that are visited first lead to comes first. -/
theorem visit_firsts {fuel next n : Nat} {known : List κ} (allowed : n ≤ fuel) :
    ∃ fresh, visit successors fuel next known =
      (((visit successors fuel next known).drop next).take n).foldl
        (fun known key => addNew known (successors key)) known ++ fresh := by
  induction n generalizing fuel next known with
  | zero => exact visit_eq_append successors fuel next known
  | succ n ih =>
    obtain ⟨fuel, rfl⟩ : ∃ less, fuel = less + 1 := ⟨fuel - 1, by omega⟩
    rw [visit]
    split
    next missing =>
      rw [List.drop_of_length_le (List.getElem?_eq_none_iff.mp missing)]
      exact ⟨[], (List.append_nil known).symm⟩
    next key there =>
      obtain ⟨added, grown⟩ := addNew_eq_append known (successors key)
      obtain ⟨later, whole⟩ := visit_eq_append successors fuel (next + 1) (addNew known (successors key))
      have inside : next < known.length := (List.getElem?_eq_some_iff.mp there).1
      have first : (visit successors fuel (next + 1) (addNew known (successors key)))[next]? =
          some key := by
        rw [whole, grown, List.append_assoc, List.getElem?_append_left inside, there]
      obtain ⟨bound, same⟩ := List.getElem?_eq_some_iff.mp first
      obtain ⟨fresh, rest⟩ := @ih fuel (next + 1) (addNew known (successors key)) (by omega)
      refine ⟨fresh, ?_⟩
      rw [List.drop_eq_getElem_cons bound, List.take_succ_cons, List.foldl_cons, same]
      exact rest

theorem subset_visit {fuel next : Nat} {known : List κ} :
    known ⊆ visit successors fuel next known := by
  obtain ⟨fresh, same⟩ := visit_eq_append successors fuel next known
  rw [same]
  exact List.subset_append_left known fresh

variable {starts : List κ} {bound : Nat}

theorem starts_subset_breadthFirst : starts ⊆ breadthFirst bound successors starts :=
  fun _ member => subset_visit (mem_distinct.mpr member)

/-- No successor is missed if there are no more possible keys than the bound says. -/
theorem breadthFirst_closed {P : κ → Prop} (start : ∀ key ∈ starts, P key)
    (step : ∀ key, P key → ∀ later ∈ successors key, P later)
    (few : ∀ keys : List κ, keys.Nodup → (∀ key ∈ keys, P key) → keys.length ≤ bound) :
    ∀ key ∈ breadthFirst bound successors starts, ∀ later ∈ successors key,
      later ∈ breadthFirst bound successors starts :=
  visit_closed (distinct_nodup starts) (fun key member => start key (mem_distinct.mp member)) step
    few
    (by simp) (by omega)

end

end Search

end Scangen
