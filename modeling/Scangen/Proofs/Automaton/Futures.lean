import Mathlib.Data.Option.Basic
import Mathlib.Order.Defs.Unbundled
import Scangen.Automaton.Path
import Scangen.Proofs.Automaton.Minimal

/-!
What lies ahead of a state: the tags behind all words of classes. The blocks at the end of a
minimization are made of the states with the same tags ahead.
-/

namespace Scangen.Dfa

variable {a b c d : Dfa} {s t u bound classId : Nat} {word : List Nat}

theorem after_append (first second : List Nat) :
    d.after s (first ++ second) = (d.after s first).bind fun t => d.after t second := by
  induction first generalizing s with
  | nil => rfl
  | cons classId rest ih =>
    rw [List.cons_append, after, after, Option.bind_assoc]
    exact Option.bind_congr fun t _ => ih

@[simp] theorem tagFrom_nil : d.tagFrom s [] = d.accept s := rfl

theorem tagFrom_cons :
    d.tagFrom s (classId :: word) = (d.next s classId).bind fun t => d.tagFrom t word := by
  rw [tagFrom, after, Option.bind_assoc]
  rfl

theorem tagFrom_after {first : List Nat} (reached : d.after s first = some t) :
    d.tagFrom s (first ++ word) = d.tagFrom t word := by
  rw [tagFrom, after_append, reached]
  rfl

theorem tagAfter_of_start {condition : Nat} (start : d.starts[condition]? = some s) :
    d.tagAfter condition word = d.tagFrom s word := by
  rw [tagAfter, start]
  rfl

/-- A state with a tag ahead exists. -/
theorem lt_of_tagFrom {tag : Tag} (found : d.tagFrom s word = some tag) : s < d.states.size := by
  cases word with
  | nil => exact lt_of_accept found
  | cons classId word =>
    rw [tagFrom_cons] at found
    obtain ⟨t, stepped, _⟩ := Option.bind_eq_some_iff.mp found
    exact lt_of_next stepped

/-! The live states are those with a tag ahead. -/

theorem live_of_tagFrom {tag : Tag} (small : ∀ classId ∈ word, classId < d.numClasses)
    (found : d.tagFrom s word = some tag) : s ∈ d.liveStates := by
  induction word generalizing s with
  | nil => exact live_of_accept found
  | cons classId word ih =>
    rw [tagFrom_cons] at found
    obtain ⟨t, stepped, later⟩ := Option.bind_eq_some_iff.mp found
    have live := ih (fun c member => small c (List.mem_cons_of_mem _ member)) later
    exact live_of_next (small classId List.mem_cons_self) stepped live

theorem exists_tagFrom (live : s ∈ d.liveStates) :
    ∃ word tag, (∀ classId ∈ word, classId < d.numClasses) ∧ d.tagFrom s word = some tag := by
  obtain ⟨t, accepting, path⟩ := mem_liveStates.mp live
  induction path with
  | refl =>
    obtain ⟨tag, here⟩ := Option.isSome_iff_exists.mp accepting.2
    exact ⟨[], tag, by simp, here⟩
  | tail before edge ih =>
    obtain ⟨word, tag, small, found⟩ := ih (mem_liveStates.mpr ⟨t, accepting, before⟩)
    obtain ⟨classId, class_small, stepped⟩ := mem_row.mp edge.2.2
    refine ⟨classId :: word, tag, ?_, ?_⟩
    · simpa using ⟨class_small, small⟩
    · rw [tagFrom_cons, stepped]
      exact found

/-- The successor on a class, where only live ones count. -/
def liveNext (d : Dfa) (s classId : Nat) : Option Nat :=
  (d.next s classId).filter d.liveStates.contains

theorem liveNext_eq_some :
    d.liveNext s classId = some t ↔ d.next s classId = some t ∧ t ∈ d.liveStates :=
  Option.filter_eq_some_iff

/-- Nothing is ahead of a state that is not live, so it may be left out. -/
theorem tagFrom_cons_live (small : ∀ classId ∈ word, classId < d.numClasses) :
    d.tagFrom s (classId :: word) = (d.liveNext s classId).bind fun t => d.tagFrom t word := by
  rw [tagFrom_cons, liveNext]
  cases stepped : d.next s classId with
  | none => rfl
  | some t =>
    by_cases live : t ∈ d.liveStates
    · have contained : d.liveStates.contains t = true := live
      rw [Option.filter_some_pos contained]
    · have missing : d.liveStates.contains t = false := Bool.eq_false_iff.mpr live
      rw [Option.filter_some_neg missing]
      cases found : d.tagFrom t word with
      | none => exact found
      | some tag => exact absurd (live_of_tagFrom small found) live

/-! Words of classes do not tell a state from itself. -/

namespace Alike

theorem refl (bound : Nat) (d : Dfa) (s : Nat) : Alike bound d s d s := fun _ _ => rfl

theorem symm (alike : Alike bound a s b t) : Alike bound b t a s :=
  fun word small => (alike word small).symm

theorem trans (first : Alike bound a s b t) (second : Alike bound b t c u) : Alike bound a s c u :=
  fun word small => (first word small).trans (second word small)

theorem accept (alike : Alike bound a s b t) : a.accept s = b.accept t := alike [] (by simp)

/-- Alike states have alike successors, as far as these are live. -/
theorem liveNext (alike : Alike bound a s b t) (a_classes : a.numClasses = bound)
    (b_classes : b.numClasses = bound) (class_small : classId < bound) :
    Option.Rel (fun s t => Alike bound a s b t) (a.liveNext s classId) (b.liveNext t classId) := by
  have ahead : ∀ word, (∀ classId ∈ word, classId < bound) →
      ((a.liveNext s classId).bind fun s => a.tagFrom s word) =
        (b.liveNext t classId).bind fun t => b.tagFrom t word := by
    intro word small
    rw [← tagFrom_cons_live (by rwa [a_classes]), ← tagFrom_cons_live (by rwa [b_classes])]
    exact alike (classId :: word) (by simpa using ⟨class_small, small⟩)
  cases first : a.liveNext s classId with
  | none =>
    cases second : b.liveNext t classId with
    | none => exact .none
    | some t' =>
      obtain ⟨word, tag, small, found⟩ := exists_tagFrom (liveNext_eq_some.mp second).2
      have nothing := ahead word (by rwa [b_classes] at small)
      simp [first, second, found] at nothing
  | some s' =>
    cases second : b.liveNext t classId with
    | none =>
      obtain ⟨word, tag, small, found⟩ := exists_tagFrom (liveNext_eq_some.mp first).2
      have nothing := ahead word (by rwa [a_classes] at small)
      simp [first, second, found] at nothing
    | some t' =>
      refine .some fun word small => ?_
      simpa [first, second] using ahead word small

/-- Pairs of states with the same tags, from which the same classes lead to other pairs, are alike. -/
theorem of_pairs (pairs : List (Nat × Nat))
    (closed : ∀ pair ∈ pairs, a.accept pair.1 = b.accept pair.2 ∧ ∀ classId < bound,
      (a.next pair.1 classId = none ∧ b.next pair.2 classId = none) ∨
        ∃ later ∈ pairs, a.next pair.1 classId = some later.1 ∧
          b.next pair.2 classId = some later.2) :
    ∀ pair ∈ pairs, Alike bound a pair.1 b pair.2 := by
  intro pair member word small
  induction word generalizing pair with
  | nil => exact (closed pair member).1
  | cons classId word ih =>
    rw [tagFrom_cons, tagFrom_cons]
    rcases (closed pair member).2 classId (small classId List.mem_cons_self) with
      ⟨first, second⟩ | ⟨later, later_member, first, second⟩
    · rw [first, second, Option.bind_none, Option.bind_none]
    · rw [first, second]
      exact ih later later_member fun c inside => small c (List.mem_cons_of_mem _ inside)

end Alike

/-! The blocks. -/

theorem signature_row (blocks : Blocks) : (d.signature d.liveStates blocks s).2 =
    (List.range d.numClasses).map fun classId => (d.liveNext s classId).map (blockOf blocks) := by
  rw [signature, liveRow, row, List.map_map, List.map_map]
  rfl

/-- The refinement keeps alike states together: they have the same signatures as long as alike
states share a block. -/
theorem refine_together (fuel : Nat) {blocks : Blocks}
    (together : ∀ s ∈ d.minimalKept, ∀ t ∈ d.minimalKept, Alike d.numClasses d s d t →
      blockOf blocks s = blockOf blocks t) :
    ∀ s ∈ d.minimalKept, ∀ t ∈ d.minimalKept, Alike d.numClasses d s d t →
      blockOf (d.refine d.liveStates d.minimalKept fuel blocks) s =
        blockOf (d.refine d.liveStates d.minimalKept fuel blocks) t := by
  induction fuel generalizing blocks with
  | zero => exact together
  | succ fuel ih =>
    have finer : ∀ s ∈ d.minimalKept, ∀ t ∈ d.minimalKept, Alike d.numClasses d s d t →
        blockOf (blocksBy d.states.size d.minimalKept (d.signature d.liveStates blocks)) s =
          blockOf (blocksBy d.states.size d.minimalKept (d.signature d.liveStates blocks)) t := by
      intro s s_kept t t_kept alike
      rw [same_block_iff kept_small s_kept t_kept]
      refine Prod.ext (together s s_kept t t_kept alike) ?_
      rw [signature_row, signature_row]
      refine List.map_congr_left fun classId member => ?_
      have next := alike.liveNext rfl rfl (List.mem_range.mp member)
      generalize first : d.liveNext s classId = s' at next
      generalize second : d.liveNext t classId = t' at next
      cases next with
      | none => rfl
      | some alike' =>
        exact congrArg some (together _ (live_kept _ (liveNext_eq_some.mp first).2) _
          (live_kept _ (liveNext_eq_some.mp second).2) alike')
    rw [refine]
    split
    · exact finer
    · exact ih finer

/-- Two states are in one block exactly if no word tells them apart. -/
theorem blockOf_eq_iff (s_kept : s ∈ d.minimalKept) (t_kept : t ∈ d.minimalKept) :
    blockOf d.minimalBlocks s = blockOf d.minimalBlocks t ↔ Alike d.numClasses d s d t := by
  refine ⟨fun same word small => ?_, ?_⟩
  · induction word generalizing s t with
    | nil => exact accept_same_block s_kept t_kept same
    | cons classId word ih =>
      have class_small := small classId List.mem_cons_self
      have rest_small : ∀ c ∈ word, c < d.numClasses :=
        fun c later => small c (List.mem_cons_of_mem _ later)
      have rows := minimalBlocks_spec.2 s s_kept t t_kept same
      rw [signature_row, signature_row, List.map_inj_left] at rows
      have blocks_same := rows classId (List.mem_range.mpr class_small)
      rw [tagFrom_cons_live rest_small, tagFrom_cons_live rest_small]
      cases first : d.liveNext s classId with
      | none =>
        rw [first, Option.map_none, eq_comm, Option.map_eq_none_iff] at blocks_same
        rw [blocks_same]
      | some s' =>
        rw [first, Option.map_some, eq_comm] at blocks_same
        obtain ⟨t', second, blocks_same⟩ := Option.map_eq_some_iff.mp blocks_same
        rw [second]
        exact ih (live_kept _ (liveNext_eq_some.mp first).2)
          (live_kept _ (liveNext_eq_some.mp second).2) blocks_same.symm rest_small
  · refine refine_together _ (fun s s_kept t t_kept alike => ?_) s s_kept t t_kept
    exact (same_block_iff kept_small s_kept t_kept).mpr alike.accept

end Scangen.Dfa
