import Mathlib.Data.Finset.Card
import Scangen.Automaton.Minimal
import Scangen.Proofs.Finite.Numbering

/-!
Blocks of states. Each round of the refinement splits blocks and joins none, so it ends when the
number of blocks stays the same, and then states of one block lead to the same blocks.
-/

namespace Scangen

theorem length_distinct {κ : Type} [DecidableEq κ] (keys : List κ) :
    (distinct keys).length = keys.toFinset.card := by
  rw [← List.toFinset_card_of_nodup (distinct_nodup keys)]
  apply congrArg
  ext key
  simp

namespace Dfa

variable {d : Dfa} {live : IndexSet} {kept : List Nat} {blocks : Blocks}

theorem getElem?_setAll (number : Nat → Nat) (l : List Nat) (blocks : Blocks) (i : Nat) :
    ((l.map fun s => (s, number s)).foldl (fun blocks (s, block) =>
      blocks.setIfInBounds s block) blocks)[i]? =
      if i ∈ l ∧ i < blocks.size then some (number i) else blocks[i]? := by
  induction l generalizing blocks with
  | nil => simp
  | cons first rest ih =>
    rw [List.map_cons, List.foldl_cons, ih, Array.size_setIfInBounds]
    by_cases later : i ∈ rest ∧ i < blocks.size
    · rw [if_pos later, if_pos ⟨List.mem_cons_of_mem _ later.1, later.2⟩]
    · rw [if_neg later, Array.getElem?_setIfInBounds]
      by_cases here : first = i
      · subst here
        by_cases inside : first < blocks.size
        · simp [inside]
        · simp [inside]
      · have apart : ¬i = first := fun same => here same.symm
        simp [here, apart, later]

variable {κ : Type} [DecidableEq κ] {key : Nat → κ} {size s t : Nat}

theorem blockOf_blocksBy (member : s ∈ kept) (small : s < size) :
    blockOf (blocksBy size kept key) s = numberOf kept key s := by
  unfold blockOf blocksBy
  rw [zip_ranks, getElem?_setAll, if_pos ⟨member, by rwa [Array.size_replicate]⟩, Option.getD_some]

/-- States are in one block exactly if they have the same key. -/
theorem same_block_iff (small : ∀ s ∈ kept, s < size) (s_kept : s ∈ kept) (t_kept : t ∈ kept) :
    blockOf (blocksBy size kept key) s = blockOf (blocksBy size kept key) t ↔ key s = key t := by
  rw [blockOf_blocksBy s_kept (small s s_kept), blockOf_blocksBy t_kept (small t t_kept),
    numberOf_inj s_kept]

/-- No block of the second partition is spread over several ones of the first. -/
def Refines (kept : List Nat) (coarse fine : Blocks) : Prop :=
  ∀ s ∈ kept, ∀ t ∈ kept, blockOf fine s = blockOf fine t → blockOf coarse s = blockOf coarse t

variable {coarse fine : Blocks}

theorem blockCount_eq : blockCount kept blocks = (kept.toFinset.image (blockOf blocks)).card := by
  rw [blockCount, length_distinct]
  apply congrArg
  ext block
  simp

theorem blockCount_le (kept : List Nat) (blocks : Blocks) :
    blockCount kept blocks ≤ kept.length := by
  rw [blockCount_eq]
  exact Finset.card_image_le.trans (List.toFinset_card_le kept)

/-- Splitting makes more blocks, or as many if nothing is split. -/
theorem Refines.count (refines : Refines kept coarse fine) :
    blockCount kept coarse ≤ blockCount kept fine ∧
    (blockCount kept fine = blockCount kept coarse → Refines kept fine coarse) := by
  let pairs := kept.toFinset.image fun s => (blockOf coarse s, blockOf fine s)
  have firsts : pairs.image Prod.fst = kept.toFinset.image (blockOf coarse) := by
    rw [Finset.image_image]
    rfl
  have seconds : pairs.image Prod.snd = kept.toFinset.image (blockOf fine) := by
    rw [Finset.image_image]
    rfl
  have fine_count : blockCount kept fine = pairs.card := by
    rw [blockCount_eq, ← seconds]
    apply Finset.card_image_of_injOn
    intro a a_member b b_member same
    obtain ⟨s, s_kept, rfl⟩ := Finset.mem_image.mp a_member
    obtain ⟨t, t_kept, rfl⟩ := Finset.mem_image.mp b_member
    have second := refines s (List.mem_toFinset.mp s_kept) t (List.mem_toFinset.mp t_kept) same
    exact Prod.ext second same
  have coarse_count : blockCount kept coarse = (pairs.image Prod.fst).card := by
    rw [blockCount_eq, firsts]
  constructor
  · rw [coarse_count, fine_count]
    exact Finset.card_image_le
  · intro equal s s_kept t t_kept same
    have injective : Set.InjOn Prod.fst (pairs : Set (Nat × Nat)) := by
      apply Finset.card_image_iff.mp
      rw [← coarse_count, ← equal, fine_count]
    have member : ∀ u ∈ kept, (blockOf coarse u, blockOf fine u) ∈ pairs :=
      fun u u_kept => Finset.mem_image_of_mem _ (List.mem_toFinset.mpr u_kept)
    exact congrArg Prod.snd (injective (member s s_kept) (member t t_kept) same)

theorem Refines.trans {finest : Blocks} (first : Refines kept coarse fine)
    (second : Refines kept fine finest) :
    Refines kept coarse finest :=
  fun s s_kept t t_kept same => first s s_kept t t_kept (second s s_kept t t_kept same)

/-- States of one block lead to the same blocks. -/
def Stable (d : Dfa) (live : IndexSet) (kept : List Nat) (blocks : Blocks) : Prop :=
  ∀ s ∈ kept, ∀ t ∈ kept, blockOf blocks s = blockOf blocks t →
    (d.signature live blocks s).2 = (d.signature live blocks t).2

/-- Rows that look the same in some blocks do so in coarser ones. -/
theorem Refines.rows (refines : Refines kept coarse fine) (live_kept : ∀ s ∈ live, s ∈ kept)
    (same : (d.signature live fine s).2 = (d.signature live fine t).2) :
    (d.signature live coarse s).2 = (d.signature live coarse t).2 := by
  unfold signature liveRow Dfa.row at *
  simp only [List.map_map, List.map_inj_left, Function.comp_apply] at same ⊢
  intro classId member
  have agree := same classId member
  have inside : ∀ {u next}, (d.next u classId).filter live.contains = some next → next ∈ kept :=
    fun found => live_kept _ (Option.filter_eq_some_iff.mp found).2
  cases first : (d.next s classId).filter live.contains with
  | none =>
    rw [first, Option.map_none, eq_comm, Option.map_eq_none_iff] at agree
    rw [agree]
  | some a =>
    rw [first, Option.map_some] at agree
    obtain ⟨b, second, blocks_same⟩ := Option.map_eq_some_iff.mp agree.symm
    rw [second, Option.map_some, Option.map_some,
      refines b (inside second) a (inside first) blocks_same]

/-- A round of refinement splits blocks by their signatures. -/
theorem refine_round (live : IndexSet) (blocks : Blocks) (small : ∀ s ∈ kept, s < d.states.size) :
    Refines kept blocks (blocksBy d.states.size kept (d.signature live blocks)) := by
  intro s s_kept t t_kept same
  exact congrArg Prod.fst ((same_block_iff small s_kept t_kept).mp same)

theorem refine_spec (small : ∀ s ∈ kept, s < d.states.size) (live_kept : ∀ s ∈ live, s ∈ kept)
    (fuel : Nat)
    (enough : kept.length < fuel + blockCount kept blocks) :
    Refines kept blocks (d.refine live kept fuel blocks) ∧
      d.Stable live kept (d.refine live kept fuel blocks) := by
  induction fuel generalizing blocks with
  | zero =>
    have := blockCount_le kept blocks
    omega
  | succ fuel ih =>
    have round := refine_round live blocks small
    obtain ⟨more, fixed⟩ := round.count
    rw [refine]
    split
    next equal =>
      refine ⟨round, fun s s_kept t t_kept same => ?_⟩
      have signatures := (same_block_iff small s_kept t_kept).mp same
      exact (fixed equal).rows live_kept (congrArg Prod.snd signatures)
    next different =>
      have more_blocks : kept.length <
          fuel + blockCount kept (blocksBy d.states.size kept (d.signature live blocks)) := by omega
      obtain ⟨refines, stable⟩ := ih more_blocks
      exact ⟨round.trans refines, stable⟩

/-- The representative of a block that has a kept state is one of them. -/
theorem representative_spec {block : Nat} (inhabited : ∃ s ∈ kept, blockOf blocks s = block) :
    representative kept blocks block ∈ kept ∧ blockOf blocks (representative kept blocks block) =
      block := by
  obtain ⟨s, s_kept, same⟩ := inhabited
  have exists_one : (kept.find? fun s => blockOf blocks s = block).isSome :=
    List.find?_isSome.mpr ⟨s, s_kept, decide_eq_true same⟩
  obtain ⟨found, first⟩ := Option.isSome_iff_exists.mp exists_one
  have holds : blockOf blocks found = block := by simpa using List.find?_some first
  rw [representative, first, Option.getD_some]
  exact ⟨List.mem_of_find?_eq_some first, holds⟩

end Dfa

end Scangen
