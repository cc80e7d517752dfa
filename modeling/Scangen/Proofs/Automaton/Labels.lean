import Scangen.Proofs.Automaton.Copies
import Scangen.Proofs.Automaton.Patterns

/-!
What stands on the edges of an arena. Every edge that a builder adds carries the label of one of the
sets that it reads, and the one in front of the last state of a pattern may read the end of a line. No
label is empty, so that every edge can be taken by a word.
-/

namespace Scangen

theorem IndexSet.exists_mem {set : IndexSet} (nonempty : set ≠ ∅) : ∃ i, i ∈ set := by
  refine Classical.not_forall_not.mp fun nothing => nonempty (IndexSet.ext fun i => ?_)
  exact iff_of_false (nothing i) (IndexSet.not_mem_empty i)

/-- Every label reads something. -/
def Arena.Labelled (arena : Arena) : Prop := ∀ s label t, arena.links s (some label) t → label ≠ ∅

/-- Edges that are not in the first arena carry one of these labels. -/
def Arena.NewLabels (labels : IndexSet → Prop) (before after : Arena) : Prop :=
  ∀ s label t, after.links s (some label) t → before.links s (some label) t ∨ labels label

variable {labels : IndexSet → Prop} {before arena : Arena}

namespace Arena.NewLabels

theorem refl (labels : IndexSet → Prop) (arena : Arena) : NewLabels labels arena arena :=
  fun _ _ _ => Or.inl

theorem newState (added : NewLabels labels before arena) :
    NewLabels labels before arena.newState :=
  fun s label t link => added s label t (Arena.links_newState.mp link)

theorem epsilon (added : NewLabels labels before arena) (a b : Nat) :
    NewLabels labels before (arena.epsilon a b) := by
  intro s label t link
  rcases Arena.links_epsilon.mp link with old | ⟨_, _, silent, _⟩
  · exact added s label t old
  · cases silent

theorem edge (added : NewLabels labels before arena) (a b : Nat) {l : IndexSet}
    (allowed : l ≠ ∅ → labels l) : NewLabels labels before (arena.edge a l b) := by
  intro s label t link
  rcases Arena.links_edge.mp link with old | ⟨nonempty, _, _, same, _⟩
  · exact added s label t old
  · cases same
    exact Or.inr (allowed nonempty)

end Arena.NewLabels

/-- One of the labels of these sets, if it is not empty. -/
def Partition.LabelOf (partition : Partition) (sets : List SymbolSet) (label : IndexSet) : Prop :=
  label ≠ ∅ ∧ ∃ s ∈ sets, label = partition.label s

namespace Builder

/-- The edges that the builder adds carry these labels. -/
def Labels (labels : IndexSet → Prop) (b : Builder) : Prop :=
  ∀ before arena, Arena.NewLabels labels before arena → Arena.NewLabels labels before (b arena).1

theorem ofSet_labels {partition : Partition} {s : SymbolSet} {sets : List SymbolSet}
    (member : s ∈ sets) : (ofSet partition s).Labels (partition.LabelOf sets) :=
  fun _ _ added => added.newState.newState.edge _ _ fun nonempty => ⟨nonempty, s, member, rfl⟩

theorem empty_labels : empty.Labels labels :=
  fun _ _ added => added.newState.newState.epsilon _ _

variable {inner first second : Builder}

theorem append_labels (first_labels : first.Labels labels) (second_labels : second.Labels labels) :
    (append first second).Labels labels :=
  fun _ _ added => (second_labels _ _ (first_labels _ _ added)).epsilon _ _

theorem around_labels (loops skips : Bool) (inside : inner.Labels labels) :
    (around loops skips inner).Labels labels := by
  intro before arena added
  have built := (inside before arena added).newState.newState
  have looped : Arena.NewLabels labels before (if loops then (inner arena).1.newState.newState.epsilon
      (inner arena).2.exit (inner arena).2.entry else (inner arena).1.newState.newState) := by
    split
    · exact built.epsilon _ _
    · exact built
  unfold around
  dsimp only
  split
  · exact ((looped.epsilon _ _).epsilon _ _).epsilon _ _
  · exact (looped.epsilon _ _).epsilon _ _

theorem star_labels (inside : inner.Labels labels) : (star inner).Labels labels :=
  around_labels true true inside

theorem copies_labels (inside : inner.Labels labels) (count cursor : Nat)
    (added : Arena.NewLabels labels before arena) :
    Arena.NewLabels labels before (copies inner count arena cursor).1 := by
  induction count generalizing arena cursor with
  | zero => exact added
  | succ count ih =>
    rw [copies]
    exact ih _ ((inside _ _ added).epsilon _ _)

theorem optionalCopies_labels (inside : inner.Labels labels) (exit count cursor : Nat)
    (added : Arena.NewLabels labels before arena) :
    Arena.NewLabels labels before (optionalCopies inner exit count arena cursor).1 := by
  induction count generalizing arena cursor with
  | zero => exact added
  | succ count ih =>
    rw [optionalCopies]
    exact ih _ (((inside _ _ added).epsilon _ _).epsilon _ _)

theorem repetition_labels (inside : inner.Labels labels) (least : Nat) (most : Option Nat) :
    (repetition inner least most).Labels labels := by
  intro before arena added
  have required := (copies_labels inside least arena.size added.newState).newState
  cases most with
  | none =>
    have starred := star_labels inside _ _ required
    rw [repetition_none]
    dsimp only
    exact (starred.epsilon _ _).epsilon _ _
  | some most =>
    have filled := optionalCopies_labels inside (copies inner least arena.newState arena.size).1.size
      (most - least) (copies inner least arena.newState arena.size).2 required
    rw [repetition_some]
    dsimp only
    exact filled.epsilon _ _

theorem alternate_labels (inside : inner.Labels labels) (entry exit : Nat)
    (added : Arena.NewLabels labels before arena) :
    Arena.NewLabels labels before (alternate inner entry exit arena) :=
  ((inside _ _ added).epsilon _ _).epsilon _ _

end Builder

variable {partition : Partition} {charset : Charset} {sets : List SymbolSet}

namespace Regex

mutual

theorem fragment_labels : ∀ r : Regex, r.symbolSets charset ⊆ sets →
    (r.fragment partition charset).Labels (partition.LabelOf sets)
  | alternation alternates, listed => by
    intro before arena added
    rw [symbolSets] at listed
    rw [fragment]
    exact alternates_labels alternates listed added.newState.newState
  | concatenation factors, listed => by
    rw [symbolSets] at listed
    rw [fragment]
    exact sequence_labels factors listed
  | star inner, listed => by
    rw [symbolSets] at listed
    rw [fragment]
    exact Builder.star_labels (fragment_labels inner listed)
  | plus inner, listed => by
    rw [symbolSets] at listed
    rw [fragment]
    exact Builder.around_labels true false (fragment_labels inner listed)
  | optional inner, listed => by
    rw [symbolSets] at listed
    rw [fragment]
    exact Builder.around_labels false true (fragment_labels inner listed)
  | repetition inner least most, listed => by
    rw [symbolSets] at listed
    rw [fragment]
    exact Builder.repetition_labels (fragment_labels inner listed) least most
  | symbol c, listed => by
    rw [symbolSets] at listed
    rw [fragment]
    exact Builder.ofSet_labels (listed List.mem_cons_self)
  | symbolClass k, listed => by
    rw [symbolSets] at listed
    rw [fragment]
    exact Builder.ofSet_labels (listed List.mem_cons_self)
  | empty, _ => by
    rw [fragment]
    exact Builder.empty_labels

theorem alternates_labels : ∀ (alternates : List Regex) {before arena : Arena} {entry exit : Nat},
    symbolSetsOfAll charset alternates ⊆ sets →
    Arena.NewLabels (partition.LabelOf sets) before arena →
    Arena.NewLabels (partition.LabelOf sets) before
      (alternatesBetween partition charset alternates entry exit arena)
  | [], _, _, _, _, _, added => by rwa [alternatesBetween]
  | first :: rest, _, _, _, _, listed, added => by
    rw [symbolSetsOfAll] at listed
    obtain ⟨here, later⟩ := List.append_subset.mp listed
    rw [alternatesBetween]
    exact alternates_labels rest later
      (Builder.alternate_labels (fragment_labels first here) _ _ added)

theorem sequence_labels : ∀ factors : List Regex, symbolSetsOfAll charset factors ⊆ sets →
    (sequenceFragment partition charset factors).Labels (partition.LabelOf sets)
  | [], _ => by
    rw [sequenceFragment]
    exact Builder.empty_labels
  | [only], listed => by
    rw [symbolSetsOfAll] at listed
    rw [sequenceFragment]
    exact fragment_labels only (List.append_subset.mp listed).1
  | first :: second :: rest, listed => by
    rw [symbolSetsOfAll] at listed
    obtain ⟨here, later⟩ := List.append_subset.mp listed
    rw [sequenceFragment]
    exact Builder.append_labels (fragment_labels first here)
      (sequence_labels (second :: rest) later)

end

end Regex

namespace Pattern

variable {p : Pattern}

theorem unanchored_labels : Arena.NewLabels (partition.LabelOf (p.symbolSets charset)) arena
    (p.unanchored.fragment partition charset arena).1 := by
  obtain ⟨in_body, in_context⟩ := List.append_subset.mp (List.Subset.refl (p.symbolSets charset))
  have body : Arena.NewLabels (partition.LabelOf (p.symbolSets charset)) arena
      (p.body.fragment partition charset arena).1 :=
    Regex.fragment_labels p.body in_body _ _ (.refl _ _)
  cases context : p.context with
  | none =>
    rw [fragment_alone context]
    exact body
  | some following =>
    rw [context] at in_context
    rw [fragment_followed context]
    exact (Regex.fragment_labels following in_context _ _ body).epsilon _ _

/-- Where an edge of the states of a pattern comes from. -/
theorem links_fragment {s t : Nat} {label : IndexSet}
    (link : (p.fragment partition charset arena).1.links s (some label) t) :
    arena.links s (some label) t ∨ partition.LabelOf (p.symbolSets charset) label ∨
      p.lineEnd = true ∧ label ≠ ∅ ∧ label = partition.lineEndLabel ∧
        t = (p.fragment partition charset arena).2.exit := by
  have added : Arena.NewLabels _ arena (p.unanchored.fragment partition charset arena).1 :=
    unanchored_labels
  cases asked : p.lineEnd with
  | true =>
    rw [fragment_anchored asked] at link ⊢
    rcases Arena.links_edge.mp link with old | ⟨nonempty, _, _, same, last⟩
    · exact (added.newState s label t old).imp_right Or.inl
    · cases same
      exact Or.inr (Or.inr ⟨rfl, nonempty, rfl, last⟩)
  | false =>
    rw [unanchored_of_free asked] at added
    exact (added s label t link).imp_right Or.inl

theorem fragment_labelled (labelled : arena.Labelled) :
    (p.fragment partition charset arena).1.Labelled := by
  intro s label t link
  rcases links_fragment link with old | ⟨nonempty, _⟩ | ⟨_, nonempty, _⟩
  · exact labelled s label t old
  · exact nonempty
  · exact nonempty

end Pattern

end Scangen
