import Scangen.Proofs.Automaton.Closed
import Scangen.Proofs.Automaton.Futures

/-!
Minimal automata are canonical. Blocks of alike states are met in the same order by the searches
through two automata, so the two results agree in all numbers.
-/

namespace Scangen.Dfa

open Relator

variable {a b d : Dfa} {s t : Nat}

/-! A minimal automaton is an automaton like others. -/

theorem follow_recognizer (partition : Partition) (word : List Nat) :
    (d.recognizer partition).follow s word = d.after s word := by
  induction word generalizing s with
  | nil => rfl
  | cons classId word ih => exact Option.bind_congr fun t _ => ih

theorem tagAfter_recognizer (partition : Partition) (condition : Nat) (word : List Nat) :
    (d.recognizer partition).tagAfter condition word = d.tagAfter condition word := by
  rw [tagAfter, Recognizer.tagAfter]
  exact congrArg (·.bind d.accept) (Option.bind_congr fun s _ => follow_recognizer partition word)

/-- Minimization keeps the tags of all words. -/
theorem tagAfter_minimize (rooted : d.Rooted) (condition : Nat) {word : List Nat}
    (small : ∀ classId ∈ word, classId < d.numClasses) :
    d.minimize.tagAfter condition word = d.tagAfter condition word := by
  -- no symbol is read, so any partition will do
  have same := (minimize_follows rooted (Partition.identity .byte false false)).tagAfter_eq condition
    small
  rwa [tagAfter_recognizer, tagAfter_recognizer] at same

/-- The state that a block becomes. -/
def blockState (d : Dfa) (block : Nat) : State where
  next := ((d.blockRow d.liveStates d.minimalKept d.minimalBlocks block).map fun next =>
    next.map d.minimalOrder.idxOf).toArray
  accept := d.accept (representative d.minimalKept d.minimalBlocks block)

theorem minimize_blocks (d : Dfa) : d.minimize =
    ⟨(d.minimalOrder.map d.blockState).toArray,
      (d.starts.map (blockOf d.minimalBlocks)).map d.minimalOrder.idxOf,
      d.numClasses, d.lineStart, d.lineEnd⟩ :=
  minimize_eq d

/-! Blocks of two automata that stand for one another. -/

/-- The blocks are made of states that no word tells apart. -/
def Twins (a b : Dfa) (block block' : Nat) : Prop :=
  ∃ s ∈ a.minimalKept, ∃ t ∈ b.minimalKept, blockOf a.minimalBlocks s = block ∧
    blockOf b.minimalBlocks t = block' ∧ Alike a.numClasses a s b t

namespace Twins

variable {block block' : Nat}

theorem biUnique (classes : a.numClasses = b.numClasses) : BiUnique (Twins a b) := by
  refine ⟨?_, ?_⟩
  · intro block other block' first second
    obtain ⟨s, s_kept, t, t_kept, rfl, rfl, alike⟩ := first
    obtain ⟨s', s'_kept, t', t'_kept, rfl, same, alike'⟩ := second
    have t_alike := (blockOf_eq_iff t'_kept t_kept).mp same
    rw [← classes] at t_alike
    exact (blockOf_eq_iff s_kept s'_kept).mpr (alike.trans (t_alike.symm.trans alike'.symm))
  · intro block first' second' first second
    obtain ⟨s, s_kept, t, t_kept, rfl, rfl, alike⟩ := first
    obtain ⟨s', s'_kept, t', t'_kept, same, rfl, alike'⟩ := second
    have s_alike := (blockOf_eq_iff s'_kept s_kept).mp same
    refine (blockOf_eq_iff t_kept t'_kept).mpr ?_
    rw [← classes]
    exact alike.symm.trans (s_alike.symm.trans alike')

/-- Twins lead to twins. -/
theorem rows (classes : a.numClasses = b.numClasses) (twins : Twins a b block block') :
    List.Forall₂ (Option.Rel (Twins a b))
      (a.blockRow a.liveStates a.minimalKept a.minimalBlocks block)
      (b.blockRow b.liveStates b.minimalKept b.minimalBlocks block') := by
  obtain ⟨s, s_kept, t, t_kept, rfl, rfl, alike⟩ := twins
  rw [blockRow_eq s_kept, blockRow_eq t_kept, ← classes, List.forall₂_map_left_iff,
    List.forall₂_map_right_iff, List.forall₂_same]
  intro classId member
  have next := alike.liveNext rfl classes.symm (List.mem_range.mp member)
  show Option.Rel _ ((a.liveNext s classId).map _) ((b.liveNext t classId).map _)
  generalize first : a.liveNext s classId = s' at next
  generalize second : b.liveNext t classId = t' at next
  cases next with
  | none => exact .none
  | some alike' =>
    exact .some ⟨_, live_kept _ (liveNext_eq_some.mp first).2, _,
      live_kept _ (liveNext_eq_some.mp second).2, rfl, rfl, alike'⟩

theorem accept (twins : Twins a b block block') :
    a.accept (representative a.minimalKept a.minimalBlocks block) =
      b.accept (representative b.minimalKept b.minimalBlocks block') := by
  obtain ⟨s, s_kept, t, t_kept, rfl, rfl, alike⟩ := twins
  obtain ⟨a_kept, a_block⟩ := representative_kept s_kept
  obtain ⟨b_kept, b_block⟩ := representative_kept t_kept
  calc a.accept (representative a.minimalKept a.minimalBlocks (blockOf a.minimalBlocks s))
      = a.accept s := accept_same_block a_kept s_kept a_block
    _ = b.accept t := alike.accept
    _ = b.accept (representative b.minimalKept b.minimalBlocks (blockOf b.minimalBlocks t)) :=
      (accept_same_block b_kept t_kept b_block).symm

end Twins

/-- The search for blocks has found all of them when it stops. -/
theorem minimalOrder_more (rooted : d.Rooted) (more : Nat) :
    Search.breadthFirst (d.minimalKept.length + more)
      (fun block => (d.blockRow d.liveStates d.minimalKept d.minimalBlocks block).filterMap id)
      (d.starts.map (blockOf d.minimalBlocks)) = d.minimalOrder :=
  Search.breadthFirst_more (start_block rooted) later_block few_blocks more

section Agreeing

variable (a_rooted : a.Rooted) (b_rooted : b.Rooted) (classes : a.numClasses = b.numClasses)
  (conditions : a.starts.length = b.starts.length)
  (same : ∀ condition < a.starts.length, ∀ word, (∀ classId ∈ word, classId < a.numClasses) →
    a.tagAfter condition word = b.tagAfter condition word)

include a_rooted b_rooted conditions same

theorem starts_twins : List.Forall₂ (Twins a b) (a.starts.map (blockOf a.minimalBlocks))
    (b.starts.map (blockOf b.minimalBlocks)) := by
  rw [List.forall₂_map_left_iff, List.forall₂_map_right_iff, List.forall₂_iff_get]
  refine ⟨conditions, fun condition a_declared b_declared => ?_⟩
  refine ⟨_, start_kept a_rooted _ (List.get_mem _ _), _, start_kept b_rooted _ (List.get_mem _ _),
    rfl, rfl, fun word small => ?_⟩
  have a_start : a.starts[condition]? = some (a.starts.get ⟨condition, a_declared⟩) :=
    List.getElem?_eq_getElem a_declared
  have b_start : b.starts[condition]? = some (b.starts.get ⟨condition, b_declared⟩) :=
    List.getElem?_eq_getElem b_declared
  rw [← tagAfter_of_start a_start, ← tagAfter_of_start b_start]
  exact same condition a_declared word small

include classes

theorem minimalOrder_twins : List.Forall₂ (Twins a b) a.minimalOrder b.minimalOrder := by
  rw [← minimalOrder_more a_rooted b.minimalKept.length,
    ← minimalOrder_more b_rooted a.minimalKept.length, Nat.add_comm b.minimalKept.length]
  refine Search.breadthFirst_related (Twins.biUnique classes) (fun twins => ?_) _
    (starts_twins a_rooted b_rooted conditions same)
  exact List.rel_filterMap (fun _ _ next => next) (twins.rows classes)

theorem numbers_twins {block block' : Nat} (twins : Twins a b block block') :
    a.minimalOrder.idxOf block = b.minimalOrder.idxOf block' :=
  idxOf_related (Twins.biUnique classes)
    (minimalOrder_twins a_rooted b_rooted classes conditions same) twins

theorem blockState_twins {block block' : Nat} (twins : Twins a b block block') :
    a.blockState block = b.blockState block' := by
  have row : (a.blockRow a.liveStates a.minimalKept a.minimalBlocks block).map
        (fun next => next.map a.minimalOrder.idxOf) =
      (b.blockRow b.liveStates b.minimalKept b.minimalBlocks block').map
        (fun next => next.map b.minimalOrder.idxOf) := by
    refine map_related (twins.rows classes) fun next => ?_
    cases next with
    | none => rw [Option.map_none, Option.map_none]
    | some twins' =>
      rw [Option.map_some, Option.map_some,
        numbers_twins a_rooted b_rooted classes conditions same twins']
  rw [blockState, blockState, row, twins.accept]

/-- Automata with the same tags behind all words become one minimal automaton. -/
theorem minimize_congr (lineStart : a.lineStart = b.lineStart) (lineEnd : a.lineEnd = b.lineEnd) :
    a.minimize = b.minimize := by
  have states : a.minimalOrder.map a.blockState = b.minimalOrder.map b.blockState :=
    map_related (minimalOrder_twins a_rooted b_rooted classes conditions same)
      (blockState_twins a_rooted b_rooted classes conditions same)
  have starts : (a.starts.map (blockOf a.minimalBlocks)).map a.minimalOrder.idxOf =
      (b.starts.map (blockOf b.minimalBlocks)).map b.minimalOrder.idxOf :=
    map_related (starts_twins a_rooted b_rooted conditions same)
      (numbers_twins a_rooted b_rooted classes conditions same)
  rw [minimize_blocks, minimize_blocks, states, starts, classes, lineStart, lineEnd]

end Agreeing

/-- Minimizing once is enough. -/
theorem minimize_idempotent (rooted : d.Rooted) : d.minimize.minimize = d.minimize := by
  refine minimize_congr minimize_rooted rooted rfl ?_ (fun condition _ word small => ?_) rfl rfl
  · rw [starts_minimize, List.length_map]
  · exact tagAfter_minimize rooted condition small

/-- Minimal automata are canonical, and thus do not change any more: two automata of sets over the
same classes that find the same tags behind all words have one minimal automaton, whatever their
states look like. -/
theorem minimize_canonical (first : Nfa) :
    (ofNfa first).minimize.minimize = (ofNfa first).minimize ∧
      ∀ second : Nfa, (ofNfa first).numClasses = (ofNfa second).numClasses →
        (ofNfa first).starts.length = (ofNfa second).starts.length →
        (ofNfa first).lineStart = (ofNfa second).lineStart →
        (ofNfa first).lineEnd = (ofNfa second).lineEnd →
        (∀ condition < (ofNfa first).starts.length, ∀ word,
          (∀ classId ∈ word, classId < (ofNfa first).numClasses) →
          (ofNfa first).tagAfter condition word = (ofNfa second).tagAfter condition word) →
        (ofNfa first).minimize = (ofNfa second).minimize :=
  ⟨minimize_idempotent ofNfa_rooted, fun _ classes conditions lineStart lineEnd same =>
    minimize_congr ofNfa_rooted ofNfa_rooted classes conditions same lineStart lineEnd⟩

/-- A letter and any number of further ones, read in `size` states that take turns. -/
def turns (size : Nat) : Nfa where
  states := ((List.range (size + 1)).map fun s => ⟨[(IndexSet.ofList [0], s % size + 1)], [],
    if s = 0 then none else some ⟨0, 0, .whole⟩⟩).toArray
  starts := [0]
  numClasses := 1
  lineStart := none
  lineEnd := none

theorem turns_alike : Alike 1 (ofNfa (turns 2)) 0 (ofNfa (turns 3)) 0 :=
  Alike.of_pairs [(0, 0), (1, 1), (2, 2), (1, 3), (2, 1), (1, 2), (2, 3)]
    (by decide +kernel) (0, 0) List.mem_cons_self

/-- It makes no difference whether two states take turns or three. -/
theorem turns_minimize : (ofNfa (turns 2)).states.size ≠ (ofNfa (turns 3)).states.size ∧
    (ofNfa (turns 2)).minimize = (ofNfa (turns 3)).minimize := by
  refine ⟨by decide +kernel, ?_⟩
  refine (minimize_canonical (turns 2)).2 (turns 3) (by decide +kernel) (by decide +kernel)
    (by decide +kernel) (by decide +kernel) fun condition declared => ?_
  cases Nat.lt_one_iff.mp declared
  exact turns_alike

end Scangen.Dfa
