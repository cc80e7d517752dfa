import Mathlib.Data.Fin.Pigeonhole
import Scangen.Proofs.Automaton.Canonical

/-!
Minimal automata are least. Each block becomes one state, all of which can be reached and told apart,
so an automaton with the same tags has a state for each of them.
-/

namespace Scangen.Dfa

open Relator

variable {d : Dfa} {s t i j classId : Nat} {word : List Nat}

/-! All states can be reached: the searches meet nothing else. -/

theorem Reached.start (start : s ∈ d.starts) : d.Reached s := ⟨s, start, [], by simp, rfl⟩

theorem Reached.next (reached : d.Reached s) (class_small : classId < d.numClasses)
    (stepped : d.next s classId = some t) : d.Reached t := by
  obtain ⟨start, member, word, small, path⟩ := reached
  refine ⟨start, member, word ++ [classId], ?_, ?_⟩
  · exact List.forall_mem_append.mpr ⟨small, List.forall_mem_singleton.mpr class_small⟩
  · rw [after_append, path, Option.bind_some, after, stepped]
    rfl

theorem ofNfa_reached (nfa : Nfa) : ∀ s < (ofNfa nfa).states.size, (ofNfa nfa).Reached s := by
  have met : ∀ set ∈ subsets nfa, (ofNfa nfa).Reached ((subsets nfa).idxOf set) := by
    refine Search.breadthFirst_induction (fun set start => ?_)
      fun set known reached later follows _ => ?_
    · exact .start (List.mem_map_of_mem start)
    · obtain ⟨classId, class_small, stepped⟩ := mem_subsetRow.mp follows
      refine reached.next class_small ?_
      rw [next_ofNfa known class_small, stepped]
      rfl
  intro s small
  obtain ⟨set, known, rfl⟩ := exists_set small
  exact met set known

theorem minimize_reached (rooted : d.Rooted) :
    ∀ i < d.minimize.states.size, d.minimize.Reached i := by
  have met : ∀ block ∈ d.minimalOrder, (∃ s ∈ d.minimalKept, blockOf d.minimalBlocks s = block) ∧
      d.minimize.Reached (d.minimalOrder.idxOf block) := by
    refine Search.breadthFirst_induction (fun block start => ?_)
      fun block ordered known later follows _ => ?_
    · refine ⟨start_block rooted block start, .start ?_⟩
      rw [minimize_eq]
      exact List.mem_map_of_mem start
    · obtain ⟨⟨s, kept, rfl⟩, reached⟩ := known
      refine ⟨later_block _ ⟨s, kept, rfl⟩ later follows, ?_⟩
      rw [blockRow_eq kept, List.mem_filterMap] at follows
      obtain ⟨_, entry, rfl⟩ := follows
      obtain ⟨classId, inRange, same⟩ := List.mem_map.mp entry
      have class_small := List.mem_range.mp inRange
      obtain ⟨t, found, same⟩ := Option.map_eq_some_iff.mp same
      refine reached.next class_small ?_
      rw [next_minimize kept ordered class_small, found, ← same]
      rfl
  intro i small
  obtain ⟨s, _, ordered, rfl⟩ := exists_block rooted small
  exact (met _ ordered).2

/-! Each state has the tags ahead that all states of its block have. -/

theorem tagFrom_minimize (rooted : d.Rooted) (kept : s ∈ d.minimalKept)
    (ordered : blockOf d.minimalBlocks s ∈ d.minimalOrder)
    (small : ∀ classId ∈ word, classId < d.numClasses) :
    d.minimize.tagFrom (d.minimalOrder.idxOf (blockOf d.minimalBlocks s)) word =
      d.tagFrom s word := by
  have same := (minimize_follows rooted (Partition.identity .byte false false)).follow_related
    ⟨kept, ordered, rfl⟩ small
  rwa [follow_recognizer, follow_recognizer] at same

theorem minimize_apart (rooted : d.Rooted) (i_small : i < d.minimize.states.size)
    (j_small : j < d.minimize.states.size)
    (alike : Alike d.numClasses d.minimize i d.minimize j) : i = j := by
  obtain ⟨s, s_kept, s_ordered, rfl⟩ := exists_block rooted i_small
  obtain ⟨t, t_kept, t_ordered, rfl⟩ := exists_block rooted j_small
  have same : blockOf d.minimalBlocks s = blockOf d.minimalBlocks t := by
    refine (blockOf_eq_iff s_kept t_kept).mpr fun word small => ?_
    rw [← tagFrom_minimize rooted s_kept s_ordered small,
      ← tagFrom_minimize rooted t_kept t_ordered small]
    exact alike word small
  rw [same]

/-- Only a start may be dead. -/
theorem minimize_live (rooted : d.Rooted) (small : i < d.minimize.states.size)
    (other : i ∉ d.minimize.starts) :
    ∃ word tag, (∀ classId ∈ word, classId < d.numClasses) ∧
      d.minimize.tagFrom i word = some tag := by
  obtain ⟨s, kept, ordered, rfl⟩ := exists_block rooted small
  have live : s ∈ d.liveStates := by
    have entry := (List.mem_filter.mp kept).2
    rcases Bool.or_eq_true _ _ ▸ entry with live | start
    · exact live
    · rw [starts_minimize] at other
      exact absurd (List.mem_map_of_mem (List.contains_iff_mem.mp start)) other
  obtain ⟨word, tag, word_small, found⟩ := exists_tagFrom live
  exact ⟨word, tag, word_small, by rw [tagFrom_minimize rooted kept ordered word_small, found]⟩

/-- Steps of a minimal automaton lead to states with tags ahead. -/
theorem exists_tagFrom_next (rooted : d.Rooted) (small : classId < d.numClasses)
    (stepped : d.minimize.next i classId = some j) :
    ∃ word tag, (∀ c ∈ word, c < d.numClasses) ∧ d.minimize.tagFrom j word = some tag := by
  obtain ⟨s, kept, ordered, rfl⟩ := exists_block rooted (lt_of_next stepped)
  rw [next_minimize kept ordered small] at stepped
  obtain ⟨t, found, rfl⟩ := Option.map_eq_some_iff.mp stepped
  obtain ⟨found, live⟩ := Option.filter_eq_some_iff.mp found
  obtain ⟨word, tag, word_small, ahead⟩ := exists_tagFrom live
  have ordered' := blocks_closed kept ordered rooted small found live
  refine ⟨word, tag, word_small, ?_⟩
  rw [tagFrom_minimize rooted (live_kept t live) ordered' word_small, ahead]

/-! The states are numbered as a search meets them. -/

/-- A block and the state that it becomes. -/
def Becomes (d : Dfa) (block i : Nat) : Prop :=
  (∃ s ∈ d.minimalKept, blockOf d.minimalBlocks s = block) ∧ block ∈ d.minimalOrder ∧
    d.minimalOrder.idxOf block = i

theorem Becomes.biUnique : BiUnique d.Becomes := by
  constructor
  · rintro block other i ⟨_, ordered, rfl⟩ ⟨_, _, same⟩
    exact (List.idxOf_inj ordered).mp same.symm
  · rintro block i j ⟨_, _, rfl⟩ ⟨_, _, rfl⟩
    rfl

theorem Becomes.rows (rooted : d.Rooted) {block : Nat} (becomes : d.Becomes block i) :
    List.Forall₂ (Option.Rel d.Becomes)
      (d.blockRow d.liveStates d.minimalKept d.minimalBlocks block) (d.minimize.row i) := by
  obtain ⟨⟨s, kept, rfl⟩, ordered, rfl⟩ := becomes
  have classes : d.minimize.numClasses = d.numClasses := rfl
  rw [blockRow_eq kept, row, classes, List.forall₂_map_left_iff, List.forall₂_map_right_iff,
    List.forall₂_same]
  intro classId member
  have small := List.mem_range.mp member
  rw [next_minimize kept ordered small]
  cases stepped : (d.next s classId).filter d.liveStates.contains with
  | none => exact .none
  | some t =>
    obtain ⟨stepped, live⟩ := Option.filter_eq_some_iff.mp stepped
    exact .some ⟨⟨t, live_kept t live, rfl⟩,
      blocks_closed kept ordered rooted small stepped live, rfl⟩

/-- A search through a minimal automaton meets the states in the order of their numbers. -/
theorem breadthFirst_minimize (rooted : d.Rooted) (more : Nat) :
    Search.breadthFirst (d.minimalKept.length + more) (fun i => (d.minimize.row i).filterMap id)
      d.minimize.starts = List.range d.minimize.states.size := by
  have starts : List.Forall₂ d.Becomes (d.starts.map (blockOf d.minimalBlocks))
      d.minimize.starts := by
    rw [starts_minimize, List.forall₂_map_left_iff, List.forall₂_map_right_iff, List.forall₂_same]
    exact fun s member => ⟨⟨s, start_kept rooted s member, rfl⟩, start_ordered member, rfl⟩
  have successors : ∀ {block i}, d.Becomes block i → List.Forall₂ d.Becomes
      ((d.blockRow d.liveStates d.minimalKept d.minimalBlocks block).filterMap id)
      ((d.minimize.row i).filterMap id) :=
    fun becomes => List.rel_filterMap (fun _ _ next => next) (becomes.rows rooted)
  have met := Search.breadthFirst_related Becomes.biUnique successors
    (d.minimalKept.length + more) starts
  rw [minimalOrder_more rooted] at met
  have numbers : d.minimalOrder.map d.minimalOrder.idxOf = List.map id _ :=
    map_related met fun becomes => becomes.2.2
  rw [List.map_id] at numbers
  rw [← numbers, size_minimize]
  refine List.ext_getElem (by simp) fun i small _ => ?_
  rw [List.getElem_map, List.getElem_range]
  exact (minimalOrder_nodup d).idxOf_getElem i _

/-- The numbers begin with the starts and what the first states lead to. -/
theorem range_minimize (rooted : d.Rooted) (n : Nat) : ∃ fresh,
    List.range d.minimize.states.size =
      ((List.range d.minimize.states.size).take n).foldl
        (fun known i => addNew known ((d.minimize.row i).filterMap id))
        (distinct d.minimize.starts) ++ fresh := by
  rw [← breadthFirst_minimize rooted n]
  exact Search.visit_firsts (Nat.le_add_left n _)

/-! No block is missed: live states are reached through live ones. -/

theorem live_of_after (small : ∀ classId ∈ word, classId < d.numClasses)
    (path : d.after s word = some t) (live : t ∈ d.liveStates) : s ∈ d.liveStates := by
  obtain ⟨later, tag, later_small, found⟩ := exists_tagFrom live
  have all_small : ∀ classId ∈ word ++ later, classId < d.numClasses :=
    List.forall_mem_append.mpr ⟨small, later_small⟩
  have all_found : d.tagFrom s (word ++ later) = some tag := by rw [tagFrom_after path, found]
  exact live_of_tagFrom all_small all_found

theorem after_ordered (rooted : d.Rooted) (kept : s ∈ d.minimalKept)
    (ordered : blockOf d.minimalBlocks s ∈ d.minimalOrder)
    (small : ∀ classId ∈ word, classId < d.numClasses) (path : d.after s word = some t)
    (live : t ∈ d.liveStates) : blockOf d.minimalBlocks t ∈ d.minimalOrder := by
  induction word generalizing s with
  | nil =>
    cases path
    exact ordered
  | cons classId word ih =>
    obtain ⟨u, stepped, path⟩ := Option.bind_eq_some_iff.mp path
    have rest_small : ∀ c ∈ word, c < d.numClasses :=
      fun c member => small c (List.mem_cons_of_mem _ member)
    have u_live := live_of_after rest_small path live
    exact ih (live_kept u u_live)
      (blocks_closed kept ordered rooted (small classId List.mem_cons_self) stepped u_live)
      rest_small path

/-- There are as many states as blocks, if all states of the automaton can be reached. -/
theorem size_minimize_eq (rooted : d.Rooted) (reached : ∀ s < d.states.size, d.Reached s) :
    d.minimize.states.size = blockCount d.minimalKept d.minimalBlocks := by
  have ordered : ∀ s ∈ d.minimalKept, blockOf d.minimalBlocks s ∈ d.minimalOrder := by
    intro s kept
    have entry := (List.mem_filter.mp kept).2
    rcases Bool.or_eq_true _ _ ▸ entry with live | start
    · obtain ⟨first, start, word, small, path⟩ := reached s (kept_small s kept)
      exact after_ordered rooted (start_kept rooted first start) (start_ordered start) small path live
    · exact start_ordered (List.contains_iff_mem.mp start)
  have members : ∀ block, block ∈ d.minimalOrder ↔
      block ∈ distinct (d.minimalKept.map (blockOf d.minimalBlocks)) := by
    intro block
    rw [mem_distinct, List.mem_map]
    refine ⟨fun member => ?_, ?_⟩
    · exact Search.breadthFirst_induction (start_block rooted)
        (fun block _ kept later follows _ => later_block block kept later follows) block member
    · intro found
      obtain ⟨s, kept, rfl⟩ := found
      exact ordered s kept
  rw [size_minimize, blockCount]
  exact ((List.perm_ext_iff_of_nodup (minimalOrder_nodup d) (distinct_nodup _)).mpr
    members).length_eq

/-! Another automaton with the same tags has a state for each of them. -/

section Other

variable {other : Dfa} (conditions : other.starts.length = d.starts.length)
  (same : ∀ condition < d.starts.length, ∀ word, (∀ classId ∈ word, classId < d.numClasses) →
    other.tagAfter condition word = d.tagAfter condition word)

include conditions same

theorem start_alike (start : s ∈ d.starts) : ∃ t ∈ other.starts, Alike d.numClasses d s other t := by
  obtain ⟨condition, found⟩ := List.mem_iff_getElem?.mp start
  obtain ⟨declared, _⟩ := List.getElem?_eq_some_iff.mp found
  have found' : other.starts[condition]? =
      some (other.starts.get ⟨condition, conditions ▸ declared⟩) :=
    List.getElem?_eq_getElem _
  refine ⟨_, List.mem_of_getElem? found', fun word small => ?_⟩
  rw [← tagAfter_of_start found, ← tagAfter_of_start found', same condition declared word small]

/-- A state with a tag ahead is not dead in the other automaton. -/
theorem reached_alike (reached : d.Reached s) {tag : Tag}
    (word_small : ∀ classId ∈ word, classId < d.numClasses) (ahead : d.tagFrom s word = some tag) :
    ∃ t < other.states.size, Alike d.numClasses d s other t := by
  obtain ⟨first, start, before, before_small, path⟩ := reached
  obtain ⟨first', _, alike⟩ := start_alike conditions same start
  have behind : ∀ later, (∀ classId ∈ later, classId < d.numClasses) →
      other.tagFrom first' (before ++ later) = d.tagFrom s later := by
    intro later later_small
    rw [← tagFrom_after path, alike (before ++ later)]
    exact List.forall_mem_append.mpr ⟨before_small, later_small⟩
  have found := (behind word word_small).trans ahead
  rw [tagFrom, after_append] at found
  obtain ⟨_, path', _⟩ := Option.bind_eq_some_iff.mp found
  obtain ⟨t, path', _⟩ := Option.bind_eq_some_iff.mp path'
  have alike' : Alike d.numClasses d s other t := by
    intro later later_small
    rw [← behind later later_small, tagFrom_after path']
  exact ⟨t, lt_of_tagFrom ((alike' word word_small).symm.trans ahead), alike'⟩

end Other

theorem minimize_le {other : Dfa} (rooted : d.Rooted) (other_rooted : other.Rooted)
    (conditions : other.starts.length = d.starts.length)
    (same : ∀ condition < d.starts.length, ∀ word, (∀ classId ∈ word, classId < d.numClasses) →
      other.tagAfter condition word = d.tagAfter condition word) :
    d.minimize.states.size ≤ other.states.size := by
  have conditions' : other.starts.length = d.minimize.starts.length := by
    rw [conditions, starts_minimize, List.length_map]
  have same' : ∀ condition < d.minimize.starts.length, ∀ word,
      (∀ classId ∈ word, classId < d.numClasses) →
      other.tagAfter condition word = d.minimize.tagAfter condition word := by
    intro condition declared word small
    rw [tagAfter_minimize rooted condition small]
    exact same condition (by omega) word small
  have exists_alike : ∀ i, i < d.minimize.states.size →
      ∃ t < other.states.size, Alike d.numClasses d.minimize i other t := by
    intro i small
    by_cases start : i ∈ d.minimize.starts
    · obtain ⟨t, other_start, alike⟩ := start_alike conditions' same' start
      exact ⟨t, other_rooted t other_start, alike⟩
    · obtain ⟨word, tag, word_small, ahead⟩ := minimize_live rooted small start
      exact reached_alike conditions' same' (minimize_reached rooted i small) word_small ahead
  choose image image_small image_alike using exists_alike
  have injective : Function.Injective fun i : Fin d.minimize.states.size =>
      (⟨image i i.isLt, image_small i i.isLt⟩ : Fin other.states.size) := by
    intro i j equal
    have equal : image i i.isLt = image j j.isLt := congrArg Fin.val equal
    have i_alike := image_alike i i.isLt
    rw [equal] at i_alike
    exact Fin.ext (minimize_apart rooted i.isLt j.isLt (i_alike.trans (image_alike j j.isLt).symm))
  exact Fin.le_of_injective _ injective

/-- Minimization gives a least automaton. It has one state for each block that the refinement ends
with. All of them can be reached, words tell them apart, and only a start may be dead. Automata with
the same tags behind all words have as many states or more. -/
theorem minimize_least (nfa : Nfa) :
    let dfa := ofNfa nfa
    let least := dfa.minimize
    least.states.size = blockCount dfa.minimalKept dfa.minimalBlocks ∧
      (∀ i < least.states.size, least.Reached i) ∧
      (∀ i < least.states.size, ∀ j < least.states.size, i ≠ j →
        ∃ word, (∀ classId ∈ word, classId < dfa.numClasses) ∧
          least.tagFrom i word ≠ least.tagFrom j word) ∧
      (∀ i < least.states.size, i ∉ least.starts →
        ∃ word tag, (∀ classId ∈ word, classId < dfa.numClasses) ∧
          least.tagFrom i word = some tag) ∧
      ∀ other : Dfa, other.Rooted → other.starts.length = dfa.starts.length →
        (∀ condition < dfa.starts.length, ∀ word, (∀ classId ∈ word, classId < dfa.numClasses) →
          other.tagAfter condition word = dfa.tagAfter condition word) →
        least.states.size ≤ other.states.size := by
  intro dfa least
  have rooted : dfa.Rooted := ofNfa_rooted
  refine ⟨size_minimize_eq rooted (ofNfa_reached nfa), minimize_reached rooted, ?_, ?_, ?_⟩
  · intro i i_small j j_small different
    by_contra nothing
    refine different (minimize_apart rooted i_small j_small fun word small => ?_)
    by_contra apart
    exact nothing ⟨word, small, apart⟩
  · exact fun i small other => minimize_live rooted small other
  · exact fun other other_rooted conditions same => minimize_le rooted other_rooted conditions same

/-- Three states that take turns are not needed where two are enough. -/
theorem turns_least :
    (ofNfa (turns 3)).minimize.states.size ≤ (ofNfa (turns 2)).states.size ∧
      (ofNfa (turns 2)).states.size < (ofNfa (turns 3)).states.size := by
  refine ⟨?_, by decide +kernel⟩
  refine (minimize_least (turns 3)).2.2.2.2 (ofNfa (turns 2)) ofNfa_rooted (by decide +kernel)
    fun condition declared => ?_
  cases Nat.lt_one_iff.mp declared
  exact turns_alike

end Scangen.Dfa
