import Scangen.Proofs.Automaton.Labels
import Scangen.Proofs.Automaton.Least
import Scangen.Proofs.Build.Stages

/-!
The subset construction is faithful. Behind a word the deterministic automaton is in the state that
stands for the set of states behind this word, or in none if that set is empty. The search for sets
ends by itself, and all it finds can be reached.
-/

namespace Scangen

theorem IndexSet.ne_empty {set : IndexSet} {i : Nat} (member : i ∈ set) : set ≠ ∅ := by
  intro nothing
  rw [nothing] at member
  exact IndexSet.not_mem_empty i member

theorem IndexSet.ne_empty_iff {set : IndexSet} : set ≠ ∅ ↔ ∃ i, i ∈ set :=
  ⟨IndexSet.exists_mem, fun ⟨_, member⟩ => IndexSet.ne_empty member⟩

namespace Nfa

/-- The set after a word: for each class the states next to the set, and all that can be reached from
them without reading anything. -/
def spread (nfa : Nfa) (set : IndexSet) : List Nat → IndexSet
  | [] => set
  | classId :: word => spread nfa (nfa.closure (targets (nfa.edgesFrom set) classId)) word

/-- The set of states behind a word that starts where a condition does. -/
def behind (nfa : Nfa) (condition : Nat) (word : List Nat) : IndexSet :=
  nfa.spread (nfa.closure nfa.starts[condition]?.toList) word

variable {nfa : Nfa} {set last : IndexSet} {word : List Nat}

theorem targets_small (closed : nfa.Closed) {classId : Nat} :
    ∀ t ∈ targets (nfa.edgesFrom set) classId, t < nfa.states.size := by
  intro t member
  obtain ⟨label, edge, _⟩ := mem_targets.mp member
  obtain ⟨s, _, link⟩ := mem_edgesFrom.mp edge
  exact closed s (some label) t link

theorem closure_nil (closed : nfa.Closed) : nfa.closure [] = ∅ := by
  refine IndexSet.ext fun i => iff_of_false ?_ (IndexSet.not_mem_empty i)
  rw [mem_closure closed (List.forall_mem_nil _)]
  simp

theorem closure_ne_empty (closed : nfa.Closed) {s : Nat} {seeds : List Nat}
    (small : ∀ t ∈ seeds, t < nfa.states.size) (member : s ∈ seeds) : nfa.closure seeds ≠ ∅ :=
  IndexSet.ne_empty ((mem_closure closed small).mpr ⟨s, member, .stay s⟩)

theorem spread_empty (closed : nfa.Closed) (word : List Nat) : nfa.spread ∅ word = ∅ := by
  induction word with
  | nil => rfl
  | cons classId word ih =>
    have nothing : targets (nfa.edgesFrom ∅) classId = [] := rfl
    rw [spread, nothing, closure_nil closed]
    exact ih

/-- A run that stops at the empty set is in the set after the word, as long as that is not empty. -/
theorem after_eq_some_iff (closed : nfa.Closed) (something : set ≠ ∅) :
    nfa.after set word = some last ↔ last ≠ ∅ ∧ nfa.spread set word = last := by
  induction word generalizing set with
  | nil =>
    rw [after, spread, Option.some_inj]
    exact ⟨fun same => ⟨same ▸ something, same⟩, And.right⟩
  | cons classId word ih =>
    have small : ∀ t ∈ targets (nfa.edgesFrom set) classId, t < nfa.states.size :=
      targets_small closed
    rw [after, spread, step, stepAlong]
    cases next : targets (nfa.edgesFrom set) classId with
    | nil =>
      rw [closure_nil closed, spread_empty closed]
      exact iff_of_false (by simp) fun found => found.1 found.2.symm
    | cons first others =>
      rw [next] at small
      exact ih (closure_ne_empty closed small List.mem_cons_self)

end Nfa

namespace Dfa

/-- The state behind a word that starts where a condition does. -/
def behind (d : Dfa) (condition : Nat) (word : List Nat) : Option Nat :=
  d.starts[condition]?.bind fun s => d.after s word

/-- The states that can be reached from the starts. -/
def reachable (d : Dfa) : IndexSet :=
  Search.reachable d.states.size (fun s => (d.row s).filterMap id) d.starts

/-- The sets next to a set, for all classes in order. -/
def setsAfter (nfa : Nfa) (set : IndexSet) : List IndexSet := (subsetRow nfa set).filterMap id

variable {nfa : Nfa} {set last : IndexSet} {condition : Nat} {word : List Nat}

/-- The search for sets ends before the bound on their number does. -/
theorem subsets_finishes (closed : nfa.Closed) (started : Started nfa) :
    Search.Finishes (setsAfter nfa) 0 (distinct (startSets nfa)) (subsets nfa) := by
  refine Search.breadthFirst_finishes (startSets_small closed started) (fun set _ next follows => ?_)
    IndexSet.few
  obtain ⟨classId, _, stepped⟩ := mem_subsetRow.mp follows
  exact step_small closed stepped

theorem after_known (closed : nfa.Closed) (started : Started nfa) (known : set ∈ subsets nfa)
    (small : ∀ classId ∈ word, classId < nfa.numClasses) (path : nfa.after set word = some last) :
    last ∈ subsets nfa := by
  induction word generalizing set with
  | nil =>
    cases path
    exact known
  | cons classId word ih =>
    obtain ⟨next, stepped, path⟩ := Option.bind_eq_some_iff.mp path
    obtain ⟨class_small, word_small⟩ := List.forall_mem_cons.mp small
    exact ih (subsets_closed closed started known class_small stepped) word_small path

/-- Each set on the way is a state of its own. -/
theorem after_ofNfa (closed : nfa.Closed) (started : Started nfa) (known : set ∈ subsets nfa)
    (small : ∀ classId ∈ word, classId < nfa.numClasses) :
    (ofNfa nfa).after ((subsets nfa).idxOf set) word =
      (nfa.after set word).map (subsets nfa).idxOf := by
  induction word generalizing set with
  | nil => rfl
  | cons classId word ih =>
    obtain ⟨class_small, word_small⟩ := List.forall_mem_cons.mp small
    rw [after, Nfa.after, next_ofNfa known class_small, Option.map_bind, Option.bind_map]
    refine Option.bind_congr fun next stepped => ?_
    exact ih (subsets_closed closed started known class_small stepped) word_small

section

variable (closed : nfa.Closed) (started : Started nfa)

include closed started

/-- The set behind a word is not empty exactly if the run from the start of the condition gets there. -/
theorem reached_iff : (nfa.starts[condition]?.bind fun s => nfa.after (nfa.closure [s]) word) = some last ↔
    last ≠ ∅ ∧ nfa.behind condition word = last := by
  rw [Nfa.behind]
  cases declared : nfa.starts[condition]? with
  | none =>
    rw [Option.toList_none, Nfa.closure_nil closed, Nfa.spread_empty closed]
    exact iff_of_false (by simp) fun found => found.1 found.2.symm
  | some start =>
    have small : ∀ t ∈ [start], t < nfa.states.size :=
      List.forall_mem_singleton.mpr (started start (List.mem_of_getElem? declared))
    exact Nfa.after_eq_some_iff closed
      (Nfa.closure_ne_empty closed small (List.mem_singleton_self start))

variable (small : ∀ classId ∈ word, classId < nfa.numClasses)

include small

theorem behind_known (something : nfa.behind condition word ≠ ∅) :
    nfa.behind condition word ∈ subsets nfa := by
  obtain ⟨start, declared, path⟩ := Option.bind_eq_some_iff.mp
    ((reached_iff closed started).mpr ⟨something, rfl⟩)
  have known : nfa.closure [start] ∈ subsets nfa :=
    Search.starts_subset_breadthFirst (List.mem_map_of_mem (List.mem_of_getElem? declared))
  exact after_known closed started known small path

/-- Behind a word is the state of the set behind it, and no state if that set is empty. -/
theorem behind_eq_some_iff {s : Nat} : (ofNfa nfa).behind condition word = some s ↔
    nfa.behind condition word ≠ ∅ ∧ (subsets nfa).idxOf (nfa.behind condition word) = s := by
  have numbered : (ofNfa nfa).behind condition word =
      (nfa.starts[condition]?.bind fun s => nfa.after (nfa.closure [s]) word).map
        (subsets nfa).idxOf := by
    have begin : (ofNfa nfa).starts[condition]? =
        nfa.starts[condition]?.map fun start => (subsets nfa).idxOf (nfa.closure [start]) := by
      show ((startSets nfa).map (subsets nfa).idxOf)[condition]? = _
      rw [startSets, List.map_map, List.getElem?_map]
      rfl
    rw [behind, begin, Option.bind_map, Option.map_bind]
    refine Option.bind_congr fun start declared => ?_
    have known : nfa.closure [start] ∈ subsets nfa :=
      Search.starts_subset_breadthFirst (List.mem_map_of_mem (List.mem_of_getElem? declared))
    exact after_ofNfa closed started known small
  rw [numbered, Option.map_eq_some_iff]
  constructor
  · intro reached
    obtain ⟨last, path, same⟩ := reached
    obtain ⟨something, rfl⟩ := (reached_iff closed started).mp path
    exact ⟨something, same⟩
  · intro found
    exact ⟨_, (reached_iff closed started).mpr ⟨found.1, rfl⟩, found.2⟩

/-- A word leads to some state exactly if some states are behind it. -/
theorem exists_behind_iff :
    (∃ s, (ofNfa nfa).behind condition word = some s) ↔ ∃ i, i ∈ nfa.behind condition word := by
  simp only [behind_eq_some_iff closed started small, exists_and_left, exists_eq', and_true]
  exact IndexSet.ne_empty_iff

/-- The tag of the state behind a word is the first tag of the states behind it. -/
theorem accept_behind {s : Nat} (path : (ofNfa nfa).behind condition word = some s) :
    Chosen Tag.Before
      (fun tag => ∃ i ∈ nfa.behind condition word, Arena.tagAt nfa.states i = some tag)
      ((ofNfa nfa).accept s) := by
  obtain ⟨something, rfl⟩ := (behind_eq_some_iff closed started small).mp path
  rw [accept_ofNfa (behind_known closed started small something)]
  exact Nfa.accept_chosen nfa _

/-- Two words lead to one state exactly if the same states are behind both. -/
theorem behind_inj {condition' : Nat} {word' : List Nat}
    (small' : ∀ classId ∈ word', classId < nfa.numClasses) :
    (ofNfa nfa).behind condition word = (ofNfa nfa).behind condition' word' ↔
      nfa.behind condition word = nfa.behind condition' word' := by
  have here : ∀ s, (ofNfa nfa).behind condition word = some s ↔ _ :=
    fun s => behind_eq_some_iff closed started small
  have there : ∀ s, (ofNfa nfa).behind condition' word' = some s ↔ _ :=
    fun s => behind_eq_some_iff closed started small'
  constructor
  · intro same
    by_cases something : nfa.behind condition word = ∅
    · by_cases something' : nfa.behind condition' word' = ∅
      · rw [something, something']
      · have reached := (there _).mpr ⟨something', rfl⟩
        rw [← same] at reached
        exact absurd something ((here _).mp reached).1
    · have reached := (here _).mpr ⟨something, rfl⟩
      rw [same] at reached
      obtain ⟨_, number⟩ := (there _).mp reached
      have known := behind_known closed started small something
      exact ((List.idxOf_inj known).mp number.symm)
  · intro same
    refine Option.ext fun s => ?_
    rw [here, there, same]

end

/-! The check at the end of the construction: the starts lead to all states. -/

section

variable {d : Dfa} {s t : Nat}

theorem mem_successors : t ∈ (d.row s).filterMap id ↔
    ∃ classId < d.numClasses, d.next s classId = some t := by
  rw [List.mem_filterMap]
  simp only [id_eq, exists_eq_right]
  exact mem_row

theorem leads_of_after (small : ∀ classId ∈ word, classId < d.numClasses)
    (path : d.after s word = some t) :
    Relation.ReflTransGen (Search.Leads fun s => (d.row s).filterMap id) s t := by
  induction word generalizing s with
  | nil =>
    cases path
    exact .refl
  | cons classId word ih =>
    obtain ⟨next, stepped, path⟩ := Option.bind_eq_some_iff.mp path
    obtain ⟨class_small, word_small⟩ := List.forall_mem_cons.mp small
    exact .head (mem_successors.mpr ⟨classId, class_small, stepped⟩) (ih word_small path)

theorem mem_reachable_iff (rooted : d.Rooted) (closed : d.Closed) :
    s ∈ d.reachable ↔ d.Reached s := by
  have inside : ∀ s < d.states.size, ∀ t ∈ (d.row s).filterMap id, t < d.states.size := by
    intro s _ t follows
    obtain ⟨classId, class_small, stepped⟩ := mem_successors.mp follows
    exact closed class_small stepped
  rw [reachable, Search.mem_reachable rooted inside]
  constructor
  · intro found
    obtain ⟨start, member, path⟩ := found
    induction path with
    | refl => exact .start member
    | tail _ follows ih =>
      obtain ⟨classId, class_small, stepped⟩ := mem_successors.mp follows
      exact ih.next class_small stepped
  · intro found
    obtain ⟨start, member, word, small, path⟩ := found
    exact ⟨start, member, leads_of_after small path⟩

/-- What can be reached are states of the automaton. -/
theorem Reached.lt (rooted : d.Rooted) (closed : d.Closed) (reached : d.Reached s) :
    s < d.states.size := by
  obtain ⟨start, member, word, small, path⟩ := reached
  induction leads_of_after small path with
  | refl => exact rooted start member
  | tail _ follows _ =>
    obtain ⟨classId, class_small, stepped⟩ := mem_successors.mp follows
    exact closed class_small stepped

/-- As many states can be reached as there are. -/
theorem length_reachable (rooted : d.Rooted) (closed : d.Closed)
    (reached : ∀ s < d.states.size, d.Reached s) : d.reachable.toList.length = d.states.size := by
  have unique : d.reachable.toList.Nodup := List.nodup_range.filter _
  have same : d.reachable.toList.Perm (List.range d.states.size) := by
    refine (List.perm_ext_iff_of_nodup unique List.nodup_range).mpr fun s => ?_
    rw [IndexSet.mem_toList, mem_reachable_iff rooted closed, List.mem_range]
    exact ⟨Reached.lt rooted closed, reached s⟩
  rw [same.length_eq, List.length_range]

end

/-- The subset construction follows the automaton of any specification. Its search for sets ends by
itself, and the states that it makes can all be reached. A word of classes leads to a state exactly if
some states of the other automaton are behind it, and the tag of that state is the first of theirs.
Two words lead to one state exactly if the same states are behind both. -/
theorem ofNfa_faithful (spec : Spec) (partition : Partition) (charset : Charset) :
    let nfa := (Nfa.ofSpec spec partition charset).1
    let dfa := ofNfa nfa
    Search.Finishes (setsAfter nfa) 0 (distinct (startSets nfa)) (subsets nfa) ∧
      (∀ s < dfa.states.size, dfa.Reached s) ∧
      dfa.reachable.toList.length = dfa.states.size ∧
      ∀ condition word, (∀ classId ∈ word, classId < nfa.numClasses) →
        ((∃ s, dfa.behind condition word = some s) ↔ ∃ i, i ∈ nfa.behind condition word) ∧
        (∀ s, dfa.behind condition word = some s →
          Chosen Tag.Before
            (fun tag => ∃ i ∈ nfa.behind condition word, Arena.tagAt nfa.states i = some tag)
            (dfa.accept s)) ∧
        ∀ condition' word', (∀ classId ∈ word', classId < nfa.numClasses) →
          (dfa.behind condition word = dfa.behind condition' word' ↔
            nfa.behind condition word = nfa.behind condition' word') := by
  intro nfa dfa
  have closed : nfa.Closed := Nfa.ofSpec_closed
  have started : Started nfa := Nfa.ofSpec_started
  have reached := ofNfa_reached nfa
  refine ⟨subsets_finishes closed started, reached,
    length_reachable ofNfa_rooted (ofNfa_closed closed started) reached, fun condition word small => ?_⟩
  exact ⟨exists_behind_iff closed started small, fun s path => accept_behind closed started small path,
    fun condition' word' small' => behind_inj closed started small small'⟩

/-- A letter once or more often, and this letter or one of two others just once. -/
def letterRuns : Spec :=
  ⟨[⟨Spec.initialName, false⟩],
    [⟨none, .matching ⟨false, .plus (.symbol 97), none, false⟩, .inclusive, ⟨1, 1⟩⟩,
      ⟨none, .matching ⟨false, .symbolClass ⟨.ofRanges [⟨97, 99, by decide⟩], false⟩, none, false⟩,
        .inclusive, ⟨2, 1⟩⟩]⟩

/-- From the second letter on the state stays the same, and no other letter leads on. -/
theorem letterRuns_behind :
    let nfa := (Nfa.ofSpec letterRuns (Partition.ofSpec letterRuns Spec.byteConfig)
      Spec.byteConfig.charset).1
    (∀ word ∈ [[1], [1, 1], [1, 1, 1], [1, 2]], ∀ classId ∈ word, classId < nfa.numClasses) ∧
      (ofNfa nfa).behind 0 [1] ≠ (ofNfa nfa).behind 0 [1, 1] ∧
      (ofNfa nfa).behind 0 [1, 1] = (ofNfa nfa).behind 0 [1, 1, 1] ∧
      ¬∃ s, (ofNfa nfa).behind 0 [1, 2] = some s := by
  intro nfa
  have small : ∀ word ∈ [[1], [1, 1], [1, 1, 1], [1, 2]], ∀ classId ∈ word,
      classId < nfa.numClasses := by decide +kernel
  obtain ⟨_, _, _, simulates⟩ := ofNfa_faithful letterRuns
    (Partition.ofSpec letterRuns Spec.byteConfig) Spec.byteConfig.charset
  have two := simulates 0 [1, 1] (small _ (by decide))
  have other := simulates 0 [1, 2] (small _ (by decide))
  have nothing : nfa.behind 0 [1, 2] = ∅ := by decide +kernel
  refine ⟨small, fun same => ?_, ?_, fun reached => ?_⟩
  · have sets := (two.2.2 0 [1] (small _ (by decide))).mp same.symm
    exact absurd sets (by decide +kernel)
  · exact (two.2.2 0 [1, 1, 1] (small _ (by decide))).mpr (by decide +kernel)
  · exact IndexSet.ne_empty_iff.mpr (other.1.mp reached) nothing

end Dfa

end Scangen
