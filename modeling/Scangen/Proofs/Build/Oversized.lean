import Scangen.Proofs.Build.Endings
import Scangen.Proofs.Build.Lexemes
import Scangen.Proofs.Build.ManyLetters

/-!
Dense tables with more places than there are words. With a rule for each of many letters, an automaton
has a class and a state for each letter, in the same order. As soon as the places of some letters come
around to those of others, dense tables find what no other stage finds.
-/

namespace Scangen

namespace Spec

variable {count : Nat}

/-! The tags: behind the words of the rules and nothing else. -/

/-- The classes of letters, behind the start of a line or without it. -/
def letterClasses (count : Nat) (atLineStart : Bool) (letters : List Nat) : List Nat :=
  (if atLineStart then [count + 1] else []) ++ letters.map (· + 1)

theorem letterClasses_inside (letters : List Nat) :
    letterClasses count false letters = letters.map (· + 1) := rfl

theorem letterClasses_start (letters : List Nat) :
    letterClasses count true letters = (count + 1) :: letters.map (· + 1) := rfl

theorem closes_manyLetters {rest ending : List Nat} :
    ((manyLetters count).scanner denseConfig).Closes rest ending ↔ ending = [] := by
  have lineEnd : ((manyLetters count).scanner denseConfig).lineEnd = none := lineEnd_manyLetters
  simp [Recognizer.Closes, lineEnd]

/-- The minimal automaton. -/
def letterDfa (count : Nat) : Dfa := (manyLetters count).dfa denseConfig true

theorem letterDfa_rooted : (Dfa.ofNfa ((manyLetters count).nfa denseConfig)).Rooted :=
  Dfa.ofNfa_rooted

/-- The numbers of the states begin with the starts and what the first states lead to. -/
theorem range_letterDfa (count n : Nat) : ∃ fresh,
    List.range (letterDfa count).states.size =
      ((List.range (letterDfa count).states.size).take n).foldl
        (fun known i => addNew known (((letterDfa count).row i).filterMap id))
        (distinct (letterDfa count).starts) ++ fresh :=
  Dfa.range_minimize letterDfa_rooted n

theorem starts_letterDfa : (letterDfa count).starts = [0] := by
  obtain ⟨s, single⟩ : ∃ s, (letterDfa count).starts = [s] :=
    List.length_eq_one_iff.mp length_starts
  obtain ⟨fresh, numbers⟩ := range_letterDfa count 0
  rw [single] at numbers ⊢
  exact eq_range_of_append numbers

theorem reached_start : (letterDfa count).Reached 0 :=
  .start (by rw [starts_letterDfa]; exact List.mem_cons_self)

section Tags

variable (two : 2 ≤ count) (few : count ≤ 0x100000)

include two few

theorem classOf_letterAt {i : Nat} (early : i < count) :
    ((manyLetters count).scanner denseConfig).classOf (letterAt i) = some (i + 1) := by
  rw [classOf_scanner, classOf_manyLetters two few, letterClass_eq_succ]
  exact ⟨early, rfl⟩

theorem knows_letters {letters : List Nat} (inside : ∀ i ∈ letters, i < count) :
    ((manyLetters count).scanner denseConfig).Knows (letters.map letterAt) := by
  intro c member
  obtain ⟨i, listed, rfl⟩ := List.mem_map.mp member
  exact ⟨i + 1, classOf_letterAt two few (inside i listed)⟩

theorem classes_letters (atLineStart : Bool) {letters : List Nat}
    (inside : ∀ i ∈ letters, i < count) :
    ((manyLetters count).scanner denseConfig).opening atLineStart ++
        (letters.map letterAt).map ((manyLetters count).scanner denseConfig).classNumber =
      letterClasses count atLineStart letters := by
  have lineStart : ((manyLetters count).scanner denseConfig).lineStart = some (count + 1) :=
    lineStart_manyLetters two few
  have numbers : ∀ i ∈ letters, (((manyLetters count).scanner denseConfig).classNumber ∘ letterAt) i =
      i + 1 := by
    intro i listed
    rw [Function.comp_apply, Recognizer.classNumber, classOf_letterAt two few (inside i listed)]
    rfl
  rw [letterClasses, Recognizer.opening, lineStart, List.map_map, List.map_congr_left numbers]
  rfl

theorem tagAfter_manyLetters {word : List Nat} {tag : Tag} :
    ((manyLetters count).scanner denseConfig).tagAfter 0 word = some tag ↔
      ∃ atLineStart letters id pattern, LetterWord count atLineStart letters id pattern ∧
        word = letterClasses count atLineStart letters ∧ tag = pattern.tag id := by
  constructor
  · intro behind
    obtain ⟨atLineStart, read, ending, id, pattern, _, closes, rfl, fits, same⟩ :=
      exists_fits Nat.zero_lt_one behind
    obtain ⟨letters, reads, rfl⟩ := (fits_manyLetters two few).mp fits
    refine ⟨atLineStart, letters, id, pattern, reads, ?_, same⟩
    rw [closes_manyLetters.mp closes, List.append_nil,
      classes_letters two few atLineStart (reads.lt two)]
  · rintro ⟨atLineStart, letters, id, pattern, reads, rfl, rfl⟩
    have inside := reads.lt two
    have closes : ((manyLetters count).scanner denseConfig).Closes [] [] :=
      closes_manyLetters.mpr rfl
    rw [← classes_letters two few atLineStart inside, ← List.append_nil (_ ++ _),
      tagAfter_iff Nat.zero_lt_one (knows_letters two few inside) closes]
    have free : ¬pattern.lineEnd = true := Bool.eq_false_iff.mp reads.lineEnd
    refine ⟨id, pattern, (fits_manyLetters two few).mpr ⟨letters, reads, rfl⟩, ?_, rfl, ?_⟩
    · rw [Pattern.Ends, if_neg free]
    · intro id' pattern' fits' _
      obtain ⟨letters', reads', same⟩ := (fits_manyLetters two few).mp fits'
      rw [← letterAt_injective.list_map same] at reads'
      exact (reads.unique reads').le

theorem numClasses_letterDfa : (letterDfa count).numClasses = count + 2 := by
  rw [letterDfa, numClasses_dfa, numClasses_manyLetters two few]

theorem tagFrom_letterDfa {word : List Nat} (small : ∀ classId ∈ word, classId < count + 2)
    {tag : Tag} :
    (letterDfa count).tagFrom 0 word = some tag ↔
      ∃ atLineStart letters id pattern, LetterWord count atLineStart letters id pattern ∧
        word = letterClasses count atLineStart letters ∧ tag = pattern.tag id := by
  have start : (letterDfa count).starts[0]? = some 0 := by
    rw [starts_letterDfa]
    rfl
  rw [← Dfa.tagAfter_of_start start, ← tagAfter_manyLetters two few, ← Dfa.tagAfter_recognizer
    (Partition.ofSpec (manyLetters count) denseConfig), letterDfa, tagAfter_dfa true]
  · rfl
  · rwa [numClasses_manyLetters two few]

/-- No rule reads symbols that are no letters. -/
theorem next_others {s : Nat} (reached : (letterDfa count).Reached s) :
    (letterDfa count).next s 0 = none := by
  have classes : (Dfa.ofNfa ((manyLetters count).nfa denseConfig)).numClasses = count + 2 :=
    numClasses_manyLetters two few
  rw [Option.eq_none_iff_forall_not_mem]
  intro t stepped
  obtain ⟨start, started, before, before_small, path⟩ := reached
  rw [starts_letterDfa, List.mem_singleton] at started
  cases started
  obtain ⟨after, tag, after_small, ahead⟩ :=
    Dfa.exists_tagFrom_next letterDfa_rooted (by rw [classes]; omega) stepped
  have ahead : (letterDfa count).tagFrom 0 (before ++ 0 :: after) = some tag := by
    rw [Dfa.tagFrom_after path, Dfa.tagFrom_cons, stepped]
    exact ahead
  have small : ∀ classId ∈ before ++ 0 :: after, classId < count + 2 := by
    rw [numClasses_letterDfa two few] at before_small
    rw [classes] at after_small
    refine List.forall_mem_append.mpr ⟨before_small, List.forall_mem_cons.mpr ⟨by omega, ?_⟩⟩
    exact after_small
  obtain ⟨atLineStart, letters, id, pattern, reads, same, -⟩ :=
    (tagFrom_letterDfa two few small).mp ahead
  have member : 0 ∈ letterClasses count atLineStart letters := by
    rw [← same]
    simp
  simp [letterClasses] at member

theorem tagFrom_start {atLineStart : Bool} {letters : List Nat} {id : Nat} {pattern : Pattern}
    (reads : LetterWord count atLineStart letters id pattern) :
    (letterDfa count).tagFrom 0 (letterClasses count atLineStart letters) =
      some (pattern.tag id) := by
  refine (tagFrom_letterDfa two few fun classId member => ?_).mpr
    ⟨atLineStart, letters, id, pattern, reads, rfl, rfl⟩
  rcases List.mem_append.mp member with first | later
  · split at first
    · rw [List.mem_singleton.mp first]
      omega
    · cases first
  · obtain ⟨i, listed, rfl⟩ := List.mem_map.mp later
    have := reads.lt two i listed
    omega

theorem tagFrom_letter {i : Nat} (early : i < count) :
    (letterDfa count).tagFrom 0 [i + 1] = some ⟨i, i, .whole⟩ := by
  have found := tagFrom_start two few (.letter false early)
  rwa [letterClasses_inside] at found

theorem tagFrom_doubled : (letterDfa count).tagFrom 0 [1, 1] = some ⟨count, count, .head 2⟩ := by
  have found := tagFrom_start two few (.doubled false)
  rwa [letterClasses_inside] at found

theorem tagFrom_opening :
    (letterDfa count).tagFrom 0 [count + 1, 1, 2] = some ⟨count + 1, count + 1, .whole⟩ := by
  have found := tagFrom_start two few .opening
  rwa [letterClasses_start] at found

theorem accept_start : (letterDfa count).accept 0 = none := by
  rw [← Dfa.tagFrom_nil, Option.eq_none_iff_forall_not_mem]
  intro tag found
  obtain ⟨atLineStart, letters, id, pattern, reads, same, -⟩ :=
    (tagFrom_letterDfa two few (by simp)).mp found
  cases reads <;> simp [letterClasses] at same

theorem accept_letter {i t : Nat} (early : i < count)
    (stepped : (letterDfa count).next 0 (i + 1) = some t) :
    (letterDfa count).accept t = some ⟨i, i, .whole⟩ := by
  have found := tagFrom_letter two few early
  rwa [Dfa.tagFrom_cons, stepped, Option.bind_some, Dfa.tagFrom_nil] at found

theorem accept_opened {t : Nat} (stepped : (letterDfa count).next 0 (count + 1) = some t) :
    (letterDfa count).accept t = none := by
  rw [Option.eq_none_iff_forall_not_mem]
  intro tag found
  have found : (letterDfa count).tagFrom 0 [count + 1] = some tag := by
    rw [Dfa.tagFrom_cons, stepped, Option.bind_some, Dfa.tagFrom_nil]
    exact found
  obtain ⟨atLineStart, letters, id, pattern, reads, same, -⟩ :=
    (tagFrom_letterDfa two few (by simp)).mp found
  cases atLineStart with
  | false =>
    cases reads <;> simp [letterClasses_inside] at same
    omega
  | true => cases reads <;> simp [letterClasses_start] at same

/-- The rule for the start of a line does not match anywhere else. -/
theorem opened_ne_start {t : Nat} (stepped : (letterDfa count).next 0 (count + 1) = some t) :
    t ≠ 0 := by
  rintro rfl
  have found := tagFrom_opening two few
  rw [Dfa.tagFrom_cons, stepped, Option.bind_some] at found
  obtain ⟨atLineStart, letters, id, pattern, reads, same, -⟩ :=
    (tagFrom_letterDfa two few (by simp; omega)).mp found
  cases atLineStart with
  | false => cases reads <;> simp [letterClasses_inside] at same
  | true =>
    cases reads <;> simp [letterClasses_start] at same
    omega

theorem exists_next_start {i : Nat} (known : i ≤ count) :
    ∃ t, (letterDfa count).next 0 (i + 1) = some t := by
  have ahead : ∃ word tag, (letterDfa count).tagFrom 0 ((i + 1) :: word) = some tag := by
    by_cases early : i < count
    · exact ⟨[], _, tagFrom_letter two few early⟩
    · obtain rfl : i = count := by omega
      exact ⟨[1, 2], _, tagFrom_opening two few⟩
  obtain ⟨word, tag, found⟩ := ahead
  rw [Dfa.tagFrom_cons] at found
  obtain ⟨t, stepped, _⟩ := Option.bind_eq_some_iff.mp found
  exact ⟨t, stepped⟩

end Tags

/-! The states: the start, one for each letter in order, one for the start of a line, and one for the
first letter twice. -/

section Behind

variable (two : 2 ≤ count) (few : count ≤ 0x100000) {t : Nat → Nat}
  (stepped : ∀ i ≤ count, (letterDfa count).next 0 (i + 1) = some (t i))

include two few stepped

theorem accept_behind {i : Nat} (known : i ≤ count) :
    (letterDfa count).accept (t i) = if i < count then some ⟨i, i, .whole⟩ else none := by
  by_cases early : i < count
  · rw [if_pos early]
    exact accept_letter two few early (stepped i known)
  · obtain rfl : i = count := by omega
    rw [if_neg early]
    exact accept_opened two few (stepped i known)

theorem behind_ne_start {i : Nat} (known : i ≤ count) : t i ≠ 0 := by
  intro same
  by_cases early : i < count
  · have accepts := accept_letter two few early (stepped i known)
    rw [same, accept_start two few] at accepts
    cases accepts
  · obtain rfl : i = count := by omega
    exact opened_ne_start two few (stepped i known) same

/-- Tags tell the states apart. -/
theorem behind_injective {i j : Nat} (i_known : i ≤ count) (j_known : j ≤ count)
    (same : t i = t j) : i = j := by
  have accepts := accept_behind two few stepped i_known
  rw [same, accept_behind two few stepped j_known] at accepts
  grind

theorem nodup_behind : ([0] ++ (List.range (count + 1)).map t).Nodup := by
  have known : ∀ {i}, i ∈ List.range (count + 1) → i ≤ count :=
    fun member => Nat.le_of_lt_succ (List.mem_range.mp member)
  rw [List.singleton_append, List.nodup_cons]
  constructor
  · intro member
    obtain ⟨i, listed, same⟩ := List.mem_map.mp member
    exact behind_ne_start two few stepped (known listed) same
  · refine List.Nodup.map_on (fun i i_listed j j_listed same => ?_) List.nodup_range
    exact behind_injective two few stepped (known i_listed) (known j_listed) same

theorem row_start : ((letterDfa count).row 0).filterMap id = (List.range (count + 1)).map t := by
  have row : (letterDfa count).row 0 =
      none :: (List.range (count + 1)).map fun i => some (t i) := by
    have successors : ∀ i ∈ List.range (count + 1),
        ((letterDfa count).next 0 ∘ Nat.succ) i = some (t i) := by
      intro i member
      rw [Function.comp_apply, Nat.succ_eq_add_one,
        stepped i (Nat.le_of_lt_succ (List.mem_range.mp member))]
    rw [Dfa.row, numClasses_letterDfa two few, List.range_succ_eq_map, List.map_cons, List.map_map,
      next_others two few reached_start, List.map_congr_left successors]
  rw [row, List.filterMap_cons_none rfl, List.filterMap_map, ← List.filterMap_eq_map]
  rfl

theorem known_start : addNew [0] (((letterDfa count).row 0).filterMap id) =
    [0] ++ (List.range (count + 1)).map t := by
  rw [row_start two few stepped, addNew_of_nodup (nodup_behind two few stepped)]

theorem behind_eq {i : Nat} (known : i ≤ count) : t i = i + 1 := by
  obtain ⟨fresh, numbers⟩ := range_letterDfa count 1
  have inside : 0 < (letterDfa count).states.size := Dfa.lt_of_next (stepped 0 (Nat.zero_le count))
  rw [List.take_range, Nat.min_eq_left (by omega), starts_letterDfa] at numbers
  have numbers : _ = addNew [0] (((letterDfa count).row 0).filterMap id) ++ fresh := numbers
  rw [known_start two few stepped] at numbers
  have length : ([0] ++ (List.range (count + 1)).map t).length = count + 2 := by simp
  have place : ([0] ++ (List.range (count + 1)).map t)[i + 1]? =
      (List.range (count + 2))[i + 1]? := by
    rw [eq_range_of_append numbers, length]
  rw [List.singleton_append, List.getElem?_cons_succ, List.getElem?_map,
    List.getElem?_range (by omega), List.getElem?_range (by omega), Option.map_some] at place
  exact Option.some_inj.mp place

end Behind

section States

variable (two : 2 ≤ count) (few : count ≤ 0x100000)

include two few

/-- Letters and the start of a line lead to states in the order of their classes. -/
theorem next_start {i : Nat} (known : i ≤ count) :
    (letterDfa count).next 0 (i + 1) = some (i + 1) := by
  have exists_next : ∀ i, ∃ t, i ≤ count → (letterDfa count).next 0 (i + 1) = some t := by
    intro i
    by_cases known : i ≤ count
    · obtain ⟨t, stepped⟩ := exists_next_start two few known
      exact ⟨t, fun _ => stepped⟩
    · exact ⟨0, fun known' => absurd known' known⟩
  choose t stepped using exists_next
  rw [stepped i known, behind_eq two few stepped known]

theorem accept_next {i : Nat} (known : i ≤ count) :
    (letterDfa count).accept (i + 1) = if i < count then some ⟨i, i, .whole⟩ else none :=
  accept_behind two few (t := (· + 1)) (fun _ => next_start two few) known

theorem exists_next_first : ∃ u rest, (letterDfa count).next 1 1 = some u ∧
    (letterDfa count).accept u = some ⟨count, count, .head 2⟩ ∧
    ((letterDfa count).row 1).filterMap id = u :: rest := by
  have found := tagFrom_doubled two few
  rw [Dfa.tagFrom_cons, next_start two few (Nat.zero_le count), Option.bind_some,
    Dfa.tagFrom_cons] at found
  obtain ⟨u, stepped, accepts⟩ := Option.bind_eq_some_iff.mp found
  rw [Dfa.tagFrom_nil] at accepts
  have reached : (letterDfa count).Reached 1 := by
    refine reached_start.next ?_ (next_start two few (Nat.zero_le count))
    rw [numClasses_letterDfa two few]
    omega
  have classes : List.range (count + 2) = 0 :: 1 :: (List.range count).map (· + 2) := by
    simp [List.range_succ_eq_map]
  have row : ∃ rest, ((letterDfa count).row 1).filterMap id = u :: rest := by
    rw [Dfa.row, numClasses_letterDfa two few, classes, List.map_cons, List.map_cons,
      next_others two few reached, stepped, List.filterMap_cons_none rfl]
    exact ⟨_, List.filterMap_cons_some rfl⟩
  obtain ⟨rest, row⟩ := row
  exact ⟨u, rest, stepped, accepts, row⟩

/-- The first letter twice leads to the state behind all these. -/
theorem next_doubled : (letterDfa count).next 1 1 = some (count + 2) ∧
    (letterDfa count).accept (count + 2) = some ⟨count, count, .head 2⟩ := by
  obtain ⟨u, rest, stepped, accepts, row⟩ := exists_next_first two few
  have known : addNew [0] (((letterDfa count).row 0).filterMap id) = List.range (count + 2) := by
    rw [known_start two few fun _ => next_start two few]
    exact List.range_succ_eq_map.symm
  have new : u ∉ List.range (count + 2) := by
    intro member
    have early := List.mem_range.mp member
    cases u with
    | zero =>
      rw [accept_start two few] at accepts
      cases accepts
    | succ i =>
      rw [accept_next two few (by omega)] at accepts
      split at accepts <;> cases accepts
  obtain ⟨fresh, numbers⟩ := range_letterDfa count 2
  have inside : 1 < (letterDfa count).states.size := Dfa.lt_of_next stepped
  have visited : List.range 2 = [0, 1] := rfl
  rw [List.take_range, Nat.min_eq_left (by omega), starts_letterDfa, visited] at numbers
  have numbers : _ = addNew (addNew [0] (((letterDfa count).row 0).filterMap id))
    (((letterDfa count).row 1).filterMap id) ++ fresh := numbers
  obtain ⟨more, grown⟩ := addNew_eq_append (List.range (count + 2) ++ [u]) rest
  rw [known, row, addNew, if_neg new, grown, List.append_assoc] at numbers
  have front := eq_range_of_append numbers
  rw [List.length_append, List.length_range, List.length_singleton] at front
  have last := List.singleton_inj.mp (List.append_cancel_left (front.trans List.range_succ))
  subst last
  exact ⟨stepped, accepts⟩

end States

/-! Dense tables. -/

def denseTables (count : Nat) : Tables := (manyLetters count).tables denseConfig true ⟨.dense, false⟩

/-- The best of what was found and the tag of a state, if it has one. -/
def offered (cursor : Nat) (best : Option Candidate) : Option Tag → Option Candidate
  | none => best
  | some tag => Candidate.improve best ⟨cursor, tag⟩

/-- No rule asks for the end of a line. -/
theorem consider_denseTables (s cursor : Nat) (atLineEnd : Bool) (best : Option Candidate) :
    (denseTables count).recognizer.consider s cursor atLineEnd best =
      offered cursor best ((letterDfa count).accept s) := by
  have lineEnd : (denseTables count).recognizer.lineEnd = none := lineEnd_manyLetters
  have tag : (denseTables count).tagOf s = (letterDfa count).accept s := Tables.tagOf_ofDfa
  rw [Recognizer.consider, Recognizer.tagsAt, lineEnd, Tables.recognizer_accept, tag]
  generalize (letterDfa count).accept s = tag
  cases tag <;> cases atLineEnd <;> rfl

theorem run_nil {s cursor : Nat} {best : Option Candidate} :
    (denseTables count).recognizer.run s cursor best [] =
      offered cursor best ((letterDfa count).accept s) := by
  rw [Recognizer.run, consider_denseTables]

theorem start_denseTables : (denseTables count).recognizer.start 0 = some 0 := by
  show (letterDfa count).starts.toArray[0]? = some 0
  rw [starts_letterDfa]
  rfl

section Dense

variable (two : 2 ≤ count) (few : count ≤ 0x100000)

include two few

theorem next_denseTables {s classId s' classId' t : Nat}
    (stepped : (letterDfa count).next s' classId' = some t) (small : classId' < count + 2)
    (same : Transitions.place (count + 2) s classId = s' * (count + 2) + classId') :
    (denseTables count).next s classId = some t := by
  have classes := numClasses_letterDfa two few
  rw [← classes] at small same
  rw [← stepped]
  exact Tables.next_dense_of_place (Dfa.lt_of_next stepped) small same

theorem next_start_denseTables {i : Nat} (known : i ≤ count) :
    (denseTables count).next 0 (i + 1) = some (i + 1) := by
  refine next_denseTables two few (next_start two few known) (by omega) ?_
  rw [Transitions.place_eq_mod]
  exact Nat.mod_eq_of_lt (by show _ < 4294967296; omega)

theorem run_letter {s t i cursor : Nat} {best : Option Candidate} {rest : List Nat}
    (early : i < count) (stepped : (denseTables count).next s (i + 1) = some t) :
    (denseTables count).recognizer.run s cursor best (letterAt i :: rest) =
      (denseTables count).recognizer.run t (cursor + 1)
        (offered cursor best ((letterDfa count).accept s)) rest := by
  have classOf : (denseTables count).recognizer.classOf (letterAt i) = some (i + 1) := by
    rw [← classOf_letterAt two few early]
    exact congrFun classOf_tables _
  rw [Recognizer.run, classOf, Option.bind_some, Tables.recognizer_step, stepped,
    consider_denseTables]

/-- Where the place of a letter behind another one is that of a third letter, this one is found
behind them, although no rule matches two letters like that. -/
theorem longestMatch_denseTables {i j k : Nat} (i_early : i < count) (j_early : j < count)
    (k_early : k < count) (around : Transitions.place (count + 2) (i + 1) (j + 1) = k + 1) :
    (denseTables count).recognizer.longestMatch 0 [letterAt i, letterAt j] false =
      some ⟨k, 2, 2⟩ := by
  have place : Transitions.place (count + 2) (i + 1) (j + 1) = 0 * (count + 2) + (k + 1) := by
    rw [around, Nat.zero_mul, Nat.zero_add]
  have first := next_start_denseTables two few i_early.le
  have second := next_denseTables two few (next_start two few k_early.le) (by omega) place
  rw [Recognizer.longestMatch, Recognizer.initial_eq, start_denseTables]
  show ((denseTables count).recognizer.run 0 0 none [letterAt i, letterAt j]).map _ = _
  rw [run_letter two few i_early first, run_letter two few j_early second, run_nil,
    accept_start two few, accept_next two few i_early.le, accept_next two few k_early.le,
    if_pos i_early, if_pos k_early]
  rfl

/-- Where the place of a letter at the start of a line is that of the first letter behind itself, a
token of two letters is found behind one. -/
theorem longestMatch_lineStart {j : Nat} (early : j < count)
    (around : Transitions.place (count + 2) (count + 1) (j + 1) = 1 * (count + 2) + 1) :
    (denseTables count).recognizer.longestMatch 0 [letterAt j] true = some ⟨count, 2, 1⟩ := by
  obtain ⟨third, accepts⟩ := next_doubled two few
  have opened := next_start_denseTables two few (Nat.le_refl count)
  have stepped := next_denseTables two few third (by omega) around
  have lineStart : (denseTables count).recognizer.lineStart = some (count + 1) :=
    lineStart_manyLetters two few
  rw [Recognizer.longestMatch, Recognizer.initial_eq, start_denseTables, Recognizer.opening,
    if_pos rfl, lineStart, Option.bind_some, Option.toList_some, Recognizer.follow,
    Tables.recognizer_step, opened]
  show ((denseTables count).recognizer.run (count + 1) 0 none [letterAt j]).map _ = _
  rw [run_letter two few early stepped, run_nil, accept_next two few le_rfl,
    if_neg (Nat.lt_irrefl _), accepts]
  rfl

/-- All successors are stored, however many there are. -/
theorem size_denseTables : ∃ successors, (denseTables count).transitions = .dense successors ∧
    (count + 3) * (count + 2) ≤ successors.size := by
  obtain ⟨successors, dense, size⟩ := Tables.exists_dense_ofDfa
    (Partition.ofSpec (manyLetters count) denseConfig) (letterDfa count)
    (manyLetters count).endActions false
  have states : count + 3 ≤ (letterDfa count).states.size :=
    Dfa.lt_of_accept (next_doubled two few).2
  refine ⟨successors, dense, ?_⟩
  rw [size, numClasses_letterDfa two few]
  exact Nat.mul_le_mul_right _ states

/-- A table for each state is as good as the automaton. -/
theorem longestMatch_rows {i j : Nat} (early : i < count) (other : i ≠ 0) {config : Config}
    (same : config.charset = denseConfig.charset) :
    ((manyLetters count).tables config true ⟨.rows, false⟩).recognizer.longestMatch 0
      [letterAt i, letterAt j] false = some ⟨i, 1, 1⟩ := by
  have room : (manyLetters count).AddressableAt config (.tables true ⟨.rows, false⟩) :=
    Tables.addressable_ofDfa.mpr nofun
  have found := longestMatch_manyLetters (j := j) two few early other same room
  rwa [longestMatchAt] at found

/-- Dense tables disagree with all other stages as soon as a place comes around. -/
theorem disagree_of_around {i j k : Nat} (early : i < count) (other : i ≠ 0)
    (j_early : j < count) (k_early : k < count)
    (around : Transitions.place (count + 2) (i + 1) (j + 1) = k + 1) :
    let spec := manyLetters count
    let partition := Partition.ofSpec spec denseConfig
    let nfa := (Nfa.ofSpec spec partition denseConfig.charset).1
    let dfa := Dfa.ofNfa nfa
    let tables := fun layout => Tables.ofDfa partition dfa.minimize spec.endActions layout
    let input := [letterAt i, letterAt j]
    (nfa.recognizer partition).longestMatch 0 input false = some ⟨i, 1, 1⟩ ∧
      (dfa.recognizer partition).longestMatch 0 input false = some ⟨i, 1, 1⟩ ∧
      (dfa.minimize.recognizer partition).longestMatch 0 input false = some ⟨i, 1, 1⟩ ∧
      (tables ⟨.rows, false⟩).recognizer.longestMatch 0 input false = some ⟨i, 1, 1⟩ ∧
      (tables ⟨.dense, false⟩).recognizer.longestMatch 0 input false = some ⟨k, 2, 2⟩ := by
  have agree : ∀ stage, (manyLetters count).AddressableAt denseConfig stage →
      (manyLetters count).longestMatchAt denseConfig stage 0 [letterAt i, letterAt j] false =
        some ⟨i, 1, 1⟩ :=
    fun stage room => longestMatch_manyLetters two few early other rfl room
  exact ⟨agree .nondeterministic trivial, agree (.deterministic false) trivial,
    agree (.deterministic true) trivial, longestMatch_rows two few early other rfl,
    longestMatch_denseTables two few early j_early k_early around⟩

end Dense

/-! With 65535 letters there are 65537 classes, and the places of the state behind the last letter come
around to those of the start. -/

theorem two_letters : 2 ≤ 65535 := by decide

theorem few_letters : 65535 ≤ 0x100000 := by decide

theorem around_first : Transitions.place (65535 + 2) (65534 + 1) (1 + 1) = 0 + 1 := by
  rw [Transitions.place_eq_mod]
  rfl

theorem longestMatch_around :
    (denseTables 65535).recognizer.longestMatch 0 [letterAt 65534, letterAt 1] false =
      some ⟨0, 2, 2⟩ :=
  longestMatch_denseTables two_letters few_letters (by decide) (by decide) (by decide) around_first

theorem build_denseTables : ∃ automaton,
    (manyLetters 65535).build denseConfig [] = ([], .ok automaton) ∧
      automaton.tables denseConfig.layout = denseTables 65535 :=
  ⟨_, build_manyLetters two_letters few_letters rfl, rfl⟩

/-- Two letters are found as the first one. The first of the two is the best match. -/
theorem denseTables_not_best : ∃ automaton,
    (manyLetters 65535).build denseConfig [] = ([], .ok automaton) ∧
    (∀ pattern ∈ (manyLetters 65535).patterns, pattern.CountsOrdered) ∧
    (∀ pattern ∈ (manyLetters 65535).patterns, ∀ context ∈ pattern.context,
      pattern.body.LengthsFit ∧ context.LengthsFit) ∧
    (∀ pattern ∈ (manyLetters 65535).patterns, pattern.context ≠ none →
      ¬pattern.body.Matches denseConfig.charset []) ∧
    (automaton.tables denseConfig.layout).recognizer.longestMatch 0 [letterAt 65534, letterAt 1]
      false = some ⟨0, 2, 2⟩ ∧
    (manyLetters 65535).Best denseConfig.charset 0 false [letterAt 65534, letterAt 1]
      (some ⟨65534, 1, 1⟩) ∧
    ¬(manyLetters 65535).Best denseConfig.charset 0 false [letterAt 65534, letterAt 1]
      (some ⟨0, 2, 2⟩) := by
  obtain ⟨automaton, built, dense⟩ := build_denseTables
  have possible : ∀ pattern ∈ (manyLetters 65535).patterns, ∃ trailing,
      pattern.trailing = .ok trailing :=
    fun _ member => trailing_possible (congrArg Prod.snd built) member
  have nonempty := nonempty_manyLetters two_letters few_letters
  have chosen := chosen_manyLetters (i := 65534) (j := 1) two_letters few_letters (by decide)
    (by decide)
  have best := best_of_offers countsOrdered_manyLetters possible lengthsFit_manyLetters nonempty
    chosen
  refine ⟨automaton, built, countsOrdered_manyLetters, lengthsFit_manyLetters, nonempty, ?_, best,
    ?_⟩
  · rw [dense, longestMatch_around]
  · intro wrong
    cases best.unique countsOrdered_manyLetters possible lengthsFit_manyLetters wrong

/-- The automata and the compressed tables find the first of two letters, and the dense tables find
both of them as one token. -/
theorem denseTables_disagree :
    let spec := manyLetters 65535
    let partition := Partition.ofSpec spec denseConfig
    let nfa := (Nfa.ofSpec spec partition denseConfig.charset).1
    let dfa := Dfa.ofNfa nfa
    let tables := fun layout => Tables.ofDfa partition dfa.minimize spec.endActions layout
    let input := [letterAt 65534, letterAt 1]
    (nfa.recognizer partition).longestMatch 0 input false = some ⟨65534, 1, 1⟩ ∧
    (dfa.recognizer partition).longestMatch 0 input false = some ⟨65534, 1, 1⟩ ∧
    (dfa.minimize.recognizer partition).longestMatch 0 input false = some ⟨65534, 1, 1⟩ ∧
    (tables ⟨.rows, false⟩).recognizer.longestMatch 0 input false = some ⟨65534, 1, 1⟩ ∧
    (tables ⟨.dense, false⟩).recognizer.longestMatch 0 input false = some ⟨0, 2, 2⟩ :=
  disagree_of_around two_letters few_letters (by decide) (by decide) (by decide) (by decide)
    around_first

/-- At the start of a line the second letter is found as a token of two. -/
theorem denseTables_overrun : ∃ automaton,
    (manyLetters 65535).build denseConfig [] = ([], .ok automaton) ∧
    (automaton.tables denseConfig.layout).recognizer.longestMatch 0 [letterAt 1] true =
      some ⟨65535, 2, 1⟩ ∧
    (⟨automaton.tables denseConfig.layout, 0⟩ : Scanner).nextWord [letterAt 1] 0 =
      .token ⟨65535, 0, 2⟩ := by
  have around : Transitions.place (65535 + 2) (65535 + 1) (1 + 1) = 1 * (65535 + 2) + 1 := by
    rw [Transitions.place_eq_mod]
    rfl
  have found := longestMatch_lineStart two_letters few_letters (by decide : 1 < 65535) around
  obtain ⟨automaton, built, dense⟩ := build_denseTables
  rw [← dense] at found
  refine ⟨automaton, built, found, ?_⟩
  rw [Scanner.nextWord_eq Nat.zero_lt_one]
  have found : (⟨automaton.tables denseConfig.layout, 0⟩ : Scanner).matchAt [letterAt 1] 0 =
    some ⟨65535, 2, 1⟩ := found
  rw [found]
  rfl

/-- Options differ in what is found with them as they compress the successors of each state or not. -/
theorem compressNext_matters : ∃ config config' automaton automaton',
    (Options.ofBits 11).resolve = .ok config ∧ (Options.ofBits 43).resolve = .ok config' ∧
    (Options.ofBits 11).unicode = (Options.ofBits 43).unicode ∧
    (Options.ofBits 11).caseAgnostic = (Options.ofBits 43).caseAgnostic ∧
    (manyLetters 65535).build config [] = ([], .ok automaton) ∧
    (manyLetters 65535).build config' [] = ([], .ok automaton') ∧
    (automaton.tables config.layout).recognizer.longestMatch 0 [letterAt 65534, letterAt 1] false =
      some ⟨0, 2, 2⟩ ∧
    (automaton'.tables config'.layout).recognizer.longestMatch 0 [letterAt 65534, letterAt 1] false =
      some ⟨65534, 1, 1⟩ := by
  have resolved : (Options.ofBits 11).resolve = .ok denseConfig := by decide
  have resolved' : (Options.ofBits 43).resolve =
      .ok { denseConfig with layout := ⟨.rows, false⟩ } := by
    decide
  obtain ⟨automaton, built, dense⟩ := build_denseTables
  have built' : (manyLetters 65535).build { denseConfig with layout := ⟨.rows, false⟩ } [] = _ :=
    build_manyLetters two_letters few_letters rfl
  refine ⟨_, _, automaton, _, resolved, resolved', by decide, by decide, built, built', ?_, ?_⟩
  · rw [dense, longestMatch_around]
  · exact longestMatch_rows two_letters few_letters (by decide) (by decide) rfl

/-- No bytes are read as these tables, so they are not read back from their own bytes. -/
theorem denseTables_not_decoded : ∃ automaton,
    (manyLetters 65535).build denseConfig [] = ([], .ok automaton) ∧
    automaton.endActions.length = (manyLetters 65535).conditions.length ∧
    (automaton.tables denseConfig.layout).validate = .ok () ∧
    ¬FitWords (automaton.tables denseConfig.layout).lengths ∧
    ∀ bytes, Tables.decode bytes ≠ .ok (automaton.tables denseConfig.layout) := by
  have count : (manyLetters 65535).endActions.length = (manyLetters 65535).conditions.length :=
    length_endActions _
  obtain ⟨successors, encoding, many⟩ := size_denseTables two_letters few_letters
  refine ⟨_, build_manyLetters two_letters few_letters rfl, count,
    Tables.validate_iff.mpr (valid_tables denseConfig true ⟨.dense, false⟩ count), ?_, ?_⟩
  · intro fit
    have fit := (fitWords_append.mp fit).2
    have few := (fitWords_cons.mp (encoding ▸ fit)).1
    omega
  · intro bytes decoded
    have few := Tables.decode_size_lt decoded encoding
    omega

/-- A specification is like itself, and still its dense tables and its compressed tables differ. -/
theorem alike_denseTables :
    AlikeIn 0 (manyLetters 65535) (manyLetters 65535) ∧
    (manyLetters 65535).longestMatchAt denseConfig (.tables true ⟨.dense, false⟩) 0
      [letterAt 65534, letterAt 1] false = some ⟨0, 2, 2⟩ ∧
    (manyLetters 65535).longestMatchAt denseConfig (.tables true ⟨.rows, false⟩) 0
      [letterAt 65534, letterAt 1] false = some ⟨65534, 1, 1⟩ := by
  refine ⟨⟨rfl, rfl, fun id rule rule' found found' => ?_⟩, longestMatch_around, ?_⟩
  · cases found.symm.trans found'
    exact (Decidable.em _).imp (fun active => ⟨rfl, active⟩) fun inactive => ⟨inactive, inactive⟩
  · have room : (manyLetters 65535).AddressableAt denseConfig (.tables true ⟨.rows, false⟩) :=
      Tables.addressable_ofDfa.mpr nofun
    exact longestMatch_manyLetters two_letters few_letters (by decide) (by decide) rfl room

end Spec

end Scangen
