import Scangen.Build
import Scangen.Proofs.Automaton.Paths
import Scangen.Proofs.Finite.Search
import Scangen.Proofs.Scan.Longest

/-!
Sets of states of a nondeterministic automaton. The set after a word holds all states that the word
leads to, so that the tag of the set is the first of all tags that the word finds.
-/

namespace Scangen

/-- The first tag of a list is the best of its members. -/
theorem Tag.first?_chosen (tags : List Tag) : Chosen Tag.Before (· ∈ tags) (Tag.first? tags) := by
  induction tags with
  | nil =>
    intro tag member
    cases member
  | cons tag others ih =>
    rw [first?]
    cases found : first? others with
    | none =>
      rw [found] at ih
      refine ⟨List.mem_cons_self, ?_⟩
      intro other member
      rcases List.mem_cons.mp member with rfl | later
      · exact before_irrefl other
      · exact absurd later (ih other)
    | some best =>
      rw [found] at ih
      dsimp only
      by_cases better : best.Before tag
      · rw [if_pos better]
        refine ⟨List.mem_cons_of_mem _ ih.1, ?_⟩
        intro other member
        rcases List.mem_cons.mp member with rfl | later
        · exact fun before => before_irrefl best (before_trans better before)
        · exact ih.2 other later
      · rw [if_neg better]
        refine ⟨List.mem_cons_self, ?_⟩
        intro other member before
        rcases List.mem_cons.mp member with rfl | later
        · exact before_irrefl other before
        · by_cases same : best = tag
          · exact ih.2 other later (same ▸ before)
          · have first : tag.Before best := by
              by_cases first : tag.Before best
              · exact first
              · exact absurd (eq_of_not_before better first) same
            exact ih.2 other later (before_trans before first)

namespace Nfa

variable {nfa : Nfa}

/-- All edges lead to states of the automaton. -/
def Closed (nfa : Nfa) : Prop := ∀ s label t, Arena.links nfa.states s label t → t < nfa.states.size

theorem mem_epsilonsFrom {arena : Arena} {s t : Nat} : t ∈ epsilonsFrom arena s ↔
    arena.links s none t := by
  unfold epsilonsFrom Arena.links State.LeadsTo
  cases arena[s]? <;> simp

theorem mem_closure (closed : nfa.Closed) {seeds : List Nat}
    (small : ∀ s ∈ seeds, s < nfa.states.size) {i : Nat} :
    i ∈ nfa.closure seeds ↔ ∃ s ∈ seeds, Links.Path (Arena.links nfa.states) s [] i := by
  have inside : ∀ s < nfa.states.size, ∀ t ∈ epsilonsFrom nfa.states s, t < nfa.states.size :=
    fun s _ t next => closed s none t (mem_epsilonsFrom.mp next)
  have leads : Search.Leads (epsilonsFrom nfa.states) = fun a b =>
    Arena.links nfa.states a none b := by
    funext a b
    exact propext mem_epsilonsFrom
  rw [closure, Search.mem_reachable small inside, leads]
  simp only [Links.Path.nil_iff]

theorem mem_edgesFrom {set : IndexSet} {edge : IndexSet × Nat} :
    edge ∈ nfa.edgesFrom set ↔ ∃ s ∈ set, Arena.links nfa.states s (some edge.1) edge.2 := by
  unfold edgesFrom Arena.links State.LeadsTo
  rw [List.mem_flatMap]
  constructor
  · rintro ⟨s, member, leads⟩
    refine ⟨s, IndexSet.mem_toList.mp member, ?_⟩
    cases found : nfa.states[s]? with
    | none => simp [found] at leads
    | some state =>
      rw [found] at leads
      exact ⟨state, rfl, leads⟩
  · rintro ⟨s, member, state, found, leads⟩
    exact ⟨s, IndexSet.mem_toList.mpr member, by rw [found]; exact leads⟩

theorem mem_targets {edges : List (IndexSet × Nat)} {classId t : Nat} :
    t ∈ targets edges classId ↔ ∃ label, (label, t) ∈ edges ∧ classId ∈ label := by
  unfold targets
  rw [List.mem_filterMap]
  constructor
  · rintro ⟨⟨label, target⟩, member, kept⟩
    dsimp only at kept
    split at kept
    next inside =>
      cases kept
      exact ⟨label, member, inside⟩
    next => cases kept
  · rintro ⟨label, member, inside⟩
    have inside : label.contains classId = true := inside
    exact ⟨(label, t), member, by simp [inside]⟩

/-- The states next to a set on a class are those that one of its edges leads to. -/
theorem mem_step (closed : nfa.Closed) {set : IndexSet} {classId i : Nat} :
    (∃ next, nfa.step set classId = some next ∧ i ∈ next) ↔
      ∃ s ∈ set, ∃ label t, Arena.links nfa.states s (some label) t ∧ classId ∈ label ∧
        Links.Path (Arena.links nfa.states) t [] i := by
  have member_iff : ∀ t, t ∈ targets (nfa.edgesFrom set) classId ↔
      ∃ s ∈ set, ∃ label, Arena.links nfa.states s (some label) t ∧ classId ∈ label := by
    intro t
    rw [mem_targets]
    constructor
    · rintro ⟨label, edge, inside⟩
      obtain ⟨s, member, link⟩ := mem_edgesFrom.mp edge
      exact ⟨s, member, label, link, inside⟩
    · rintro ⟨s, member, label, link, inside⟩
      exact ⟨label, mem_edgesFrom.mpr ⟨s, member, link⟩, inside⟩
  have small : ∀ t ∈ targets (nfa.edgesFrom set) classId, t < nfa.states.size := by
    intro t member
    obtain ⟨s, _, label, link, _⟩ := (member_iff t).mp member
    exact closed s (some label) t link
  have reached : (∃ next, nfa.step set classId = some next ∧ i ∈ next) ↔
      ∃ t ∈ targets (nfa.edgesFrom set) classId, Links.Path (Arena.links nfa.states) t [] i := by
    rw [← mem_closure closed small, step, stepAlong]
    cases targets (nfa.edgesFrom set) classId with
    | nil =>
      have nothing : ¬i ∈ nfa.closure [] := by
        rw [mem_closure closed (by simp)]
        simp
      simp [nothing]
    | cons first others => simp
  rw [reached]
  constructor
  · rintro ⟨t, member, path⟩
    obtain ⟨s, inside, label, link, reads⟩ := (member_iff t).mp member
    exact ⟨s, inside, label, t, link, reads, path⟩
  · rintro ⟨s, inside, label, t, link, reads, path⟩
    exact ⟨t, (member_iff t).mpr ⟨s, inside, label, link, reads⟩, path⟩

/-- Nothing leads out of the set without reading. -/
def Saturated (nfa : Nfa) (set : IndexSet) : Prop :=
  ∀ s ∈ set, ∀ t, Links.Path (Arena.links nfa.states) s [] t → t ∈ set

theorem closure_saturated (closed : nfa.Closed) {seeds : List Nat}
    (small : ∀ s ∈ seeds, s < nfa.states.size) :
    nfa.Saturated (nfa.closure seeds) := by
  intro s member t path
  obtain ⟨seed, inside, before⟩ := (mem_closure closed small).mp member
  exact (mem_closure closed small).mpr ⟨seed, inside, before.append path⟩

theorem step_saturated (closed : nfa.Closed) {set next : IndexSet} {classId : Nat}
    (stepped : nfa.step set classId = some next) : nfa.Saturated next := by
  intro s member t path
  obtain ⟨from_set, inside, label, u, link, reads, before⟩ :=
    (mem_step closed).mp ⟨next, stepped, member⟩
  obtain ⟨next', same, found⟩ := (mem_step closed).mpr ⟨from_set, inside, label, u, link,
    reads, before.append path⟩
  rw [stepped] at same
  cases same
  exact found

variable {partition : Partition}

/-- The states that a word leads to from a set. -/
theorem mem_follow (closed : nfa.Closed) {set : IndexSet} (saturated : nfa.Saturated set)
    (word : List Nat) (i : Nat) :
    (∃ next, (nfa.recognizer partition).follow set word = some next ∧ i ∈ next) ↔
      ∃ s ∈ set, Links.Path (Arena.links nfa.states) s word i := by
  induction word generalizing set with
  | nil =>
    simp only [Recognizer.follow, Option.some.injEq, exists_eq_left']
    constructor
    · exact fun member => ⟨i, member, .stay i⟩
    · rintro ⟨s, member, path⟩
      exact saturated s member i path
  | cons classId word ih =>
    constructor
    · rintro ⟨last, followed, member⟩
      obtain ⟨next, stepped, followed⟩ := Option.bind_eq_some_iff.mp followed
      obtain ⟨t, inside, path⟩ := (ih (step_saturated closed stepped)).mp ⟨last, followed, member⟩
      obtain ⟨s, inside, label, u, link, reads, before⟩ :=
        (mem_step closed).mp ⟨next, stepped, inside⟩
      exact ⟨s, inside, .read link reads (before.append path)⟩
    · rintro ⟨s, inside, path⟩
      obtain ⟨t, first, rest⟩ := Links.Path.append_iff.mp
        (show Links.Path _ s ([classId] ++ word) i from path)
      obtain ⟨u, label, v, before, link, reads, after⟩ := Links.Path.singleton_iff.mp first
      obtain ⟨next, stepped, member⟩ :=
        (mem_step closed).mpr ⟨u, saturated s inside u before, label, v, link, reads, after⟩
      obtain ⟨last, followed, found⟩ := (ih (step_saturated closed stepped)).mpr ⟨t, member, rest⟩
      exact ⟨last, Option.bind_eq_some_iff.mpr ⟨next, stepped, followed⟩, found⟩

theorem accept_chosen (nfa : Nfa) (set : IndexSet) :
    Chosen Tag.Before (fun tag => ∃ s ∈ set, Arena.tagAt nfa.states s = some tag)
      (nfa.accept set) := by
  apply (Tag.first?_chosen _).congr
  intro tag
  rw [List.mem_filterMap]
  simp only [IndexSet.mem_toList]
  rfl

/-- Behind a word stands the first of all tags that the word finds. -/
theorem tagAfter_chosen (closed : nfa.Closed) {condition s : Nat}
    (start : nfa.starts[condition]? = some s)
    (small : s < nfa.states.size) (word : List Nat) :
    Chosen Tag.Before (Arena.Finds nfa.states s word)
      ((nfa.recognizer partition).tagAfter condition word) := by
  have seeds_small : ∀ t ∈ [s], t < nfa.states.size := by simpa using small
  have reached : ∀ i, (∃ next, (nfa.recognizer partition).follow (nfa.closure [s]) word =
    some next ∧ i ∈ next) ↔
      Links.Path (Arena.links nfa.states) s word i := by
    intro i
    rw [mem_follow closed (closure_saturated closed seeds_small)]
    constructor
    · rintro ⟨t, member, path⟩
      obtain ⟨seed, same, before⟩ := (mem_closure closed seeds_small).mp member
      rw [List.mem_singleton] at same
      exact same ▸ before.append path
    · intro path
      exact ⟨s, (mem_closure closed seeds_small).mpr ⟨s, by simp, .stay s⟩, path⟩
  have started : (nfa.recognizer partition).start condition = some (nfa.closure [s]) := by
    show nfa.starts[condition]?.map _ = _
    rw [start, Option.map_some]
  unfold Recognizer.tagAfter
  rw [started, Option.bind_some]
  cases followed : (nfa.recognizer partition).follow (nfa.closure [s]) word with
  | none =>
    rintro tag ⟨t, path, _⟩
    obtain ⟨next, same, _⟩ := (reached t).mpr path
    rw [followed] at same
    cases same
  | some last =>
    apply (accept_chosen nfa last).congr
    intro tag
    constructor
    · rintro ⟨t, member, here⟩
      exact ⟨t, (reached t).mp ⟨last, followed, member⟩, here⟩
    · rintro ⟨t, path, here⟩
      obtain ⟨next, same, member⟩ := (reached t).mpr path
      rw [followed] at same
      cases same
      exact ⟨t, member, here⟩

end Nfa

end Scangen
