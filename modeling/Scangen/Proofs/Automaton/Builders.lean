import Mathlib.Tactic.Tauto
import Scangen.Pattern.Language
import Scangen.Proofs.Automaton.Fragments

/-!
The languages that the builders read: single symbols, rows of fragments, loops around a fragment and
ways past it, alternates between two states, and counted copies.
-/

namespace Scangen

variable {before middle after result : Arena} {fragment inner first second : Fragment}
  {L L₁ L₂ : List Nat → Prop}

namespace Arena

theorem no_links_of_le {arena : Arena} {s : Nat} (outside : arena.size ≤ s)
    (label : Option IndexSet) (t : Nat) :
    ¬arena.links s label t := fun link => by
  have := lt_of_links link
  omega

theorem links_newState_eq (arena : Arena) : arena.newState.links = arena.links := by
  funext s label t
  exact propext links_newState

end Arena

namespace Builder

/-- One link between two new states, on some label or without reading anything. -/
theorem link_builds {words : List Nat → Prop} (arena : Arena) (label : Option IndexSet)
    (linked : Prop)
    (size : result.size = arena.size + 2) (tags : ∀ s, result.tagAt s = arena.tagAt s)
    (links : ∀ s l t, result.links s l t ↔
      arena.links s l t ∨ (linked ∧ s = arena.size ∧ l = label ∧ t = arena.size + 1))
    (reads : ∀ word, words word ↔ linked ∧
      ((label = none ∧ word = []) ∨ ∃ l classId, label = some l ∧ classId ∈ l ∧ word = [classId])) :
    Builds arena result ⟨arena.size, arena.size + 1⟩ words := by
  have new_links : ∀ s l t, arena.size ≤ s → (result.links s l t ↔
      linked ∧ s = arena.size ∧ l = label ∧ t = arena.size + 1) := by
    intro s l t new
    rw [links, or_iff_right (Arena.no_links_of_le new l t)]
  have stuck : ∀ l t, ¬result.links (arena.size + 1) l t := by
    intro l t link
    have := ((new_links _ l t (by omega)).mp link).2.1
    omega
  refine ⟨⟨⟨?_, ?_⟩, ⟨?_, ?_⟩, ?_, tags, ?_⟩, ?_⟩
  · exact Nat.le_refl _
  · show arena.size < result.size
    omega
  · show arena.size ≤ arena.size + 1
    omega
  · show arena.size + 1 < result.size
    omega
  · intro s earlier l t
    have apart : s ≠ arena.size := by omega
    rw [links]
    simp [apart]
  · intro s l t new link
    obtain ⟨_, here, _, there⟩ := (new_links s l t new).mp link
    show (arena.size ≤ t ∧ t < result.size) ∧ s ≠ arena.size + 1 ∧ t ≠ arena.size
    omega
  · intro word
    show result.links.Path arena.size word (arena.size + 1) ↔ _
    have entry_links : ∀ l t, result.links arena.size l t ↔
        linked ∧ l = label ∧ t = arena.size + 1 := by
      intro l t
      rw [new_links _ _ _ (Nat.le_refl _)]
      simp only [true_and]
    rw [Links.Path.last_link entry_links (by omega) stuck, reads]

theorem empty_reads : empty.Reads (fun word => word = []) := by
  intro arena
  have room : arena.size < arena.size + 1 + 1 := by omega
  apply link_builds arena none True
  · simp [empty]
  · simp [empty]
  · simp [empty, room]
  · simp

theorem ofSet_reads (partition : Partition) (s : SymbolSet) :
    (ofSet partition s).Reads (fun word => ∃ classId, classId ∈ partition.label s ∧
      word = [classId]) := by
  intro arena
  have room : arena.size < arena.size + 1 + 1 := by omega
  apply link_builds arena (some (partition.label s)) (partition.label s ≠ ∅)
  · simp [ofSet]
  · simp [ofSet]
  · simp [ofSet, room]
  · intro word
    simp only [reduceCtorEq, false_and, Option.some.injEq, exists_and_left,
      exists_eq_left', false_or]
    constructor
    · rintro ⟨classId, member, rfl⟩
      exact ⟨fun nothing => IndexSet.not_mem_empty classId (nothing ▸ member), classId, member, rfl⟩
    · exact fun found => found.2

theorem append_reads {b₁ b₂ : Builder} (reads₁ : b₁.Reads L₁) (reads₂ : b₂.Reads L₂) :
    (append b₁ b₂).Reads (Followed L₁ L₂) :=
  fun arena => (reads₁ arena).join_epsilon (reads₂ (b₁ arena).1)

end Builder

/-! Two states around a fragment. -/

section Wrap

variable {loops skips : Prop} (b : Builds before middle fragment L)
    (size : result.size = middle.size + 2)
  (tags : ∀ s, result.tagAt s = middle.tagAt s)
  (links : ∀ s label t, result.links s label t ↔ middle.links s label t ∨ (label = none ∧
    ((s = middle.size ∧ (t = fragment.entry ∨ (skips ∧ t = middle.size + 1))) ∨
      (s = fragment.exit ∧ (t = middle.size + 1 ∨ (loops ∧ t = fragment.entry))))))

include b size tags links

theorem Adds.wrap : Adds before result ⟨middle.size, middle.size + 1⟩ := by
  obtain ⟨entry_new, entry_lt⟩ := b.entry
  obtain ⟨exit_new, exit_lt⟩ := b.exit
  have grown := b.size_lt
  constructor
  · show before.size ≤ middle.size ∧ middle.size < result.size
    omega
  · show before.size ≤ middle.size + 1 ∧ middle.size + 1 < result.size
    omega
  · intro s earlier label t
    have apart : s ≠ middle.size := by omega
    have apart' : s ≠ fragment.exit := by omega
    rw [links, b.old s earlier]
    simp [apart, apart']
  · intro s
    rw [tags, b.tags]
  · intro s label t new link
    show (before.size ≤ t ∧ t < result.size) ∧ s ≠ middle.size + 1 ∧ t ≠ middle.size
    rcases (links s label t).mp link with old | ⟨_, ⟨rfl, rfl | ⟨_, rfl⟩⟩ | ⟨rfl, rfl | ⟨_, rfl⟩⟩⟩
    · have s_lt := Arena.lt_of_links old
      obtain ⟨⟨t_new, t_lt⟩, _⟩ := b.inside s label t new old
      omega
    all_goals omega

/-- From any state of the fragment the end of one word leads to its exit, and more words may follow
before the way out is taken. -/
theorem loop_from_inside {s u : Nat} {word : List Nat} (path : result.links.Path s word u)
    (last : u = middle.size + 1) (inside : Between before middle s) :
    ∃ token rest count, word = token ++ rest ∧ middle.links.Path s token fragment.exit ∧
      (count = 0 ∨ loops) ∧ Repeated L count rest := by
  have exit_lt := b.exit.2
  have stuck := (Adds.wrap b size tags links).exit_no_links
  induction path with
  | stay s =>
    have := inside.2
    omega
  | @silent s t u word link rest ih =>
    rcases (links s none t).mp link with old | ⟨_, ⟨here, _⟩ | ⟨here, there | ⟨again, there⟩⟩⟩
    · have next := (b.inside s none t inside.1 old).1
      obtain ⟨token, later, count, split, path, allowed, reads⟩ := ih last next
      exact ⟨token, later, count, split, .silent old path, allowed, reads⟩
    · have := inside.2
      omega
    · subst here there
      subst last
      obtain ⟨_, rfl⟩ := (Links.Path.of_no_links stuck).mp rest
      exact ⟨[], [], 0, rfl, .stay _, Or.inl rfl, .none⟩
    · subst here there
      obtain ⟨token, later, count, split, path, allowed, reads⟩ := ih last b.entry
      refine ⟨[], word, count + 1, rfl, .stay _, Or.inr again, ?_⟩
      rw [split]
      exact .more ((b.words token).mp path) reads
  | @read s t u classId label word link member rest ih =>
    rcases (links s (some label) t).mp link with old | ⟨silent, _⟩
    · have next := (b.inside s (some label) t inside.1 old).1
      obtain ⟨token, later, count, split, path, allowed, reads⟩ := ih last next
      refine ⟨classId :: token, later, count, ?_, .read old member path, allowed, reads⟩
      rw [split, List.cons_append]
    · cases silent

/-- From the entry of a loop the way out is taken after one or more words. -/
theorem loop_words (word : List Nat) : result.links.Path fragment.entry word (middle.size + 1) ↔
    ∃ count, (count = 0 ∨ loops) ∧ Repeated L (count + 1) word := by
  have exit_lt := b.exit.2
  have more : ∀ s label t, middle.links s label t → result.links s label t :=
    fun s label t old => (links s label t).mpr (Or.inl old)
  have out : result.links fragment.exit none (middle.size + 1) :=
    (links _ _ _).mpr (Or.inr ⟨rfl, Or.inr ⟨rfl, Or.inl rfl⟩⟩)
  constructor
  · intro path
    obtain ⟨token, rest, count, rfl, path, allowed, reads⟩ :=
      loop_from_inside b size tags links path rfl b.entry
    exact ⟨count, allowed, .more ((b.words token).mp path) reads⟩
  · rintro ⟨count, allowed, reads⟩
    induction count generalizing word with
    | zero =>
      cases reads with
      | @more _ first rest one others =>
        cases others
        have path := ((b.words first).mpr one).mono more
        exact path.append (.silent out (.stay _))
    | succ count ih =>
      have again : loops := allowed.resolve_left (by omega)
      cases reads with
      | @more _ first rest one others =>
        have path := ((b.words first).mpr one).mono more
        have back : result.links fragment.exit none fragment.entry :=
          (links _ _ _).mpr (Or.inr ⟨rfl, Or.inr ⟨rfl, Or.inr ⟨again, rfl⟩⟩⟩)
        exact path.append (.silent back (ih rest (Or.inr again) others))

theorem Builds.wrap : Builds before result ⟨middle.size, middle.size + 1⟩ (fun word =>
    (skips ∧ word = []) ∨ ∃ count, (count = 0 ∨ loops) ∧ Repeated L (count + 1) word) := by
  refine ⟨Adds.wrap b size tags links, fun word => ?_⟩
  have exit_lt := b.exit.2
  have stuck := (Adds.wrap b size tags links).exit_no_links
  show result.links.Path middle.size word (middle.size + 1) ↔ _
  rw [← loop_words b size tags links word, Links.Path.head_iff]
  constructor
  · rintro (⟨here, _⟩ | ⟨t, link, path⟩ | ⟨label, t, classId, rest, link, _⟩)
    · omega
    · rcases (links _ _ _).mp link with old | ⟨_, ⟨_, rfl | ⟨skip, rfl⟩⟩ | ⟨here, _⟩⟩
      · exact absurd old (Arena.no_links_of_le (Nat.le_refl _) _ _)
      · exact Or.inr path
      · exact Or.inl ⟨skip, ((Links.Path.of_no_links stuck).mp path).2⟩
      · omega
    · rcases (links _ _ _).mp link with old | ⟨silent, _⟩
      · exact absurd old (Arena.no_links_of_le (Nat.le_refl _) _ _)
      · cases silent
  · rintro (⟨skip, rfl⟩ | path)
    · exact Or.inr (Or.inl ⟨_, (links _ _ _).mpr (Or.inr ⟨rfl, Or.inl ⟨rfl, Or.inr ⟨skip, rfl⟩⟩⟩),
        .stay _⟩)
    · exact Or.inr (Or.inl ⟨_, (links _ _ _).mpr (Or.inr ⟨rfl, Or.inl ⟨rfl, Or.inl rfl⟩⟩), path⟩)

end Wrap

theorem repeated_one_iff {word : List Nat} : Repeated L 1 word ↔ L word := by
  constructor
  · rintro (_ | ⟨one, others⟩)
    cases others
    rwa [List.append_nil]
  · intro one
    have reads := Repeated.more one .none
    rwa [List.append_nil] at reads

namespace Builder

variable {b : Builder}

/-- What is read around a fragment: nothing if it may be skipped, one of its words, or more of them
if it loops. -/
theorem around_reads (loops skips : Bool) (reads : b.Reads L) :
    (around loops skips b).Reads fun word => (skips = true ∧ word = []) ∨
      ∃ count, (count = 0 ∨ loops = true) ∧ Repeated L (count + 1) word := by
  intro arena
  have inner := reads arena
  have exit_lt : (b arena).2.exit < (b arena).1.size + 1 + 1 := by
    have := inner.exit.2
    omega
  apply inner.wrap
  · cases loops <;> cases skips <;> simp [around]
  · cases loops <;> cases skips <;> simp [around]
  · intro s label t
    have room : (b arena).1.size < (b arena).1.size + 1 + 1 := by omega
    cases loops <;> cases skips <;>
      simp only [around, Bool.false_eq_true, if_true, if_false, Arena.links_epsilon,
        Arena.links_newState, Arena.size_epsilon, Arena.size_newState, exit_lt, room, true_and,
        false_and, or_false] <;> tauto

theorem star_reads (reads : b.Reads L) :
    (star b).Reads (fun word => ∃ count, Repeated L count word) := by
  intro arena
  apply (around_reads true true reads arena).congr
  intro word
  constructor
  · rintro (⟨_, rfl⟩ | ⟨count, _, reads⟩)
    · exact ⟨0, .none⟩
    · exact ⟨count + 1, reads⟩
  · rintro ⟨count, reads⟩
    cases count with
    | zero =>
      cases reads
      exact Or.inl ⟨rfl, rfl⟩
    | succ count => exact Or.inr ⟨count, Or.inr rfl, reads⟩

theorem plus_reads (reads : b.Reads L) :
    (plus b).Reads (fun word => ∃ count, Repeated L (count + 1) word) := by
  intro arena
  apply (around_reads true false reads arena).congr
  simp

theorem optional_reads (reads : b.Reads L) :
    (optional b).Reads (fun word => word = [] ∨ L word) := by
  intro arena
  apply (around_reads false true reads arena).congr
  intro word
  simp [repeated_one_iff]

end Builder

/-! One more alternate between two states. -/

section Alternate

variable (a : Builds before middle fragment L) (b : Builds middle after inner L₁)
  (apart : fragment.entry ≠ fragment.exit) (size : result.size = after.size)
  (tags : ∀ s, result.tagAt s = after.tagAt s)
  (links : ∀ s label t, result.links s label t ↔ after.links s label t ∨ (label = none ∧
    ((s = fragment.entry ∧ t = inner.entry) ∨ (s = inner.exit ∧ t = fragment.exit))))

include a b apart size tags links

theorem Adds.alternate : Adds before result fragment := by
  obtain ⟨entry_new, entry_lt⟩ := a.entry
  obtain ⟨exit_new, exit_lt⟩ := a.exit
  obtain ⟨inner_new, inner_lt⟩ := b.entry
  obtain ⟨out_new, out_lt⟩ := b.exit
  constructor
  · exact ⟨entry_new, by omega⟩
  · exact ⟨exit_new, by omega⟩
  · intro s earlier label t
    have s_ne : s ≠ fragment.entry := by omega
    have s_ne' : s ≠ inner.exit := by omega
    rw [links, b.old s (by omega), a.old s earlier]
    simp [s_ne, s_ne']
  · intro s
    rw [tags, b.tags, a.tags]
  · intro s label t new link
    show (before.size ≤ t ∧ t < result.size) ∧ s ≠ fragment.exit ∧ t ≠ fragment.entry
    rcases (links s label t).mp link with old | ⟨_, ⟨rfl, rfl⟩ | ⟨rfl, rfl⟩⟩
    · by_cases early : s < middle.size
      · obtain ⟨⟨t_new, t_lt⟩, last, entry⟩ :=
          a.inside s label t new ((b.old s early label t).mp old)
        exact ⟨⟨t_new, by omega⟩, last, entry⟩
      · obtain ⟨⟨t_new, t_lt⟩, last, _⟩ := b.inside s label t (by omega) old
        omega
    · omega
    · omega

/-- From the entry of the new alternate its words are read. -/
theorem path_alternate (word : List Nat) : result.links.Path inner.entry word fragment.exit ↔
    L₁ word := by
  have exit_lt := a.exit.2
  have out_new := b.exit.1
  have stuck := (Adds.alternate a b apart size tags links).exit_no_links
  have same : ∀ s, Between middle after s → s ≠ inner.exit → ∀ label t, result.links s label t →
      after.links s label t := by
    intro s new last label t link
    rcases (links s label t).mp link with old | ⟨_, ⟨here, _⟩ | ⟨here, _⟩⟩
    · exact old
    · have := new.1
      have := a.entry.2
      omega
    · exact absurd here last
  have outside : ¬Between middle after fragment.exit := fun between => by
    have := between.1
    omega
  have exit_links : ∀ label t, result.links inner.exit label t ↔
      True ∧ label = none ∧ t = fragment.exit := by
    intro label t
    have inner_ne : inner.exit ≠ fragment.entry := by
      have := a.entry.2
      omega
    rw [links, or_iff_right (b.exit_no_links label t)]
    simp [inner_ne]
  rw [b.through same (fun s label t old => (links s label t).mpr (Or.inl old)) (Or.inl outside)]
  simp only [Links.Path.last_link exit_links (by omega) stuck]
  simp

omit apart size tags in
/-- Nothing has changed on the other ways from the entry. -/
theorem path_other_alternates {t : Nat} {word : List Nat} (inside : Between before middle t)
    (other : t ≠ fragment.entry)
    (path : result.links.Path t word fragment.exit) : middle.links.Path t word fragment.exit := by
  have stays : ∀ s label u, (Between before middle s ∧ s ≠ fragment.entry) →
    result.links s label u →
      middle.links s label u ∧ (Between before middle u ∧ u ≠ fragment.entry) := by
    rintro s label u ⟨between, apart⟩ link
    rcases (links s label u).mp link with old | ⟨_, ⟨here, _⟩ | ⟨here, _⟩⟩
    · have older := (b.old s between.2 label u).mp old
      obtain ⟨range, _, entry⟩ := a.inside s label u between.1 older
      exact ⟨older, range, entry⟩
    · exact absurd here apart
    · have := between.2
      have := b.exit.1
      omega
  exact (path.confined stays ⟨inside, other⟩).2

theorem Builds.alternate : Builds before result fragment (fun word => L word ∨ L₁ word) := by
  refine ⟨Adds.alternate a b apart size tags links, fun word => ?_⟩
  have entry_lt := a.entry.2
  have more : ∀ s label t, middle.links s label t → result.links s label t :=
    fun s label t old =>
      (links s label t).mpr (Or.inl ((b.old s (Arena.lt_of_links old) label t).mpr old))
  rw [← a.words, ← path_alternate a b apart size tags links word]
  constructor
  · intro path
    rcases Links.Path.head_iff.mp path with ⟨here, _⟩ | ⟨t, link, rest⟩ |
        ⟨label, t, classId, rest, link, member, rfl, later⟩
    · exact absurd here apart
    · rcases (links _ _ _).mp link with old | ⟨_, ⟨_, rfl⟩ | ⟨here, _⟩⟩
      · have older := (b.old _ entry_lt _ _).mp old
        obtain ⟨range, _, entry⟩ := a.inside _ _ _ a.entry.1 older
        exact Or.inl (.silent older (path_other_alternates a b links range entry rest))
      · exact Or.inr rest
      · have := b.exit.1
        omega
    · rcases (links _ _ _).mp link with old | ⟨silent, _⟩
      · have older := (b.old _ entry_lt _ _).mp old
        obtain ⟨range, _, entry⟩ := a.inside _ _ _ a.entry.1 older
        exact Or.inl (.read older member (path_other_alternates a b links range entry later))
      · cases silent
  · rintro (path | path)
    · exact path.mono more
    · exact .silent ((links _ _ _).mpr (Or.inr ⟨rfl, Or.inl ⟨rfl, rfl⟩⟩)) path

end Alternate

end Scangen
