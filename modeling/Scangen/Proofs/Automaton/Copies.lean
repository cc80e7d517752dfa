import Scangen.Proofs.Automaton.Builders

/-!
Counted copies of a fragment. Behind the copies that there have to be come some that may be left
out, so that the chain of copies has an exit which is reached from each of them.
-/

namespace Scangen

variable {before middle after result : Arena} {fragment inner : Fragment} {L L₁ : List Nat → Prop}

theorem Builds.newState (b : Builds before after fragment L) :
    Builds before after.newState fragment L := by
  obtain ⟨entry_new, entry_lt⟩ := b.entry
  obtain ⟨exit_new, exit_lt⟩ := b.exit
  have size := Arena.size_newState after
  refine ⟨⟨⟨entry_new, by omega⟩, ⟨exit_new, by omega⟩, ?_, ?_, ?_⟩, ?_⟩
  · intro s earlier label t
    rw [Arena.links_newState, b.old s earlier]
  · intro s
    rw [Arena.tagAt_newState, b.tags]
  · intro s label t new link
    obtain ⟨⟨t_new, t_lt⟩, rest⟩ := b.inside s label t new (Arena.links_newState.mp link)
    exact ⟨⟨t_new, by omega⟩, rest⟩
  · intro word
    rw [Arena.links_newState_eq, b.words]

/-- A fragment up to a cursor, and an exit that some words reach before the cursor. -/
structure Chain (before after : Arena) (entry cursor exit : Nat)
    (language early : List Nat → Prop) : Prop where
  builds : Builds before after ⟨entry, cursor⟩ language
  exit_between : Between before after exit
  apart : exit ≠ cursor
  entry_apart : exit ≠ entry
  stuck : ∀ label t, ¬after.links exit label t
  words : ∀ word, after.links.Path entry word exit ↔ early word

namespace Chain

variable {entry cursor exit : Nat} {early : List Nat → Prop}

theorem ofBuilds (b : Builds before after ⟨entry, cursor⟩ L) :
    Chain before after.newState entry cursor after.size L (fun _ => False) := by
  have entry_lt : entry < after.size := b.entry.2
  have cursor_lt : cursor < after.size := b.exit.2
  have grown := b.size_lt
  refine ⟨b.newState, ⟨by omega, by simp⟩, by omega, by omega, ?_, ?_⟩
  · intro label t link
    exact Arena.no_links_of_le (Nat.le_refl _) label t (Arena.links_newState.mp link)
  · intro word
    rw [Arena.links_newState_eq, iff_false]
    intro path
    have stays := path.confined (R := Between before after) (f := after.links)
      (fun s label t inside link => ⟨link, (b.inside s label t inside.1 link).1⟩) b.entry
    exact Nat.lt_irrefl _ stays.1.2

/-- Links from the cursor are all that is added: words reach the exit as before, or past the cursor
if it leads there. -/
theorem path_exit_iff (c : Chain before after entry cursor exit L early) {g : Links}
    {leaks : Prop} {word : List Nat}
    (same : ∀ s, Between before after s → s ≠ cursor → ∀ label t, g s label t →
      after.links s label t)
    (more : ∀ s label t, after.links s label t → g s label t)
    (from_cursor : ∀ word, g.Path cursor word exit ↔ leaks ∧ word = []) :
    g.Path entry word exit ↔ early word ∨ (leaks ∧ L word) := by
  constructor
  · intro path
    have stays : ∀ s label t, Between before after s → s ≠ cursor → g s label t →
        after.links s label t ∧ Between before after t := by
      intro s label t new last link
      have old := same s new last label t link
      exact ⟨old, (c.builds.inside s label t new.1 old).1⟩
    rcases path.leave stays c.builds.entry with ⟨_, inside⟩ | ⟨token, rest, rfl, inside, later⟩
    · exact Or.inl ((c.words word).mp inside)
    · obtain ⟨leak, rfl⟩ := (from_cursor rest).mp later
      rw [List.append_nil]
      exact Or.inr ⟨leak, (c.builds.words token).mp inside⟩
  · rintro (early | ⟨leak, reads⟩)
    · exact ((c.words word).mpr early).mono more
    · have path := (((c.builds.words word).mpr reads).mono more).append
        ((from_cursor []).mpr ⟨leak, rfl⟩)
      rwa [List.append_nil] at path

/-- One more fragment behind the cursor, perhaps with a way to the exit in front of it. -/
theorem extend (c : Chain before middle entry cursor exit L early)
    (b : Builds middle after inner L₁) (leaks : Prop)
    (size : result.size = after.size) (tags : ∀ s, result.tagAt s = after.tagAt s)
    (links : ∀ s label t, result.links s label t ↔ after.links s label t ∨
      (s = cursor ∧ label = none ∧ (t = inner.entry ∨ (leaks ∧ t = exit)))) :
    Chain before result entry inner.exit exit (Followed L L₁) (fun word => early word ∨
      (leaks ∧ L word)) := by
  obtain ⟨exit_new, exit_lt⟩ := c.exit_between
  obtain ⟨_, cursor_lt⟩ : Between before middle cursor := c.builds.exit
  obtain ⟨inner_new, inner_lt⟩ := b.entry
  obtain ⟨out_new, out_lt⟩ := b.exit
  have grown := b.size_lt
  have joined : Builds before result ⟨entry, inner.exit⟩ (Followed L L₁) := by
    apply c.builds.join b size tags links
    rintro t ⟨_, rfl⟩
    exact ⟨c.exit_between, c.entry_apart, c.apart, c.stuck⟩
  have stuck : ∀ label t, ¬result.links exit label t := by
    intro label t link
    rcases (links exit label t).mp link with old | ⟨here, _⟩
    · exact c.stuck label t ((b.old exit exit_lt label t).mp old)
    · exact c.apart here
  refine ⟨joined, ⟨exit_new, by omega⟩, by omega, c.entry_apart, stuck, fun word => ?_⟩
  apply c.path_exit_iff
  · intro s new apart label t link
    rcases (links s label t).mp link with old | ⟨here, _⟩
    · exact (b.old s new.2 label t).mp old
    · exact absurd here apart
  · intro s label t old
    exact (links s label t).mpr (Or.inl ((b.old s (Arena.lt_of_links old) label t).mpr old))
  · intro word
    rw [Links.Path.head_iff]
    constructor
    · rintro (⟨here, _⟩ | ⟨t, link, path⟩ | ⟨label, t, _, _, link, _⟩)
      · exact absurd here.symm c.apart
      · rcases (links _ _ _).mp link with old | ⟨_, _, rfl | ⟨leak, rfl⟩⟩
        · exact absurd ((b.old _ cursor_lt _ _).mp old) (c.builds.exit_no_links _ _)
        · -- nothing leads out of the new fragment, so the exit is not reached from it
          have stays : ∀ s label t, Between middle after s → result.links s label t →
              after.links s label t ∧ Between middle after t := by
            intro s label t new link
            rcases (links s label t).mp link with old | ⟨here, _⟩
            · exact ⟨old, (b.inside s label t new.1 old).1⟩
            · have := new.1
              omega
          have := (path.confined stays b.entry).1.1
          omega
        · exact ⟨leak, ((Links.Path.of_no_links stuck).mp path).2⟩
      · rcases (links _ _ _).mp link with old | ⟨_, silent, _⟩
        · exact absurd ((b.old _ cursor_lt _ _).mp old) (c.builds.exit_no_links _ _)
        · cases silent
    · rintro ⟨leak, rfl⟩
      exact Or.inr (Or.inl ⟨exit, (links _ _ _).mpr (Or.inr ⟨rfl, rfl, Or.inr ⟨leak, rfl⟩⟩),
        .stay _⟩)

/-- The cursor leads to the exit, and the chain has come to its end. -/
theorem close (c : Chain before after entry cursor exit L early) :
    Builds before (after.epsilon cursor exit) ⟨entry, exit⟩ (fun word => early word ∨ L word) := by
  obtain ⟨exit_new, exit_lt⟩ := c.exit_between
  obtain ⟨entry_new, entry_lt⟩ : Between before after entry := c.builds.entry
  obtain ⟨cursor_new, cursor_lt⟩ : Between before after cursor := c.builds.exit
  have size := Arena.size_epsilon after cursor exit
  have stuck : ∀ label t, ¬(after.epsilon cursor exit).links exit label t := by
    intro label t link
    rcases Arena.links_epsilon.mp link with old | ⟨_, here, _⟩
    · exact c.stuck label t old
    · exact c.apart here
  have cursor_links : ∀ label t, (after.epsilon cursor exit).links cursor label t ↔
      True ∧ label = none ∧ t = exit := by
    intro label t
    rw [Arena.links_epsilon, or_iff_right (c.builds.exit_no_links label t)]
    simp [cursor_lt]
  refine ⟨⟨⟨entry_new, by show entry < _; omega⟩, ⟨exit_new, by show exit < _; omega⟩, ?_, ?_, ?_⟩,
    ?_⟩
  · intro s earlier label t
    have s_ne : s ≠ cursor := by omega
    rw [Arena.links_epsilon, c.builds.old s earlier]
    simp [s_ne]
  · intro s
    rw [Arena.tagAt_epsilon, c.builds.tags]
  · intro s label t new link
    show (before.size ≤ t ∧ t < (after.epsilon cursor exit).size) ∧ s ≠ exit ∧ t ≠ entry
    rcases Arena.links_epsilon.mp link with old | ⟨_, rfl, _, rfl⟩
    · obtain ⟨⟨t_new, t_lt⟩, _, t_ne⟩ := c.builds.inside s label t new old
      exact ⟨⟨t_new, by omega⟩, fun here => c.stuck label t (here ▸ old), t_ne⟩
    · exact ⟨⟨exit_new, by omega⟩, c.apart.symm, c.entry_apart⟩
  · intro word
    have iff : (after.epsilon cursor exit).links.Path entry word exit ↔ early word ∨
      (True ∧ L word) := c.path_exit_iff
      (fun s _ apart label t link => (Arena.links_epsilon.mp link).resolve_right fun out =>
        apart out.2.1)
      (fun s label t old => Arena.links_epsilon.mpr (Or.inl old)) ?_
    · rw [true_and] at iff
      exact iff
    · intro word
      rw [Links.Path.last_link cursor_links c.apart.symm stuck]
      simp

end Chain

theorem repeated_succ_iff {count : Nat} {word : List Nat} :
    Repeated L (count + 1) word ↔ Followed L (Repeated L count) word := by
  constructor
  · rintro (_ | ⟨one, others⟩)
    exact ⟨_, _, rfl, one, others⟩
  · rintro ⟨first, rest, rfl, one, others⟩
    exact .more one others

theorem followed_assoc {L₂ : List Nat → Prop} {word : List Nat} :
    Followed (Followed L L₁) L₂ word ↔ Followed L (Followed L₁ L₂) word := by
  constructor
  · rintro ⟨_, third, rfl, ⟨first, second, rfl, one, two⟩, three⟩
    exact ⟨first, second ++ third, List.append_assoc .., one, second, third, rfl, two, three⟩
  · rintro ⟨first, _, rfl, one, second, third, rfl, two, three⟩
    exact ⟨first ++ second, third, (List.append_assoc ..).symm, ⟨first, second, rfl, one, two⟩,
      three⟩

theorem followed_zero {word : List Nat} : Followed L (Repeated L₁ 0) word ↔ L word := by
  constructor
  · rintro ⟨token, rest, rfl, reads, nothing⟩
    cases nothing
    rwa [List.append_nil]
  · intro reads
    exact ⟨word, [], (List.append_nil word).symm, reads, .none⟩

theorem followed_congr {L₂ : List Nat → Prop} (same : ∀ word, L₁ word ↔ L₂ word) {word : List Nat} :
    Followed L L₁ word ↔ Followed L L₂ word := by
  simp only [Followed, same]

/-- Copies behind one copy are as many copies as together. -/
theorem followed_succ {count : Nat} {word : List Nat} :
    Followed (Followed L L₁) (Repeated L₁ count) word ↔ Followed L (Repeated L₁ (count + 1)) word :=
  followed_assoc.trans (followed_congr fun _ => repeated_succ_iff.symm)

theorem repeated_append_iff {m n : Nat} {word : List Nat} :
    Followed (Repeated L m) (Repeated L n) word ↔ Repeated L (m + n) word := by
  induction m generalizing word with
  | zero =>
    rw [Nat.zero_add]
    constructor
    · rintro ⟨_, rest, rfl, nothing, reads⟩
      cases nothing
      exact reads
    · exact fun reads => ⟨[], word, rfl, .none, reads⟩
  | succ m ih =>
    have regroup : Followed (Repeated L (m + 1)) (Repeated L n) word ↔
        Followed (Followed L (Repeated L m)) (Repeated L n) word := by
      simp only [Followed, repeated_succ_iff]
    rw [regroup, followed_assoc, followed_congr fun _ => ih, Nat.succ_add, repeated_succ_iff]

theorem followed_empty {word : List Nat} : Followed (fun word => word = []) L word ↔ L word := by
  constructor
  · rintro ⟨_, rest, rfl, rfl, reads⟩
    exact reads
  · exact fun reads => ⟨[], word, rfl, rfl, reads⟩

/-- Behind the copies that there have to be comes any number of further ones. -/
theorem followed_repeated_any {least : Nat} {word : List Nat} :
    Followed (Repeated L least) (fun word => ∃ count, Repeated L count word) word ↔
      ∃ count, least ≤ count ∧ Repeated L count word := by
  constructor
  · rintro ⟨token, rest, rfl, reads, more, others⟩
    exact ⟨least + more, by omega, repeated_append_iff.mp ⟨token, rest, rfl, reads, others⟩⟩
  · rintro ⟨count, enough, reads⟩
    obtain ⟨more, rfl⟩ := Nat.exists_eq_add_of_le enough
    obtain ⟨token, rest, rfl, reads, others⟩ := repeated_append_iff.mpr reads
    exact ⟨token, rest, rfl, reads, more, others⟩

/-- The further copies are left out from some point on, or all of them are there. -/
theorem repeated_between_iff {least more : Nat} {word : List Nat} :
    (∃ fewer < more, Repeated L (least + fewer) word) ∨ Repeated L (least + more) word ↔
      ∃ count, least ≤ count ∧ count ≤ least + more ∧ Repeated L count word := by
  constructor
  · rintro (⟨fewer, few, reads⟩ | reads)
    · exact ⟨least + fewer, by omega, by omega, reads⟩
    · exact ⟨least + more, by omega, by omega, reads⟩
  · rintro ⟨count, enough, few, reads⟩
    obtain ⟨fewer, rfl⟩ := Nat.exists_eq_add_of_le enough
    by_cases last : fewer = more
    · exact Or.inr (last ▸ reads)
    · exact Or.inl ⟨fewer, by omega, reads⟩

namespace Builder

variable {b : Builder} {entry : Nat}

theorem copies_builds (reads : b.Reads L₁) (count : Nat) {arena : Arena} {cursor : Nat}
    (built : Builds before arena ⟨entry, cursor⟩ L) :
    Builds before (copies b count arena cursor).1 ⟨entry, (copies b count arena cursor).2⟩
      (Followed L (Repeated L₁ count)) := by
  induction count generalizing arena cursor L with
  | zero => exact built.congr fun word => followed_zero.symm
  | succ count ih =>
    have inner := reads arena
    have longer : Builds before ((b arena).1.epsilon cursor (b arena).2.entry)
      ⟨entry, (b arena).2.exit⟩
        (Followed L L₁) := built.join_epsilon inner
    exact (ih longer).congr fun word => followed_succ

theorem optionalCopies_chain (reads : b.Reads L₁) (count : Nat) {arena : Arena} {cursor exit : Nat}
    {early : List Nat → Prop} (chain : Chain before arena entry cursor exit L early) :
    Chain before (optionalCopies b exit count arena cursor).1 entry
      (optionalCopies b exit count arena cursor).2 exit
      (Followed L (Repeated L₁ count))
      (fun word => early word ∨ ∃ fewer < count, Followed L (Repeated L₁ fewer) word) := by
  induction count generalizing arena cursor L early with
  | zero =>
    have same : (fun word => early word ∨ ∃ fewer < 0, Followed L (Repeated L₁ fewer) word) =
      early := by
      funext word
      simp
    rw [same]
    exact { chain with builds := chain.builds.congr fun word => followed_zero.symm }
  | succ count ih =>
    have inner := reads arena
    have cursor_lt : cursor < (b arena).1.size := Nat.lt_trans chain.builds.exit.2 inner.size_lt
    have links : ∀ s label t, (((b arena).1.epsilon cursor (b arena).2.entry).epsilon cursor
      exit).links s label t ↔
        (b arena).1.links s label t ∨
          (s = cursor ∧ label = none ∧ (t = (b arena).2.entry ∨ (True ∧ t = exit))) := by
      intro s label t
      simp only [Arena.links_epsilon, Arena.size_epsilon, cursor_lt, true_and]
      tauto
    have longer := chain.extend inner True (by simp) (by simp) links
    have rest := ih longer
    have later : ∀ word, ((early word ∨ (True ∧ L word)) ∨
        ∃ fewer < count, Followed (Followed L L₁) (Repeated L₁ fewer) word) ↔
          (early word ∨ ∃ fewer < count + 1, Followed L (Repeated L₁ fewer) word) := by
      intro word
      rw [true_and, or_assoc]
      apply or_congr_right
      constructor
      · rintro (reads | ⟨fewer, few, reads⟩)
        · exact ⟨0, by omega, followed_zero.mpr reads⟩
        · exact ⟨fewer + 1, by omega, followed_succ.mp reads⟩
      · rintro ⟨fewer, few, reads⟩
        cases fewer with
        | zero => exact Or.inl (followed_zero.mp reads)
        | succ fewer => exact Or.inr ⟨fewer, by omega, followed_succ.mpr reads⟩
    exact { rest with
      builds := rest.builds.congr fun word => followed_succ
      words := fun word => (rest.words word).trans (later word) }

/-- A single new state is a fragment for the empty word. -/
theorem point_builds (arena : Arena) :
    Builds arena arena.newState ⟨arena.size, arena.size⟩ (fun word => word = []) := by
  have stuck : ∀ label t, ¬arena.newState.links arena.size label t := fun label t link =>
    Arena.no_links_of_le (Nat.le_refl _) label t (Arena.links_newState.mp link)
  refine ⟨⟨⟨Nat.le_refl _, by simp⟩, ⟨Nat.le_refl _, by simp⟩, ?_, ?_, ?_⟩, ?_⟩
  · intro s _ label t
    exact Arena.links_newState
  · intro s
    exact Arena.tagAt_newState
  · intro s label t new link
    exact absurd (Arena.links_newState.mp link) (Arena.no_links_of_le new label t)
  · intro word
    rw [Links.Path.of_no_links stuck]
    simp

theorem repetition_none (b : Builder) (least : Nat) (arena : Arena) :
    let copied := copies b least arena.newState arena.size
    let starred := star b copied.1.newState
    repetition b least none arena =
      ((starred.1.epsilon copied.2 starred.2.entry).epsilon starred.2.exit copied.1.size,
      ⟨arena.size, copied.1.size⟩) := by
  unfold repetition
  rfl

theorem repetition_some (b : Builder) (least most : Nat) (arena : Arena) :
    let copied := copies b least arena.newState arena.size
    let filled := optionalCopies b copied.1.size (most - least) copied.1.newState copied.2
    repetition b least (some most) arena = (filled.1.epsilon filled.2 copied.1.size,
      ⟨arena.size, copied.1.size⟩) := by
  unfold repetition
  rfl

theorem repetition_reads (reads : b.Reads L) (least : Nat) (most : Option Nat) :
    (repetition b least most).Reads (fun word =>
      ∃ count, least ≤ count ∧ (∀ limit ∈ most.map (max least), count ≤ limit) ∧
        Repeated L count word) := by
  intro arena
  have needed := (copies_builds reads least (point_builds arena)).congr fun _ => followed_empty
  have chain := Chain.ofBuilds needed
  cases most with
  | none =>
    have starred := star_reads reads (copies b least arena.newState arena.size).1.newState
    have cursor_lt := Nat.lt_trans chain.builds.exit.2 starred.size_lt
    have links : ∀ s label t, ((star b
      (copies b least arena.newState arena.size).1.newState).1.epsilon
        (copies b least arena.newState arena.size).2
        (star b (copies b least arena.newState arena.size).1.newState).2.entry).links s label t ↔
        (star b (copies b least arena.newState arena.size).1.newState).1.links s label t ∨
          (s = (copies b least arena.newState arena.size).2 ∧ label = none ∧
            (t = (star b (copies b least arena.newState arena.size).1.newState).2.entry ∨
              (False ∧ t = (copies b least arena.newState arena.size).1.size))) := by
      intro s label t
      simp only [Arena.links_epsilon, cursor_lt, true_and, false_and, or_false]
    have longer := chain.extend starred False (by simp) (by simp) links
    have closed := longer.close
    rw [repetition_none]
    dsimp only
    refine closed.congr fun word => ?_
    rw [followed_repeated_any]
    simp
  | some most =>
    have closed := (optionalCopies_chain reads (most - least) chain).close
    rw [repetition_some]
    dsimp only
    refine closed.congr fun word => ?_
    have limit : max least most = least + (most - least) := by omega
    simp only [false_or, repeated_append_iff, repeated_between_iff, Option.map_some,
      Option.mem_some_iff, forall_eq', limit]

end Builder

end Scangen
