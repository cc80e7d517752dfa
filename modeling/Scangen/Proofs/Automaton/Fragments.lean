import Mathlib.Tactic.Tauto
import Scangen.Proofs.Automaton.Paths

/-!
What a builder adds to an arena: states of its own, among them an entry that nothing leads to and an
exit that leads nowhere, with the words of a language on the paths between the two. Fragments put
together are fragments of the language put together in the same way.
-/

namespace Scangen

/-- A word of one language and behind it one of another. -/
def Followed (first second : List Nat → Prop) (word : List Nat) : Prop :=
  ∃ token rest, word = token ++ rest ∧ first token ∧ second rest

/-- The states that are new in the second arena. -/
def Between (before after : Arena) (s : Nat) : Prop := before.size ≤ s ∧ s < after.size

/-- All that is new lies between the entry and the exit of a fragment. -/
structure Adds (before after : Arena) (fragment : Fragment) : Prop where
  entry : Between before after fragment.entry
  exit : Between before after fragment.exit
  old : ∀ s < before.size, ∀ label t, after.links s label t ↔ before.links s label t
  tags : ∀ s, after.tagAt s = before.tagAt s
  inside : ∀ s label t, before.size ≤ s → after.links s label t →
    Between before after t ∧ s ≠ fragment.exit ∧ t ≠ fragment.entry

/-- A fragment between two arenas reads the words of a language. -/
structure Builds (before after : Arena) (fragment : Fragment) (language : List Nat → Prop) : Prop
    extends Adds before after fragment where
  words : ∀ word, after.links.Path fragment.entry word fragment.exit ↔ language word

/-- The builder adds a fragment for the language to any arena. -/
def Builder.Reads (b : Builder) (language : List Nat → Prop) : Prop :=
  ∀ arena, Builds arena (b arena).1 (b arena).2 language

variable {before middle after result : Arena} {fragment first second : Fragment}
    {L L₁ L₂ : List Nat → Prop}

namespace Adds

theorem size_lt (b : Adds before after fragment) : before.size < after.size :=
  Nat.lt_of_le_of_lt b.entry.1 b.entry.2

theorem exit_no_links (b : Adds before after fragment) (label : Option IndexSet) (t : Nat) :
    ¬after.links fragment.exit label t :=
  fun link => (b.inside _ label t b.exit.1 link).2.1 rfl

end Adds

namespace Builds

theorem congr (b : Builds before after fragment L) (same : ∀ word, L word ↔ L₁ word) :
    Builds before after fragment L₁ :=
  { b with words := fun word => (b.words word).trans (same word) }

/-- Where the links of new states are those of the fragment but for its exit, a path from the entry
to a place outside is a word of the language and a path from the exit. -/
theorem through (b : Builds before after fragment L) {g : Links} {u : Nat} {word : List Nat}
    (same : ∀ s, Between before after s → s ≠ fragment.exit → ∀ label t, g s label t →
      after.links s label t)
    (more : ∀ s label t, after.links s label t → g s label t)
    (outside : ¬Between before after u ∨ u = fragment.exit) :
    g.Path fragment.entry word u ↔
      ∃ token rest, word = token ++ rest ∧ L token ∧ g.Path fragment.exit rest u := by
  constructor
  · intro path
    have stays : ∀ s label t, Between before after s → s ≠ fragment.exit → g s label t →
        after.links s label t ∧ Between before after t := by
      intro s label t new last link
      have old := same s new last label t link
      exact ⟨old, (b.inside s label t new.1 old).1⟩
    rcases path.leave stays b.entry with ⟨between, path⟩ | ⟨token, rest, rfl, path, later⟩
    · have last : u = fragment.exit := outside.resolve_left fun apart => apart between
      subst last
      exact ⟨word, [], (List.append_nil word).symm, (b.words word).mp path, .stay _⟩
    · exact ⟨token, rest, rfl, (b.words token).mp path, later⟩
  · rintro ⟨token, rest, rfl, reads, path⟩
    exact (((b.words token).mpr reads).mono more).append path

/-- The same for the exit itself, where nothing leads on from it. -/
theorem within (b : Builds before after fragment L) {g : Links} {word : List Nat}
    (same : ∀ s, Between before after s → s ≠ fragment.exit → ∀ label t, g s label t →
      after.links s label t)
    (more : ∀ s label t, after.links s label t → g s label t)
    (last : ∀ label t, ¬g fragment.exit label t) :
    g.Path fragment.entry word fragment.exit ↔ L word := by
  rw [b.through same more (Or.inr rfl)]
  constructor
  · rintro ⟨token, rest, rfl, reads, path⟩
    obtain ⟨_, rfl⟩ := (Links.Path.of_no_links last).mp path
    rwa [List.append_nil]
  · intro reads
    exact ⟨word, [], (List.append_nil word).symm, reads, .stay _⟩

end Builds

/-! Two fragments in a row. The exit of the first may also lead to states that lead nowhere. -/

section Join

variable {escape : Nat → Prop} (a : Builds before middle first L₁)
    (b : Builds middle after second L₂)
  (size : result.size = after.size) (tags : ∀ s, result.tagAt s = after.tagAt s)
  (links : ∀ s label t, result.links s label t ↔
    after.links s label t ∨ (s = first.exit ∧ label = none ∧ (t = second.entry ∨ escape t)))
  (dead : ∀ t, escape t → Between before middle t ∧ t ≠ first.entry ∧ t ≠ first.exit ∧
    ∀ label u, ¬middle.links t label u)

include a b size tags links dead

theorem Adds.join : Adds before result ⟨first.entry, second.exit⟩ := by
  obtain ⟨exit_new, exit_lt⟩ := a.exit
  obtain ⟨second_new, second_lt⟩ := b.entry
  obtain ⟨last_new, last_lt⟩ := b.exit
  obtain ⟨first_new, first_lt⟩ := a.entry
  constructor
  · exact ⟨first_new, by show first.entry < result.size; omega⟩
  · exact ⟨by show before.size ≤ second.exit; omega, by show second.exit < result.size; omega⟩
  · intro s earlier label t
    have apart : s ≠ first.exit := by omega
    rw [links, b.old s (by omega), a.old s earlier]
    simp [apart]
  · intro s
    rw [tags, b.tags, a.tags]
  · intro s label t new link
    show (before.size ≤ t ∧ t < result.size) ∧ s ≠ second.exit ∧ t ≠ first.entry
    rcases (links s label t).mp link with old | ⟨rfl, rfl, rfl | out⟩
    · by_cases early : s < middle.size
      · obtain ⟨⟨t_new, t_lt⟩, _, entry⟩ := a.inside s label t new ((b.old s early label t).mp old)
        refine ⟨?_, ?_, entry⟩ <;> omega
      · obtain ⟨⟨t_new, t_lt⟩, last, _⟩ := b.inside s label t (by omega) old
        refine ⟨?_, last, ?_⟩ <;> omega
    · refine ⟨?_, ?_, ?_⟩ <;> omega
    · obtain ⟨⟨t_new, t_lt⟩, entry, _⟩ := dead t out
      refine ⟨?_, ?_, entry⟩ <;> omega

/-- Behind the first fragment the second one is read. -/
theorem path_second (word : List Nat) :
    result.links.Path first.exit word second.exit ↔ L₂ word := by
  have exit_lt := a.exit.2
  have second_new := b.entry.1
  have last_new := b.exit.1
  have frame := Adds.join a b size tags links dead
  have inner : result.links.Path second.entry word second.exit ↔ L₂ word := b.within
    (fun s new _ label t link => ((links s label t).mp link).resolve_right fun out => by
      have := new.1
      omega)
    (fun s label t old => (links s label t).mpr (Or.inl old)) frame.exit_no_links
  have stuck : ∀ label t, ¬after.links first.exit label t :=
    fun label t old => a.exit_no_links label t ((b.old _ exit_lt label t).mp old)
  rw [← inner, Links.Path.head_iff]
  constructor
  · rintro (⟨here, _⟩ | ⟨t, link, path⟩ | ⟨label, t, _, _, link, _⟩)
    · omega
    · rcases (links _ _ _).mp link with old | ⟨_, _, rfl | out⟩
      · exact absurd old (stuck _ _)
      · exact path
      · obtain ⟨⟨_, t_lt⟩, _, apart, no_links⟩ := dead t out
        have no_more : ∀ label u, ¬result.links t label u := by
          intro label u link
          rcases (links t label u).mp link with old | ⟨here, _⟩
          · exact no_links label u ((b.old t t_lt label u).mp old)
          · exact apart here
        have := ((Links.Path.of_no_links no_more).mp path).1
        omega
    · rcases (links _ _ _).mp link with old | ⟨_, silent, _⟩
      · exact absurd old (stuck _ _)
      · cases silent
  · intro path
    exact Or.inr (Or.inl ⟨second.entry, (links _ _ _).mpr (Or.inr ⟨rfl, rfl, Or.inl rfl⟩), path⟩)

theorem Builds.join : Builds before result ⟨first.entry, second.exit⟩ (Followed L₁ L₂) := by
  refine ⟨Adds.join a b size tags links dead, fun word => ?_⟩
  have last_new := b.exit.1
  have same : ∀ s, Between before middle s → s ≠ first.exit → ∀ label t, result.links s label t →
      middle.links s label t := by
    intro s new apart label t link
    rcases (links s label t).mp link with old | ⟨here, _⟩
    · exact (b.old s new.2 label t).mp old
    · exact absurd here apart
  have more : ∀ s label t, middle.links s label t → result.links s label t :=
    fun s label t old =>
      (links s label t).mpr (Or.inl ((b.old s (Arena.lt_of_links old) label t).mpr old))
  have outside : ¬Between before middle second.exit := fun between => by
    have := between.2
    omega
  show result.links.Path first.entry word second.exit ↔ _
  rw [a.through same more (Or.inl outside)]
  simp only [path_second a b size tags links dead]
  rfl

end Join

/-- One link puts two fragments in a row. -/
theorem Builds.join_epsilon (a : Builds before middle first L₁)
    (b : Builds middle after second L₂) :
    Builds before (after.epsilon first.exit second.entry) ⟨first.entry, second.exit⟩
      (Followed L₁ L₂) := by
  have exit_lt : first.exit < after.size := Nat.lt_trans a.exit.2 b.size_lt
  have links : ∀ s label t, (after.epsilon first.exit second.entry).links s label t ↔
      after.links s label t ∨ (s = first.exit ∧ label = none ∧ (t = second.entry ∨ False)) := by
    intro s label t
    simp [exit_lt]
  exact a.join b (by simp) (by simp) links fun _ impossible => impossible.elim

end Scangen
