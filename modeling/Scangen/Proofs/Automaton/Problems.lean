import Scangen.Proofs.Automaton.Labels
import Scangen.Proofs.Automaton.Patterns
import Scangen.Proofs.Automaton.Sets

/-!
What the searches in an arena say about a pattern: that its body is left without reading anything, and
that its exit is reached at all.
-/

namespace Scangen

namespace Arena

variable {arena : Arena} {s t : Nat}

/-- All links of the arena lead to states of it. -/
def Inside (arena : Arena) : Prop := ∀ s label t, arena.links s label t → t < arena.size

theorem mem_neighbours : t ∈ Nfa.neighbours arena s ↔ ∃ label, arena.links s label t := by
  rw [Option.exists]
  unfold Nfa.neighbours links Nfa.State.LeadsTo
  cases arena[s]? <;> simp

theorem reachesSilently_iff (inside : arena.Inside) (small : s < arena.size) :
    arena.reachesSilently s t = true ↔ arena.links.Path s [] t := by
  have steps : ∀ i < arena.size, ∀ j ∈ Nfa.epsilonsFrom arena i, j < arena.size :=
    fun i _ j next => inside i none j (Nfa.mem_epsilonsFrom.mp next)
  have leads : Search.Leads (Nfa.epsilonsFrom arena) = fun a b => arena.links a none b := by
    funext a b
    exact propext Nfa.mem_epsilonsFrom
  have seeds : ∀ i ∈ [s], i < arena.size := by simpa using small
  rw [Links.Path.nil_iff, ← leads]
  refine (Search.mem_reachable seeds steps).trans ?_
  simp

/-- Whatever is next to a state can be read, so that a word leads wherever the search does. -/
theorem reachable_iff (labelled : arena.Labelled) :
    Relation.ReflTransGen (Search.Leads (Nfa.neighbours arena)) s t ↔
      ∃ word, arena.links.Path s word t := by
  constructor
  · intro path
    induction path using Relation.ReflTransGen.head_induction_on with
    | refl => exact ⟨[], .stay t⟩
    | head first _ ih =>
      obtain ⟨word, path⟩ := ih
      obtain ⟨label, link⟩ := mem_neighbours.mp first
      cases label with
      | none => exact ⟨word, .silent link path⟩
      | some label =>
        obtain ⟨classId, member⟩ := IndexSet.exists_mem (labelled _ _ _ link)
        exact ⟨classId :: word, .read link member path⟩
  · intro path
    obtain ⟨word, path⟩ := path
    induction path with
    | stay => exact .refl
    | silent link _ ih => exact .head (mem_neighbours.mpr ⟨none, link⟩) ih
    | read link _ _ ih => exact .head (mem_neighbours.mpr ⟨some _, link⟩) ih

theorem reaches_iff (inside : arena.Inside) (labelled : arena.Labelled)
    (small : s < arena.size) : arena.reaches s t = true ↔ ∃ word, arena.links.Path s word t := by
  have steps : ∀ i < arena.size, ∀ j ∈ Nfa.neighbours arena i, j < arena.size := by
    intro i _ j next
    obtain ⟨label, link⟩ := mem_neighbours.mp next
    exact inside i label j link
  have seeds : ∀ i ∈ [s], i < arena.size := by simpa using small
  rw [← reachable_iff labelled]
  refine (Search.mem_reachable seeds steps).trans ?_
  simp

end Arena

/-- A fragment leaves all links inside. -/
theorem Adds.inside_after {before after : Arena} {fragment : Fragment}
    (adds : Adds before after fragment) (inside : before.Inside) : after.Inside := by
  intro s label t link
  by_cases earlier : s < before.size
  · exact Nat.lt_trans (inside s label t ((adds.old s earlier label t).mp link)) adds.size_lt
  · exact (adds.inside s label t (Nat.le_of_not_lt earlier) link).1.2

namespace Pattern

variable {partition : Partition} {charset : Charset} {p : Pattern} {arena : Arena}

/-- Behind the body the states of a pattern leave from the exit of the body or from later states. -/
theorem links_unanchored {s t : Nat} {label : Option IndexSet} :
    let body := p.body.fragment partition charset arena
    let middle := p.unanchored.fragment partition charset arena
    (middle.2.exit = body.2.exit ∨ body.1.size ≤ middle.2.exit) ∧
      (body.1.links s label t → middle.1.links s label t) ∧
      (s < body.1.size → s ≠ body.2.exit → middle.1.links s label t → body.1.links s label t) := by
  intro body middle
  cases context : p.context with
  | none =>
    have same : middle = (body.1, ⟨body.2.entry, body.2.exit, body.2.exit⟩) :=
      fragment_alone context
    rw [same]
    exact ⟨Or.inl rfl, id, fun _ _ => id⟩
  | some context' =>
    have following := Regex.fragment_reads partition charset context' body.1
    have same : middle = ((context'.fragment partition charset body.1).1.epsilon body.2.exit
        (context'.fragment partition charset body.1).2.entry,
        ⟨body.2.entry, body.2.exit, (context'.fragment partition charset body.1).2.exit⟩) :=
      fragment_followed context
    rw [same]
    refine ⟨Or.inr following.exit.1, ?_, ?_⟩
    · intro old
      rw [Arena.links_epsilon]
      exact Or.inl ((following.old s (Arena.lt_of_links old) label t).mpr old)
    · intro earlier apart link
      rcases Arena.links_epsilon.mp link with old | ⟨_, here, _⟩
      · exact (following.old s earlier label t).mp old
      · exact absurd here apart

/-- What follows a body in the arena leads out of its exit, and out of no other state of it. -/
theorem links_body {s t : Nat} {label : Option IndexSet} :
    let body := p.body.fragment partition charset arena
    let all := p.fragment partition charset arena
    (body.1.links s label t → all.1.links s label t) ∧
      (s < body.1.size → s ≠ body.2.exit → all.1.links s label t → body.1.links s label t) := by
  intro body all
  obtain ⟨place, more, less⟩ := @links_unanchored partition charset p arena s t label
  cases asked : p.lineEnd with
  | true =>
    have same : all = _ := fragment_anchored asked
    rw [same]
    simp only [Arena.links_edge, Arena.links_newState]
    refine ⟨fun old => Or.inl (more old), fun earlier apart link => ?_⟩
    rcases link with old | ⟨_, _, here, _⟩
    · exact less earlier apart old
    · rcases place with last | late
      · exact absurd (here.trans last) apart
      · exact absurd (here ▸ late) (Nat.not_le_of_lt earlier)
  | false =>
    rw [unanchored_of_free asked] at more less
    exact ⟨more, less⟩

theorem entry_fragment : (p.fragment partition charset arena).2.entry =
    (p.body.fragment partition charset arena).2.entry ∧
    (p.fragment partition charset arena).2.bodyExit =
      (p.body.fragment partition charset arena).2.exit := by
  unfold fragment
  cases p.context <;> cases p.lineEnd <;> exact ⟨rfl, rfl⟩

variable (inside : arena.Inside)

include inside

/-- The search finds that the body matches the empty word. -/
theorem reachesSilently_body : (p.fragment partition charset arena).1.reachesSilently
    (p.fragment partition charset arena).2.entry (p.fragment partition charset arena).2.bodyExit =
      true ↔ p.body.ordered.MatchesBy (partition.Reads charset) [] := by
  have body := Regex.fragment_reads partition charset p.body arena
  have all := p.fragment_builds partition charset arena
  rw [Arena.reachesSilently_iff (all.inside_after inside) all.entry.2, entry_fragment.1,
    entry_fragment.2]
  have through : (p.fragment partition charset arena).1.links.Path _ [] _ ↔ _ := body.through
    (fun s new apart label t link => links_body.2 new.2 apart link)
    (fun s label t old => links_body.1 old) (Or.inr rfl)
  rw [through]
  constructor
  · intro reads
    obtain ⟨token, rest, empty, reads, _⟩ := reads
    obtain ⟨rfl, rfl⟩ := List.append_eq_nil_iff.mp empty.symm
    exact reads
  · exact fun reads => ⟨[], [], rfl, reads, .stay _⟩

/-- The search finds that the pattern spells something. -/
theorem reaches_exit (labelled : (p.fragment partition charset arena).1.Labelled) :
    (p.fragment partition charset arena).1.reaches (p.fragment partition charset arena).2.entry
      (p.fragment partition charset arena).2.exit = true ↔
      ∃ word, p.Spells partition charset word := by
  have all := p.fragment_builds partition charset arena
  rw [Arena.reaches_iff (all.inside_after inside) labelled all.entry.2]
  exact exists_congr all.words

end Pattern

end Scangen
