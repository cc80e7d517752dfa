import Scangen.Automaton.Rules
import Scangen.Proofs.Automaton.Expressions

/-!
The words of classes that a pattern spells, with the ends of a line where it asks for them, and the
fragment that reads them.
-/

namespace Scangen

variable {partition : Partition} {charset : Charset}

namespace Pattern

/-- What stands behind the context: the end of the line if the pattern asks for it. -/
def Ends (partition : Partition) (p : Pattern) (word : List Nat) : Prop :=
  if p.lineEnd then ∃ classId, partition.lineEnd = some classId ∧ word = [classId] else word = []

/-- The word of classes reads the body, the context and the end of the line, each as far as it is
asked for. -/
def Spells (partition : Partition) (charset : Charset) (p : Pattern) (word : List Nat) : Prop :=
  ∃ token following ending, word = token ++ following ++ ending ∧
    p.ordered.MatchesBy (partition.Reads charset) token following ∧ p.Ends partition ending

/-- The scanner reads the start of a line first where there is one, whether a pattern asks for it or
not. -/
def Begins (partition : Partition) (charset : Charset) (p : Pattern) (word : List Nat) : Prop :=
  (p.lineStart = false ∧ p.Spells partition charset word) ∨
    ∃ classId rest, partition.lineStart = some classId ∧ word = classId :: rest ∧
      p.Spells partition charset rest

end Pattern

/-! A fragment goes on with one more link to a new state. -/

section Read

variable {before after : Arena} {fragment : Fragment} {L : List Nat → Prop} {label : IndexSet}

theorem Builds.links_read (b : Builds before after fragment L) {s t : Nat}
    {l : Option IndexSet} :
    (after.newState.edge fragment.exit label after.size).links s l t ↔
      after.links s l t ∨ (label ≠ ∅ ∧ s = fragment.exit ∧ l = some label ∧ t = after.size) := by
  have room : fragment.exit < after.size + 1 := by
    have := b.exit.2
    omega
  simp [room]

theorem Adds.read (b : Builds before after fragment L) :
    Adds before (after.newState.edge fragment.exit label after.size)
      ⟨fragment.entry, after.size⟩ := by
  obtain ⟨entry_new, entry_lt⟩ := b.entry
  obtain ⟨exit_new, exit_lt⟩ := b.exit
  have size : (after.newState.edge fragment.exit label after.size).size = after.size + 1 := by simp
  constructor
  · show before.size ≤ fragment.entry ∧ fragment.entry < _
    omega
  · show before.size ≤ after.size ∧ after.size < _
    omega
  · intro s earlier l t
    have apart : s ≠ fragment.exit := by omega
    rw [b.links_read, b.old s earlier]
    simp [apart]
  · intro s
    simp [b.tags]
  · intro s l t new link
    show (before.size ≤ t ∧ t < _) ∧ s ≠ after.size ∧ t ≠ fragment.entry
    rw [size]
    rcases b.links_read.mp link with old | ⟨_, rfl, _, rfl⟩
    · have := Arena.lt_of_links old
      obtain ⟨⟨t_new, t_lt⟩, _, t_ne⟩ := b.inside s l t new old
      omega
    · omega

theorem Builds.read (b : Builds before after fragment L) (label : IndexSet) :
    Builds before (after.newState.edge fragment.exit label after.size) ⟨fragment.entry, after.size⟩
      (Followed L fun word => ∃ classId ∈ label, word = [classId]) := by
  have adds : Adds before (after.newState.edge fragment.exit label after.size) _ := Adds.read b
  refine ⟨adds, fun word => ?_⟩
  have apart : fragment.exit ≠ after.size := Nat.ne_of_lt b.exit.2
  have outside : ¬Between before after after.size := fun between => Nat.lt_irrefl _ between.2
  have through : (after.newState.edge fragment.exit label after.size).links.Path fragment.entry
    word after.size ↔ _ := b.through
    (fun s _ last l t link => (b.links_read.mp link).resolve_right fun out => last out.2.1)
    (fun s l t old => b.links_read.mpr (Or.inl old)) (Or.inl outside)
  rw [through]
  have exit_links : ∀ l t, (after.newState.edge fragment.exit label after.size).links fragment.exit
      l t ↔ label ≠ ∅ ∧ l = some label ∧ t = after.size := by
    intro l t
    rw [b.links_read, or_iff_right (b.exit_no_links l t)]
    simp only [true_and]
  simp only [Links.Path.last_link exit_links apart adds.exit_no_links]
  apply followed_congr
  intro rest
  constructor
  · intro reads
    obtain ⟨_, ⟨silent, _⟩ | ⟨l, classId, same, member, rfl⟩⟩ := reads
    · cases silent
    · cases same
      exact ⟨classId, member, rfl⟩
  · intro reads
    obtain ⟨classId, member, rfl⟩ := reads
    have nonempty : label ≠ ∅ := fun nothing => IndexSet.not_mem_empty classId (nothing ▸ member)
    exact ⟨nonempty, Or.inr ⟨label, classId, rfl, member, rfl⟩⟩

end Read

namespace Pattern

theorem spells_iff (p : Pattern) (word : List Nat) : p.Spells partition charset word ↔
    Followed (fun word => ∃ token following, word = token ++ following ∧
      p.ordered.MatchesBy (partition.Reads charset) token following) (p.Ends partition) word := by
  constructor
  · rintro ⟨token, following, ending, rfl, reads, ends⟩
    exact ⟨token ++ following, ending, rfl, ⟨token, following, rfl, reads⟩, ends⟩
  · rintro ⟨_, ending, rfl, ⟨token, following, rfl, reads⟩, ends⟩
    exact ⟨token, following, ending, rfl, reads, ends⟩

/-- The pattern without the end of the line. -/
def unanchored (p : Pattern) : Pattern := { p with lineEnd := false }

section Middle

variable {p : Pattern} {arena : Arena}

theorem fragment_alone (context : p.context = none) :
    p.unanchored.fragment partition charset arena =
      ((p.body.fragment partition charset arena).1,
        ⟨(p.body.fragment partition charset arena).2.entry,
          (p.body.fragment partition charset arena).2.exit,
          (p.body.fragment partition charset arena).2.exit⟩) := by
  simp [fragment, unanchored, context]

theorem fragment_followed {following : Regex} (context : p.context = some following) :
    let body := p.body.fragment partition charset arena
    let behind := following.fragment partition charset body.1
    p.unanchored.fragment partition charset arena =
      (behind.1.epsilon body.2.exit behind.2.entry,
        ⟨body.2.entry, body.2.exit, behind.2.exit⟩) := by
  simp [fragment, unanchored, context]

/-- The end of the line comes last, behind one more state. -/
theorem fragment_anchored (asked : p.lineEnd = true) :
    let middle := p.unanchored.fragment partition charset arena
    p.fragment partition charset arena =
      (middle.1.newState.edge middle.2.exit partition.lineEndLabel middle.1.size,
        ⟨middle.2.entry, middle.2.bodyExit, middle.1.size⟩) := by
  cases context : p.context <;> simp [fragment, unanchored, context, asked]

theorem unanchored_of_free (free : p.lineEnd = false) : p.unanchored = p := by
  cases p
  cases free
  rfl

end Middle

/-- Without the end of the line, the states of a pattern spell its body and its context. -/
theorem unanchored_builds (partition : Partition) (charset : Charset) (p : Pattern) (arena : Arena) :
    Builds arena (p.unanchored.fragment partition charset arena).1
      ⟨(p.unanchored.fragment partition charset arena).2.entry,
        (p.unanchored.fragment partition charset arena).2.exit⟩
      (fun word => ∃ token following, word = token ++ following ∧
        p.ordered.MatchesBy (partition.Reads charset) token following) := by
  have body := Regex.fragment_reads partition charset p.body arena
  cases context : p.context with
  | none =>
    rw [fragment_alone context]
    apply body.congr
    intro word
    simp [MatchesBy, ordered, context]
  | some context' =>
    have following := Regex.fragment_reads partition charset context'
      (p.body.fragment partition charset arena).1
    rw [fragment_followed context]
    apply (body.join_epsilon following).congr
    intro word
    simp [MatchesBy, ordered, context, Followed]

theorem fragment_builds (partition : Partition) (charset : Charset) (p : Pattern) (arena : Arena) :
    Builds arena (p.fragment partition charset arena).1
      ⟨(p.fragment partition charset arena).2.entry, (p.fragment partition charset arena).2.exit⟩
      (p.Spells partition charset) := by
  have built := p.unanchored_builds partition charset arena
  cases asked : p.lineEnd with
  | true =>
    rw [fragment_anchored asked]
    apply (built.read partition.lineEndLabel).congr
    intro word
    rw [spells_iff]
    apply followed_congr
    intro ending
    unfold Ends Partition.lineEndLabel
    rw [if_pos asked]
    cases partition.lineEnd <;> simp
  | false =>
    rw [unanchored_of_free asked] at built
    apply built.congr
    intro word
    rw [spells_iff]
    unfold Followed Ends
    simp [asked]

end Pattern

end Scangen
