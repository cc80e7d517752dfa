import Scangen.Proofs.Automaton.Patterns

/-!
The automaton of a specification finds a tag behind a word of classes exactly if a rule with that
tag is active and the word spells the pattern of the rule.
-/

namespace Scangen

variable {before after result : Arena} {fragment : Fragment} {L : List Nat → Prop} {count : Nat}

/-- The first states are starts: nothing leads to them and they have no tags. -/
structure Starts (count : Nat) (arena : Arena) : Prop where
  room : count ≤ arena.size
  inside : ∀ s label t, arena.links s label t → count ≤ t ∧ t < arena.size
  untagged : ∀ s < count, arena.tagAt s = none

/-- A fragment whose exit accepts, and which some of the starts lead into on some labels. -/
structure Enters (count : Nat) (before after result : Arena) (fragment : Fragment)
    (language : List Nat → Prop) (tag : Tag)
    (enters : Nat → Option IndexSet → Prop) : Prop where
  starts : Starts count before
  builds : Builds before after fragment language
  size : result.size = after.size
  tags : ∀ s, result.tagAt s = if s = fragment.exit then some tag else after.tagAt s
  links : ∀ s label t, result.links s label t ↔ after.links s label t ∨
    (enters s label ∧ t = fragment.entry)
  low : ∀ s label, enters s label → s < count

namespace Enters

variable {tag : Tag} {enters : Nat → Option IndexSet → Prop}
    (e : Enters count before after result fragment L tag enters)

include e

theorem old_tags : ∀ s < before.size, result.tagAt s = before.tagAt s := by
  intro s earlier
  have apart : s ≠ fragment.exit := by
    have := e.builds.exit.1
    omega
  rw [e.tags, if_neg apart, e.builds.tags]

theorem inside : ∀ s label t, result.links s label t → count ≤ t ∧ t < result.size := by
  intro s label t link
  have room := e.starts.room
  have size := e.size
  rcases (e.links s label t).mp link with old | ⟨_, rfl⟩
  · by_cases earlier : s < before.size
    · have := e.starts.inside s label t ((e.builds.old s earlier label t).mp old)
      have := e.builds.size_lt
      omega
    · obtain ⟨⟨t_new, t_lt⟩, _⟩ := e.builds.inside s label t (by omega) old
      omega
  · obtain ⟨entry_new, entry_lt⟩ := e.builds.entry
    omega

theorem starts_after : Starts count result := by
  refine ⟨?_, e.inside, ?_⟩
  · have := e.starts.room
    have := e.builds.size_lt
    have := e.size
    omega
  · intro s small
    rw [e.old_tags s (by have := e.starts.room; omega)]
    exact e.starts.untagged s small

/-- A path into the fragment finds its tag and nothing else. -/
theorem finds_entry {word : List Nat} {found : Tag} : result.Finds fragment.entry word found ↔
    found = tag ∧ L word := by
  have stays : ∀ s label t, Between before after s → result.links s label t →
      after.links s label t ∧ Between before after t := by
    intro s label t new link
    rcases (e.links s label t).mp link with old | ⟨enters, _⟩
    · exact ⟨old, (e.builds.inside s label t new.1 old).1⟩
    · have := e.low s label enters
      have := e.starts.room
      have := new.1
      omega
  constructor
  · rintro ⟨t, path, here⟩
    obtain ⟨new, path⟩ := path.confined stays e.builds.entry
    rw [e.tags] at here
    by_cases last : t = fragment.exit
    · subst last
      rw [if_pos rfl, Option.some.injEq] at here
      exact ⟨here.symm, (e.builds.words word).mp path⟩
    · rw [if_neg last, e.builds.tags] at here
      have := Arena.lt_of_tagAt here
      have := new.1
      omega
  · rintro ⟨rfl, reads⟩
    refine ⟨fragment.exit, ((e.builds.words word).mpr reads).mono fun s label t old =>
      (e.links s label t).mpr (Or.inl old), ?_⟩
    rw [e.tags, if_pos rfl]

/-- States behind the starts find what they found before. -/
theorem finds_old {s : Nat} (behind : count ≤ s) (earlier : s < before.size)
    {word : List Nat} {found : Tag} :
    result.Finds s word found ↔ before.Finds s word found := by
  have stays : ∀ s label t, (count ≤ s ∧ s < before.size) → result.links s label t →
      before.links s label t ∧ (count ≤ t ∧ t < before.size) := by
    rintro s label t ⟨behind, earlier⟩ link
    rcases (e.links s label t).mp link with new | ⟨enters, _⟩
    · have old := (e.builds.old s earlier label t).mp new
      exact ⟨old, e.starts.inside s label t old⟩
    · have := e.low s label enters
      omega
  constructor
  · rintro ⟨t, path, here⟩
    obtain ⟨⟨_, t_earlier⟩, path⟩ := path.confined stays ⟨behind, earlier⟩
    rw [e.old_tags t t_earlier] at here
    exact ⟨t, path, here⟩
  · rintro ⟨t, path, here⟩
    refine ⟨t, path.mono fun s label t old => ?_, ?_⟩
    · exact (e.links s label t).mpr
        (Or.inl ((e.builds.old s (Arena.lt_of_links old) label t).mpr old))
    · rw [e.old_tags t (Arena.lt_of_tagAt here)]
      exact here

/-- A start finds what it found before, and the tag of the fragment where it leads into it. -/
theorem finds_enter {s : Nat} (small : s < count) {word : List Nat} {found : Tag} :
    result.Finds s word found ↔ before.Finds s word found ∨
      (found = tag ∧ ((enters s none ∧ L word) ∨
      ∃ label classId rest, enters s (some label) ∧ classId ∈ label ∧
        word = classId :: rest ∧ L rest)) := by
  have earlier : s < before.size := by
    have := e.starts.room
    omega
  have entry : ∀ word, result.Finds fragment.entry word found ↔ found = tag ∧ L word :=
    fun _ => e.finds_entry
  have untagged := e.starts_after.untagged s small
  constructor
  · rintro ⟨t, path, here⟩
    rcases Links.Path.head_iff.mp path with ⟨rfl, _⟩ | ⟨u, link, rest⟩ | ⟨label, u, classId, rest,
      link, member, rfl, later⟩
    · rw [untagged] at here
      cases here
    · rcases (e.links s none u).mp link with new | ⟨enters, rfl⟩
      · have old := (e.builds.old s earlier none u).mp new
        obtain ⟨behind, u_earlier⟩ := e.starts.inside s none u old
        obtain ⟨t, path, here⟩ := (e.finds_old behind u_earlier).mp ⟨t, rest, here⟩
        exact Or.inl ⟨t, .silent old path, here⟩
      · obtain ⟨same, reads⟩ := (entry _).mp ⟨t, rest, here⟩
        exact Or.inr ⟨same, Or.inl ⟨enters, reads⟩⟩
    · rcases (e.links s (some label) u).mp link with new | ⟨enters, rfl⟩
      · have old := (e.builds.old s earlier (some label) u).mp new
        obtain ⟨behind, u_earlier⟩ := e.starts.inside s (some label) u old
        obtain ⟨t, path, here⟩ := (e.finds_old behind u_earlier).mp ⟨t, later, here⟩
        exact Or.inl ⟨t, .read old member path, here⟩
      · obtain ⟨same, reads⟩ := (entry _).mp ⟨t, later, here⟩
        exact Or.inr ⟨same, Or.inr ⟨label, classId, rest, enters, member, rfl, reads⟩⟩
  · rintro (⟨t, path, here⟩ | ⟨same, ⟨enters, reads⟩ | ⟨label, classId, rest, enters,
      member, rfl, reads⟩⟩)
    · refine ⟨t, path.mono fun s label t old => ?_, ?_⟩
      · exact (e.links s label t).mpr
          (Or.inl ((e.builds.old s (Arena.lt_of_links old) label t).mpr old))
      · rw [e.old_tags t (Arena.lt_of_tagAt here)]
        exact here
    · obtain ⟨t, path, here⟩ := (entry _).mpr ⟨same, reads⟩
      exact ⟨t, .silent ((e.links _ _ _).mpr (Or.inr ⟨enters, rfl⟩)) path, here⟩
    · obtain ⟨t, path, here⟩ := (entry _).mpr ⟨same, reads⟩
      exact ⟨t, .read ((e.links _ _ _).mpr (Or.inr ⟨enters, rfl⟩)) member path, here⟩

end Enters

namespace Nfa

variable {partition : Partition} {charset : Charset} {spec : Spec}

/-- The labels on which a condition leads into a pattern. -/
def EntryLabel (partition : Partition) (lineStart : Bool) (label : Option IndexSet) : Prop :=
  (lineStart = false ∧ label = none) ∨
    ∃ classId, partition.lineStart = some classId ∧ label = some (IndexSet.ofList [classId])

theorem ofList_singleton_ne_empty (classId : Nat) : IndexSet.ofList [classId] ≠ ∅ := by
  intro nothing
  have member : classId ∈ IndexSet.ofList [classId] :=
    IndexSet.mem_ofList.mpr (List.mem_singleton_self classId)
  exact IndexSet.not_mem_empty classId (nothing ▸ member)

theorem size_addEntry (lineStart : Bool) (entry : Nat) (arena : Arena) (condition : Nat) :
    (addEntry partition lineStart entry arena condition).size = arena.size := by
  unfold addEntry
  cases lineStart <;> cases partition.lineStart <;> simp

theorem tagAt_addEntry (lineStart : Bool) (entry : Nat) (arena : Arena) (condition s : Nat) :
    (addEntry partition lineStart entry arena condition).tagAt s = arena.tagAt s := by
  unfold addEntry
  cases lineStart <;> cases partition.lineStart <;> simp

theorem links_addEntry {lineStart : Bool} {entry : Nat} {arena : Arena} {condition s t : Nat}
    {label : Option IndexSet}
    (inside : condition < arena.size) :
    (addEntry partition lineStart entry arena condition).links s label t ↔
      arena.links s label t ∨ (s = condition ∧ EntryLabel partition lineStart label ∧
        t = entry) := by
  unfold addEntry EntryLabel
  cases lineStart <;> cases partition.lineStart <;> simp [inside, ofList_singleton_ne_empty]
  tauto

section Entries

variable {lineStart : Bool} {entry : Nat} {arena : Arena} {conditions : List Nat}

theorem size_addEntries :
    (conditions.foldl (addEntry partition lineStart entry) arena).size = arena.size := by
  induction conditions generalizing arena with
  | nil => rfl
  | cons first rest ih => rw [List.foldl_cons, ih, size_addEntry]

theorem tagAt_addEntries {s : Nat} :
    (conditions.foldl (addEntry partition lineStart entry) arena).tagAt s = arena.tagAt s := by
  induction conditions generalizing arena with
  | nil => rfl
  | cons first rest ih => rw [List.foldl_cons, ih, tagAt_addEntry]

theorem links_addEntries {s t : Nat} {label : Option IndexSet}
    (inside : ∀ c ∈ conditions, c < arena.size) :
    (conditions.foldl (addEntry partition lineStart entry) arena).links s label t ↔
      arena.links s label t ∨ ((s ∈ conditions ∧ EntryLabel partition lineStart label) ∧
        t = entry) := by
  induction conditions generalizing arena with
  | nil => simp
  | cons first rest ih =>
    have rest_inside : ∀ c ∈ rest, c < (addEntry partition lineStart entry arena first).size := by
      intro c member
      rw [size_addEntry]
      exact inside c (List.mem_cons_of_mem _ member)
    rw [List.foldl_cons, ih rest_inside, links_addEntry (inside first List.mem_cons_self),
      List.mem_cons]
    tauto

end Entries

theorem lt_of_mem_activeConditions {conditions : RuleConditions} {c : Nat}
    (active : c ∈ spec.activeConditions conditions) : c < spec.conditions.length := by
  unfold Spec.activeConditions at active
  cases conditions with
  | inclusive =>
    obtain ⟨⟨condition, id⟩, member, rfl⟩ := List.mem_map.mp active
    have found := List.mem_zipIdx_iff_getElem?.mp (List.mem_filter.mp member).1
    exact (List.getElem?_eq_some_iff.mp found).1
  | all => exact List.mem_range.mp active
  | named names =>
    obtain ⟨name, _, found⟩ := List.mem_filterMap.mp (mem_distinct.mp active)
    exact (List.findIdx?_eq_some_iff_getElem.mp found).1

theorem begins_iff {pattern : Pattern} {word : List Nat} :
    pattern.Begins partition charset word ↔
      (EntryLabel partition pattern.lineStart none ∧ pattern.Spells partition charset word) ∨
      ∃ label classId rest, EntryLabel partition pattern.lineStart (some label) ∧
        classId ∈ label ∧ word = classId :: rest ∧ pattern.Spells partition charset rest := by
  unfold EntryLabel Pattern.Begins
  constructor
  · intro begins
    obtain ⟨free, spells⟩ | ⟨classId, rest, used, rfl, spells⟩ := begins
    · exact Or.inl ⟨Or.inl ⟨free, rfl⟩, spells⟩
    · exact Or.inr ⟨_, classId, rest, Or.inr ⟨classId, used, rfl⟩, by simp, rfl, spells⟩
  · intro enters
    obtain ⟨⟨free, _⟩ | ⟨_, _, labelled⟩, spells⟩ |
      ⟨label, classId, rest, ⟨_, silent⟩ | ⟨start, used, same⟩, member, rfl, spells⟩ := enters
    · exact Or.inl ⟨free, spells⟩
    · cases labelled
    · cases silent
    · cases same
      rw [IndexSet.mem_ofList, List.mem_singleton] at member
      exact Or.inr ⟨classId, rest, member ▸ used, rfl, spells⟩

section AddRule

variable {arena : Arena} {log : Diagnostics} {rule : Rule} {id : Nat} {pattern : Pattern}

/-- A rule with a pattern adds the fragment of the pattern, with links from the conditions in which
the rule is active. -/
theorem addRule_enters (matching : rule.pattern = .matching pattern)
    (starts : Starts spec.conditions.length arena) :
    Enters spec.conditions.length arena (pattern.fragment partition charset arena).1
      (addRule spec partition charset (arena, log) rule id).1
      ⟨(pattern.fragment partition charset arena).2.entry,
        (pattern.fragment partition charset arena).2.exit⟩
      (pattern.Spells partition charset) (pattern.tag id)
      (fun s label => s ∈ spec.activeConditions rule.conditions ∧
        EntryLabel partition pattern.lineStart label) := by
  have builds := pattern.fragment_builds partition charset arena
  have exit_lt := builds.exit.2
  have room := starts.room
  have grown := builds.size_lt
  unfold addRule
  rw [matching]
  dsimp only
  refine ⟨starts, builds, ?_, ?_, ?_, ?_⟩
  · rw [size_addEntries, Arena.size_accept]
  · intro s
    rw [tagAt_addEntries, Arena.tagAt_accept exit_lt]
  · intro s label t
    rw [links_addEntries, Arena.links_accept]
    intro c active
    have := lt_of_mem_activeConditions active
    rw [Arena.size_accept]
    omega
  · exact fun s label enters => lt_of_mem_activeConditions enters.1

theorem addRule_endOfInput (ends : rule.pattern = .endOfInput) :
    (addRule spec partition charset (arena, log) rule id).1 = arena := by
  unfold addRule
  rw [ends]

theorem addRule_finds (matching : rule.pattern = .matching pattern)
    (starts : Starts spec.conditions.length arena) {c : Nat} (small : c < spec.conditions.length)
    {word : List Nat} {found : Tag} :
    (addRule spec partition charset (arena, log) rule id).1.Finds c word found ↔
      arena.Finds c word found ∨ (c ∈ spec.activeConditions rule.conditions ∧
        found = pattern.tag id ∧ pattern.Begins partition charset word) := by
  rw [(addRule_enters matching starts).finds_enter small, begins_iff]
  simp only [and_assoc, exists_and_left, ← and_or_left]
  tauto

end AddRule

/-- The start of each condition finds just the tags of those rules that have been added. -/
structure Gathers (spec : Spec) (partition : Partition) (charset : Charset)
    (added : List (Rule × Nat)) (arena : Arena) :
    Prop where
  starts : Starts spec.conditions.length arena
  finds : ∀ c < spec.conditions.length, ∀ word found, arena.Finds c word found ↔
    ∃ rule id pattern, (rule, id) ∈ added ∧ rule.pattern = .matching pattern ∧
      c ∈ spec.activeConditions rule.conditions ∧ found = pattern.tag id ∧
        pattern.Begins partition charset word

theorem Gathers.addRule {added : List (Rule × Nat)} {built : Arena × Diagnostics}
    (gathers : Gathers spec partition charset added built.1) (rule : Rule) (id : Nat) :
    Gathers spec partition charset (added ++ [(rule, id)])
      (addRule spec partition charset built rule id).1 := by
  obtain ⟨arena, log⟩ := built
  cases kind : rule.pattern with
  | endOfInput =>
    rw [addRule_endOfInput kind]
    refine ⟨gathers.starts, fun c small word found => ?_⟩
    rw [gathers.finds c small]
    constructor
    · rintro ⟨rule', id', pattern, member, rest⟩
      exact ⟨rule', id', pattern, List.mem_append_left _ member, rest⟩
    · rintro ⟨rule', id', pattern, member, matching, rest⟩
      rcases List.mem_append.mp member with old | last
      · exact ⟨rule', id', pattern, old, matching, rest⟩
      · cases List.mem_singleton.mp last
        rw [kind] at matching
        cases matching
  | matching pattern =>
    refine ⟨(addRule_enters kind gathers.starts).starts_after, fun c small word found => ?_⟩
    rw [addRule_finds kind gathers.starts small, gathers.finds c small]
    constructor
    · rintro (⟨rule', id', pattern', member, rest⟩ | found)
      · exact ⟨rule', id', pattern', List.mem_append_left _ member, rest⟩
      · exact ⟨rule, id, pattern, by simp, kind, found⟩
    · rintro ⟨rule', id', pattern', member, matching, found⟩
      rcases List.mem_append.mp member with old | last
      · exact Or.inl ⟨rule', id', pattern', old, matching, found⟩
      · cases List.mem_singleton.mp last
        rw [kind] at matching
        cases matching
        exact Or.inr found

theorem links_blank {count s t : Nat} {label : Option IndexSet} :
    ¬Arena.links (Array.replicate count State.blank) s label t := by
  intro link
  obtain ⟨state, found, leads⟩ := link
  rw [Array.getElem?_replicate] at found
  split at found
  · cases found
    cases label <;> cases leads
  · cases found

theorem tagAt_blank (count s : Nat) : Arena.tagAt (Array.replicate count State.blank) s = none := by
  unfold Arena.tagAt
  rw [Array.getElem?_replicate]
  split <;> rfl

theorem starts_blank (count : Nat) : Starts count (Array.replicate count State.blank) where
  room := by simp
  inside := fun _ _ _ link => absurd link links_blank
  untagged := fun s _ => tagAt_blank count s

/-- Starts without any rule find nothing. -/
theorem gathers_none : Gathers spec partition charset []
    (Array.replicate spec.conditions.length State.blank) := by
  refine ⟨starts_blank _, fun c _ word found => ?_⟩
  constructor
  · rintro ⟨t, _, here⟩
    rw [tagAt_blank] at here
    cases here
  · rintro ⟨_, _, _, member, _⟩
    cases member

/-- What each rule keeps is kept by all rules from one on. -/
theorem addRules_induction {motive : Nat → Arena × Diagnostics → Prop}
    (step : ∀ id rule built, spec.rules[id]? = some rule → motive id built →
      motive (id + 1) (Nfa.addRule spec partition charset built rule id))
    {rules : List Rule} {id : Nat} {built : Arena × Diagnostics}
    (later : spec.rules.drop id = rules) (start : motive id built) :
    motive (id + rules.length) ((rules.zipIdx id).foldl (fun built (rule, id) =>
      Nfa.addRule spec partition charset built rule id) built) := by
  induction rules generalizing id built with
  | nil => exact start
  | cons first rest ih =>
    have found : spec.rules[id]? = some first := by
      rw [← Nat.add_zero id, ← List.getElem?_drop, later, List.getElem?_cons_zero]
    have next : spec.rules.drop (id + 1) = rest := by
      rw [← List.drop_drop, later, List.drop_one, List.tail_cons]
    rw [List.zipIdx_cons, List.foldl_cons, List.length_cons, Nat.add_comm rest.length,
      ← Nat.add_assoc]
    exact ih next (step id first built found start)

/-- What holds without any rule and is kept by each of them holds of the automaton of a
specification. -/
theorem ofSpec_induction {motive : Nat → Arena × Diagnostics → Prop}
    (blank : motive 0 (Array.replicate spec.conditions.length State.blank, []))
    (step : ∀ id rule built, spec.rules[id]? = some rule → motive id built →
      motive (id + 1) (Nfa.addRule spec partition charset built rule id)) :
    motive spec.rules.length
      ((ofSpec spec partition charset).1.states, (ofSpec spec partition charset).2) := by
  have all := addRules_induction step List.drop_zero blank
  rwa [Nat.zero_add] at all

theorem take_zipIdx_succ {rules : List Rule} {id : Nat} {rule : Rule}
    (found : rules[id]? = some rule) :
    rules.zipIdx.take (id + 1) = rules.zipIdx.take id ++ [(rule, id)] := by
  rw [List.take_add_one, List.getElem?_zipIdx, found]
  simp

theorem ofSpec_gathers (spec : Spec) (partition : Partition) (charset : Charset) :
    Gathers spec partition charset spec.rules.zipIdx (ofSpec spec partition charset).1.states := by
  have gathers : Gathers spec partition charset (spec.rules.zipIdx.take spec.rules.length)
      (ofSpec spec partition charset).1.states := by
    apply ofSpec_induction (motive := fun id built =>
      Gathers spec partition charset (spec.rules.zipIdx.take id) built.1) gathers_none
    intro id rule built found gathers
    rw [take_zipIdx_succ found]
    exact gathers.addRule rule id
  rwa [List.take_of_length_le (by simp)] at gathers

/-- What the automaton of a specification finds from the start of a condition. -/
theorem ofSpec_finds {c : Nat} (declared : c < spec.conditions.length)
    {word : List Nat} {found : Tag} :
    Arena.Finds (ofSpec spec partition charset).1.states c word found ↔
      ∃ id, ∃ rule : Rule, ∃ pattern : Pattern, spec.rules[id]? = some rule ∧
        rule.pattern = .matching pattern ∧
        c ∈ spec.activeConditions rule.conditions ∧ found = pattern.tag id ∧
          pattern.Begins partition charset word := by
  rw [(ofSpec_gathers spec partition charset).finds c declared]
  constructor
  · rintro ⟨rule, id, pattern, member, rest⟩
    exact ⟨id, rule, pattern, List.mem_zipIdx_iff_getElem?.mp member, rest⟩
  · rintro ⟨id, rule, pattern, member, rest⟩
    exact ⟨rule, id, pattern, List.mem_zipIdx_iff_getElem?.mpr member, rest⟩

end Nfa

end Scangen
