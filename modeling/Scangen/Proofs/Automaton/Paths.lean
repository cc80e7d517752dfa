import Mathlib.Logic.Relation
import Mathlib.Tactic.Tauto
import Scangen.Automaton.Path

/-!
Paths along links, and how the links of an arena change when states and edges are added to it. A
path that starts in a region and leaves it has to pass the exit of the region.
-/

namespace Scangen

namespace Links.Path

variable {g f : Links} {s t u : Nat} {word : List Nat}

/-- The first link of a path. -/
theorem head_iff : Path g s word u ↔ (s = u ∧ word = []) ∨ (∃ t, g s none t ∧ Path g t word u) ∨
    ∃ label t classId rest, g s (some label) t ∧ classId ∈ label ∧ word = classId :: rest ∧
      Path g t rest u := by
  constructor
  · intro path
    cases path with
    | stay => exact Or.inl ⟨rfl, rfl⟩
    | silent link rest => exact Or.inr (Or.inl ⟨_, link, rest⟩)
    | read link member rest => exact Or.inr (Or.inr ⟨_, _, _, _, link, member, rfl, rest⟩)
  · rintro (⟨rfl, rfl⟩ | ⟨t, link, rest⟩ | ⟨label, t, classId, rest, link, member, rfl, path⟩)
    · exact .stay s
    · exact .silent link rest
    · exact .read link member path

theorem append {first second : List Nat} (before : Path g s first t) (after : Path g t second u) :
    Path g s (first ++ second) u := by
  induction before with
  | stay => exact after
  | silent link _ ih => exact .silent link (ih after)
  | read link member _ ih => exact .read link member (ih after)

theorem mono (more : ∀ s label t, f s label t → g s label t) (path : Path f s word u) :
    Path g s word u := by
  induction path with
  | stay s => exact .stay s
  | silent link _ ih => exact .silent (more _ _ _ link) ih
  | read link member _ ih => exact .read (more _ _ _ link) member ih

/-- Links out of a region that lead on within it: a path either stays inside or passes the exit. -/
theorem leave {R : Nat → Prop} {exit : Nat}
    (inside : ∀ s label t, R s → s ≠ exit → g s label t → f s label t ∧ R t)
    (path : Path g s word u) (start : R s) :
    (R u ∧ Path f s word u) ∨
      ∃ first second, word = first ++ second ∧ Path f s first exit ∧ Path g exit second u := by
  induction path with
  | stay s => exact Or.inl ⟨start, .stay s⟩
  | @silent s t u word link rest ih =>
    by_cases last : s = exit
    · exact Or.inr ⟨[], word, rfl, last ▸ .stay s, last ▸ .silent link rest⟩
    · obtain ⟨old, inside_t⟩ := inside s none t start last link
      rcases ih inside_t with ⟨inside_u, path⟩ | ⟨first, second, rfl, path, after⟩
      · exact Or.inl ⟨inside_u, .silent old path⟩
      · exact Or.inr ⟨first, second, rfl, .silent old path, after⟩
  | @read s t u classId label word link member rest ih =>
    by_cases last : s = exit
    · exact Or.inr ⟨[], classId :: word, rfl, last ▸ .stay s, last ▸ .read link member rest⟩
    · obtain ⟨old, inside_t⟩ := inside s (some label) t start last link
      rcases ih inside_t with ⟨inside_u, path⟩ | ⟨first, second, rfl, path, after⟩
      · exact Or.inl ⟨inside_u, .read old member path⟩
      · exact Or.inr ⟨classId :: first, second, rfl, .read old member path, after⟩

/-- No link leads out of the R. -/
theorem confined {R : Nat → Prop} (inside : ∀ s label t, R s → g s label t → f s label t ∧ R t)
    (path : Path g s word u) (start : R s) : R u ∧ Path f s word u := by
  induction path with
  | stay s => exact ⟨start, .stay s⟩
  | silent link _ ih =>
    obtain ⟨old, inside_t⟩ := inside _ _ _ start link
    exact ⟨(ih inside_t).1, .silent old (ih inside_t).2⟩
  | read link member _ ih =>
    obtain ⟨old, inside_t⟩ := inside _ _ _ start link
    exact ⟨(ih inside_t).1, .read old member (ih inside_t).2⟩

/-- A state without links is the end of every path through it. -/
theorem of_no_links (stuck : ∀ label t, ¬g s label t) : Path g s word u ↔ s = u ∧ word = [] := by
  rw [head_iff]
  simp [stuck]

/-- The one link of a state is the last link of a path if nothing leads on behind it. -/
theorem last_link {label : Option IndexSet} {linked : Prop}
    (links : ∀ l t, g s l t ↔ linked ∧ l = label ∧ t = u) (apart : s ≠ u)
    (stuck : ∀ l t, ¬g u l t) : Path g s word u ↔ linked ∧
      ((label = none ∧ word = []) ∨
        ∃ l classId, label = some l ∧ classId ∈ l ∧ word = [classId]) := by
  rw [head_iff]
  constructor
  · intro path
    rcases path with ⟨here, _⟩ | ⟨t, link, rest⟩ | ⟨l, t, classId, rest, link, member, rfl, later⟩
    · exact absurd here apart
    · obtain ⟨linked, silent, rfl⟩ := (links none t).mp link
      exact ⟨linked, Or.inl ⟨silent.symm, ((of_no_links stuck).mp rest).2⟩⟩
    · obtain ⟨linked, same, rfl⟩ := (links (some l) t).mp link
      obtain ⟨_, rfl⟩ := (of_no_links stuck).mp later
      exact ⟨linked, Or.inr ⟨l, classId, same.symm, member, rfl⟩⟩
  · intro reads
    obtain ⟨linked, ⟨rfl, rfl⟩ | ⟨l, classId, rfl, member, rfl⟩⟩ := reads
    · exact Or.inr (Or.inl ⟨u, (links none u).mpr ⟨linked, rfl, rfl⟩, .stay u⟩)
    · exact Or.inr (Or.inr ⟨l, u, classId, [], (links (some l) u).mpr ⟨linked, rfl, rfl⟩, member,
        rfl, .stay u⟩)

/-- Paths without a word follow silent links only. -/
theorem nil_iff : Path g s [] u ↔ Relation.ReflTransGen (fun a b => g a none b) s u := by
  constructor
  · intro path
    generalize same : ([] : List Nat) = word at path
    induction path with
    | stay s => exact .refl
    | silent link _ ih => exact .head link (ih same)
    | read => cases same
  · intro path
    induction path using Relation.ReflTransGen.head_induction_on with
    | refl => exact .stay u
    | head link _ ih => exact .silent link ih

theorem append_iff {first second : List Nat} :
    Path g s (first ++ second) u ↔ ∃ t, Path g s first t ∧ Path g t second u := by
  constructor
  · intro path
    generalize same : first ++ second = word at path
    induction path generalizing first with
    | stay s =>
      obtain ⟨rfl, rfl⟩ := List.append_eq_nil_iff.mp same
      exact ⟨s, .stay s, .stay s⟩
    | silent link _ ih =>
      obtain ⟨t, before, after⟩ := ih same
      exact ⟨t, .silent link before, after⟩
    | @read s t u classId label word link member rest ih =>
      cases first with
      | nil =>
        rw [List.nil_append] at same
        exact ⟨s, .stay s, same ▸ .read link member rest⟩
      | cons classId' first =>
        obtain ⟨rfl, later⟩ := List.cons.inj same
        obtain ⟨t, before, after⟩ := ih later
        exact ⟨t, .read link member before, after⟩
  · rintro ⟨t, before, after⟩
    exact before.append after

/-- One class is read, with silent links before and behind. -/
theorem singleton_iff {classId : Nat} :
    Path g s [classId] u ↔
      ∃ t label t', Path g s [] t ∧ g t (some label) t' ∧ classId ∈ label ∧ Path g t' [] u := by
  constructor
  · intro path
    generalize same : [classId] = word at path
    induction path with
    | stay => cases same
    | silent link _ ih =>
      obtain ⟨t, label, t', before, rest⟩ := ih same
      exact ⟨t, label, t', .silent link before, rest⟩
    | read link member rest =>
      obtain ⟨rfl, rfl⟩ := List.cons.inj same
      exact ⟨_, _, _, .stay _, link, member, rest⟩
  · rintro ⟨t, label, t', before, link, member, after⟩
    exact before.append (.read link member after)

end Links.Path

namespace Arena

variable {arena : Arena} {s t a b : Nat} {label : Option IndexSet}

theorem lt_of_links (link : arena.links s label t) : s < arena.size := by
  obtain ⟨state, found, _⟩ := link
  exact (Array.getElem?_eq_some_iff.mp found).1

theorem lt_of_tagAt {tag : Tag} (found : arena.tagAt s = some tag) : s < arena.size := by
  rw [tagAt, Option.bind_eq_some_iff] at found
  obtain ⟨state, found, _⟩ := found
  exact (Array.getElem?_eq_some_iff.mp found).1

@[simp] theorem size_newState (arena : Arena) : arena.newState.size = arena.size + 1 :=
  Array.size_push ..

@[simp] theorem size_epsilon (arena : Arena) (a b : Nat) : (arena.epsilon a b).size = arena.size :=
  Array.size_modify

@[simp] theorem size_edge (arena : Arena) (a : Nat) (l : IndexSet) (b : Nat) :
    (arena.edge a l b).size = arena.size := by
  unfold edge
  split
  · rfl
  · exact Array.size_modify

@[simp] theorem size_accept (arena : Arena) (a : Nat) (tag : Tag) :
    (arena.accept a tag).size = arena.size :=
  Array.size_modify

@[simp] theorem links_newState : arena.newState.links s label t ↔ arena.links s label t := by
  unfold links newState
  rw [Array.getElem?_push]
  by_cases last : s = arena.size
  · subst last
    cases label <;> simp [Nfa.State.LeadsTo, Nfa.State.blank]
  · simp [last]

@[simp] theorem tagAt_newState : arena.newState.tagAt s = arena.tagAt s := by
  unfold tagAt newState
  rw [Array.getElem?_push]
  by_cases last : s = arena.size
  · subst last
    simp [Nfa.State.blank]
  · simp [last]

@[simp] theorem links_epsilon : (arena.epsilon a b).links s label t ↔
    arena.links s label t ∨ (a < arena.size ∧ s = a ∧ label = none ∧ t = b) := by
  unfold links epsilon
  rw [Array.getElem?_modify]
  by_cases here : a = s
  · subst here
    by_cases inside : a < arena.size
    · cases label <;> simp [Nfa.State.LeadsTo, inside, or_comm]
    · simp [inside]
  · have apart : ¬s = a := fun same => here same.symm
    simp [here, apart]

@[simp] theorem tagAt_epsilon : (arena.epsilon a b).tagAt s = arena.tagAt s := by
  unfold tagAt epsilon
  rw [Array.getElem?_modify]
  by_cases here : a = s
  · cases found : arena[s]? <;> simp [here]
  · simp [here]

@[simp] theorem links_edge {l : IndexSet} : (arena.edge a l b).links s label t ↔
    arena.links s label t ∨ (l ≠ ∅ ∧ a < arena.size ∧ s = a ∧ label = some l ∧ t = b) := by
  unfold edge
  split
  next nothing =>
    rw [IndexSet.isEmpty_iff.mp nothing]
    simp
  next something =>
    have nonempty : l ≠ ∅ := fun same => something (IndexSet.isEmpty_iff.mpr same)
    unfold links
    rw [Array.getElem?_modify]
    by_cases here : a = s
    · subst here
      by_cases inside : a < arena.size
      · cases label <;> simp [Nfa.State.LeadsTo, inside, nonempty, or_comm]
      · simp [inside]
    · have apart : ¬s = a := fun same => here same.symm
      simp [here, apart]

@[simp] theorem tagAt_edge {l : IndexSet} : (arena.edge a l b).tagAt s = arena.tagAt s := by
  unfold edge
  split
  next => rfl
  next =>
    unfold tagAt
    rw [Array.getElem?_modify]
    by_cases here : a = s
    · cases found : arena[s]? <;> simp [here]
    · simp [here]

@[simp] theorem links_accept {tag : Tag} :
    (arena.accept a tag).links s label t ↔ arena.links s label t := by
  unfold links accept
  rw [Array.getElem?_modify]
  by_cases here : a = s
  · cases found : arena[s]? with
    | none => simp [here]
    | some state => cases label <;> simp [here, Nfa.State.LeadsTo]
  · simp [here]

theorem tagAt_accept {tag : Tag} (inside : a < arena.size) :
    (arena.accept a tag).tagAt s = if s = a then some tag else arena.tagAt s := by
  unfold tagAt accept
  rw [Array.getElem?_modify]
  by_cases here : a = s
  · subst here
    simp [Array.getElem?_eq_getElem inside]
  · have apart : ¬s = a := fun same => here same.symm
    simp [here, apart]

end Arena

end Scangen
