import Mathlib.Data.List.Forall2
import Mathlib.Tactic.Tauto
import Scangen.Scan.Meaning

/-!
The longest match on anything that reads classes. It is the best of the tags found behind the first
symbols of an input, so that it depends on the tags behind words of classes only.
-/

namespace Scangen

namespace Tag

theorem before_irrefl (a : Tag) : ¬a.Before a := by
  unfold Before
  omega

theorem before_trans {a b c : Tag} (first : a.Before b) (second : b.Before c) : a.Before c := by
  unfold Before at *
  omega

theorem rank_inj {a b : Trailing} (same : a.rank = b.rank) : a = b := by
  cases a <;> cases b <;> simp_all [Trailing.rank]

/-- Of two different tags one is before the other. -/
theorem eq_of_not_before {a b : Tag} (first : ¬a.Before b) (second : ¬b.Before a) : a = b := by
  unfold Before at *
  have rule : a.rule = b.rule := by omega
  have priority : a.priority = b.priority := by omega
  have trailing : a.trailing = b.trailing := rank_inj (Prod.ext (by omega) (by omega))
  obtain ⟨_, _, _⟩ := a
  obtain ⟨_, _, _⟩ := b
  simp_all

end Tag

namespace Candidate

theorem beats_irrefl (a : Candidate) : ¬a.Beats a := by
  rintro (more | ⟨_, before⟩)
  · exact Nat.lt_irrefl _ more
  · exact Tag.before_irrefl _ before

theorem beats_trans {a b c : Candidate} (first : a.Beats b) (second : b.Beats c) : a.Beats c := by
  rcases first with more | ⟨same, before⟩
  · rcases second with more' | ⟨same', _⟩
    · exact Or.inl (by omega)
    · exact Or.inl (by omega)
  · rcases second with more' | ⟨same', before'⟩
    · exact Or.inl (by omega)
    · exact Or.inr ⟨by omega, Tag.before_trans before before'⟩

theorem eq_of_not_beats {a b : Candidate} (first : ¬a.Beats b) (second : ¬b.Beats a) : a = b := by
  unfold Beats at *
  have matched : a.matched = b.matched := by omega
  have tag : a.tag = b.tag := by
    apply Tag.eq_of_not_before
    · exact fun before => first (Or.inr ⟨matched, before⟩)
    · exact fun before => second (Or.inr ⟨matched.symm, before⟩)
  obtain ⟨_, _⟩ := a
  obtain ⟨_, _⟩ := b
  simp_all

end Candidate

namespace Chosen

variable {α : Type} {beats : α → α → Prop} {S S' : α → Prop} {best best' : Option α}

theorem congr (chosen : Chosen beats S best) (same : ∀ a, S a ↔ S' a) : Chosen beats S' best := by
  have equal : S = S' := by
    funext a
    exact propext (same a)
  rwa [← equal]

/-- The best of more candidates is the best of those that were there before if it is one of them. -/
theorem restrict (chosen : Chosen beats S' best) (more : ∀ a, S a → S' a)
    (kept : ∀ a ∈ best, S a) : Chosen beats S best := by
  cases best with
  | none => exact fun a candidate => chosen a (more a candidate)
  | some b => exact ⟨kept b rfl, fun a candidate => chosen.2 a (more a candidate)⟩

/-- There is only one best of all if two that do not beat each other are the same. -/
theorem unique (total : ∀ {a b}, ¬beats a b → ¬beats b a → a = b) (chosen : Chosen beats S best)
    (chosen' : Chosen beats S best') : best = best' := by
  cases best with
  | none =>
    cases best' with
    | none => rfl
    | some b => exact absurd chosen'.1 (chosen b)
  | some a =>
    cases best' with
    | none => exact absurd chosen.1 (chosen' a)
    | some b => rw [total (chosen'.2 a chosen.1) (chosen.2 b chosen'.1)]

end Chosen

/-- A new candidate takes part in the choice if its token is not empty. -/
theorem Candidate.improve_chosen {S : Candidate → Prop} {best : Option Candidate}
    (chosen : Chosen Candidate.Beats S best)
    (new : Candidate) :
    Chosen Candidate.Beats (fun c => S c ∨ (c = new ∧ c.length ≠ 0)) (improve best new) := by
  unfold improve
  split
  next empty =>
    apply chosen.congr
    intro c
    constructor
    · exact Or.inl
    · rintro (old | ⟨rfl, nonempty⟩)
      · exact old
      · exact absurd empty nonempty
  next nonempty =>
    cases best with
    | none =>
      refine ⟨Or.inr ⟨rfl, nonempty⟩, ?_⟩
      rintro c (old | ⟨rfl, _⟩)
      · exact absurd old (chosen c)
      · exact beats_irrefl c
    | some old =>
      dsimp only
      by_cases better : new.Beats old
      · rw [if_pos better]
        refine ⟨Or.inr ⟨rfl, nonempty⟩, ?_⟩
        rintro c (known | ⟨rfl, _⟩)
        · exact fun beats => chosen.2 c known (beats_trans beats better)
        · exact beats_irrefl c
      · rw [if_neg better]
        refine ⟨Or.inl chosen.1, ?_⟩
        rintro c (known | ⟨rfl, _⟩)
        · exact chosen.2 c known
        · exact better

namespace Recognizer

variable {σ : Type} (r : Recognizer σ)

theorem follow_append (state : σ) (first second : List Nat) :
    r.follow state (first ++ second) = (r.follow state first).bind fun next =>
      r.follow next second := by
  induction first generalizing state with
  | nil => rfl
  | cons classId rest ih =>
    rw [List.cons_append, follow, follow, Option.bind_assoc]
    apply Option.bind_congr
    intro next _
    exact ih next

theorem mem_tagsAt {state : σ} {atLineEnd : Bool} {tag : Tag} : tag ∈ r.tagsAt state atLineEnd ↔
    ∃ ending, (ending = [] ∨ atLineEnd = true ∧ ∃ classId, r.lineEnd = some classId ∧
      ending = [classId]) ∧
      (r.follow state ending).bind r.accept = some tag := by
  unfold tagsAt
  rw [List.mem_append, Option.mem_toList]
  constructor
  · rintro (own | behind)
    · exact ⟨[], Or.inl rfl, own⟩
    · cases atLineEnd with
      | false => cases behind
      | true =>
        rw [if_pos rfl, Option.mem_toList] at behind
        obtain ⟨last, stepped, accepted⟩ := Option.bind_eq_some_iff.mp behind
        obtain ⟨classId, used, stepped⟩ := Option.bind_eq_some_iff.mp stepped
        exact ⟨[classId], Or.inr ⟨rfl, classId, used, rfl⟩, by simp [follow, stepped, accepted]⟩
  · rintro ⟨ending, rfl | ⟨rfl, classId, used, rfl⟩, accepted⟩
    · exact Or.inl accepted
    · apply Or.inr
      rw [if_pos rfl, Option.mem_toList, used, Option.bind_some]
      simpa [follow] using accepted

/-- The candidates that are met from a state after some symbols. -/
def MetFrom (state : σ) (cursor : Nat) (input : List Nat) (met : Candidate) : Prop :=
  ∃ read rest ending, input = read ++ rest ∧ met.matched = cursor + read.length ∧ r.Knows read ∧
    r.Closes rest ending ∧ (r.follow state (read.map r.classNumber ++ ending)).bind r.accept =
      some met.tag

/-- The candidates that can be found from a state after some symbols. -/
def FoundFrom (state : σ) (cursor : Nat) (input : List Nat) (found : Candidate) : Prop :=
  ∃ read rest ending, input = read ++ rest ∧ found.matched = cursor + read.length ∧ r.Knows read ∧
    r.Closes rest ending ∧ (r.follow state (read.map r.classNumber ++ ending)).bind r.accept =
      some found.tag ∧
    found.length ≠ 0

theorem foundFrom_iff {state : σ} {cursor : Nat} {input : List Nat} {found : Candidate} :
    r.FoundFrom state cursor input found ↔
      r.MetFrom state cursor input found ∧ found.length ≠ 0 := by
  simp only [FoundFrom, MetFrom, ← and_assoc, exists_and_right]

theorem consider_chosen {S : Candidate → Prop} {best : Option Candidate}
    (chosen : Chosen Candidate.Beats S best)
    (state : σ) (cursor : Nat) (atLineEnd : Bool) :
    Chosen Candidate.Beats
      (fun c => S c ∨ (c.matched = cursor ∧ c.tag ∈ r.tagsAt state atLineEnd ∧ c.length ≠ 0))
      (r.consider state cursor atLineEnd best) := by
  unfold consider
  induction r.tagsAt state atLineEnd generalizing S best with
  | nil =>
    apply chosen.congr
    simp
  | cons first rest ih =>
    apply (ih (Candidate.improve_chosen chosen ⟨cursor, first⟩)).congr
    intro c
    have split : c = ⟨cursor, first⟩ ↔ c.matched = cursor ∧ c.tag = first := by
      obtain ⟨_, _⟩ := c
      simp
    rw [List.mem_cons, split]
    tauto

/-- What is met from a state is met there or behind the first symbol. -/
theorem metFrom_cons {state : σ} {cursor c : Nat} {rest : List Nat} {met : Candidate} :
    r.MetFrom state cursor (c :: rest) met ↔
      (met.matched = cursor ∧ met.tag ∈ r.tagsAt state (decide (c = lineFeed))) ∨
        ∃ next, (r.classOf c).bind (r.step state) = some next ∧
          r.MetFrom next (cursor + 1) rest met := by
  have ends : EndsLine (c :: rest) ↔ decide (c = lineFeed) = true := by simp [EndsLine]
  constructor
  · rintro ⟨read, after, ending, split, matched, known, closes, accepted⟩
    cases read with
    | nil =>
      rw [List.nil_append] at split
      subst split
      exact Or.inl ⟨matched, r.mem_tagsAt.mpr ⟨ending, by rw [← ends]; exact closes, accepted⟩⟩
    | cons c' read =>
      cases split
      obtain ⟨classId, found_class⟩ := known c List.mem_cons_self
      have number : r.classNumber c = classId := by rw [classNumber, found_class, Option.getD_some]
      rw [List.map_cons, List.cons_append, number, follow, Option.bind_assoc] at accepted
      obtain ⟨next, stepped, accepted⟩ := Option.bind_eq_some_iff.mp accepted
      refine Or.inr ⟨next, by rw [found_class, Option.bind_some, stepped], read, after, ending, rfl,
        ?_, ?_, closes, accepted⟩
      · rw [matched, List.length_cons]
        omega
      · exact fun c member => known c (List.mem_cons_of_mem _ member)
  · rintro (⟨matched, accepted⟩ | ⟨next, stepped, read, after, ending, rfl, matched,
      known, closes, accepted⟩)
    · obtain ⟨ending, closes, accepted⟩ := r.mem_tagsAt.mp accepted
      have closes' : r.Closes (c :: rest) ending := by
        rw [Closes, ends]
        exact closes
      exact ⟨[], c :: rest, ending, rfl, matched, by simp [Knows], closes', accepted⟩
    · obtain ⟨classId, found_class, stepped⟩ := Option.bind_eq_some_iff.mp stepped
      have number : r.classNumber c = classId := by rw [classNumber, found_class, Option.getD_some]
      refine ⟨c :: read, after, ending, rfl, ?_, ?_, closes, ?_⟩
      · rw [matched, List.length_cons]
        omega
      · intro x member
        rcases List.mem_cons.mp member with rfl | later
        · exact ⟨classId, found_class⟩
        · exact known x later
      · rw [List.map_cons, List.cons_append, number, follow, stepped, Option.bind_some]
        exact accepted

theorem metFrom_nil {state : σ} {cursor : Nat} {met : Candidate} :
    r.MetFrom state cursor [] met ↔ met.matched = cursor ∧ met.tag ∈ r.tagsAt state true := by
  rw [mem_tagsAt]
  constructor
  · rintro ⟨read, rest, ending, split, matched, _, closes, accepted⟩
    obtain ⟨rfl, rfl⟩ := List.append_eq_nil_iff.mp split.symm
    refine ⟨matched, ending, ?_, accepted⟩
    rcases closes with nothing | ⟨_, last⟩
    · exact Or.inl nothing
    · exact Or.inr ⟨rfl, last⟩
  · rintro ⟨matched, ending, closes, accepted⟩
    refine ⟨[], [], ending, rfl, matched, by simp [Knows], ?_, accepted⟩
    rcases closes with nothing | ⟨_, last⟩
    · exact Or.inl nothing
    · exact Or.inr ⟨Or.inl rfl, last⟩

/-- What is found from a state is found there or behind the first symbol. -/
theorem foundFrom_cons {state : σ} {cursor c : Nat} {rest : List Nat} {found : Candidate} :
    r.FoundFrom state cursor (c :: rest) found ↔
      (found.matched = cursor ∧ found.tag ∈ r.tagsAt state (decide (c = lineFeed)) ∧
        found.length ≠ 0) ∨
        ∃ next, (r.classOf c).bind (r.step state) = some next ∧
          r.FoundFrom next (cursor + 1) rest found := by
  simp only [foundFrom_iff, metFrom_cons, or_and_right, ← exists_and_right, and_assoc]

theorem foundFrom_nil {state : σ} {cursor : Nat} {found : Candidate} :
    r.FoundFrom state cursor [] found ↔
      found.matched = cursor ∧ found.tag ∈ r.tagsAt state true ∧ found.length ≠ 0 := by
  rw [foundFrom_iff, metFrom_nil, and_assoc]

theorem run_chosen {S : Candidate → Prop} {best : Option Candidate}
    (chosen : Chosen Candidate.Beats S best) (state : σ)
    (cursor : Nat) (input : List Nat) :
    Chosen Candidate.Beats (fun c => S c ∨ r.FoundFrom state cursor input c)
      (r.run state cursor best input) := by
  induction input generalizing S best state cursor with
  | nil =>
    apply (r.consider_chosen chosen state cursor true).congr
    intro c
    rw [foundFrom_nil]
  | cons c rest ih =>
    have here := r.consider_chosen chosen state cursor (decide (c = lineFeed))
    rw [run]
    cases stepped : (r.classOf c).bind (r.step state) with
    | none =>
      apply here.congr
      intro found
      rw [foundFrom_cons, stepped]
      simp
    | some next =>
      apply (ih here next (cursor + 1)).congr
      intro found
      rw [foundFrom_cons, stepped]
      simp [or_assoc]

theorem initial_eq (condition : Nat) (atLineStart : Bool) :
    r.initial condition atLineStart = (r.start condition).bind fun s =>
      r.follow s (r.opening atLineStart) := by
  unfold initial opening
  cases r.start condition with
  | none => rfl
  | some state =>
    cases atLineStart with
    | false => rfl
    | true =>
      cases r.lineStart with
      | none => rfl
      | some classId => simp [follow]

theorem meets_iff_metFrom {condition : Nat} {atLineStart : Bool} {input : List Nat}
    {met : Candidate} :
    r.Meets condition atLineStart input met ↔
      ∃ state, r.initial condition atLineStart = some state ∧ r.MetFrom state 0 input met := by
  have split : ∀ (read ending : List Nat) (tag : Tag),
      r.tagAfter condition (r.opening atLineStart ++ read.map r.classNumber ++ ending) = some tag ↔
        ∃ state, r.initial condition atLineStart = some state ∧
          (r.follow state (read.map r.classNumber ++ ending)).bind r.accept = some tag := by
    intro read ending tag
    rw [← Option.bind_eq_some_iff, initial_eq, tagAfter, List.append_assoc,
      Option.bind_assoc, Option.bind_assoc]
    simp only [follow_append, Option.bind_assoc]
  unfold Meets MetFrom
  simp only [split, Nat.zero_add]
  constructor
  · rintro ⟨read, rest, ending, same, matched, known, closes, state, first, accepted⟩
    exact ⟨state, first, read, rest, ending, same, matched, known, closes, accepted⟩
  · rintro ⟨state, first, read, rest, ending, same, matched, known, closes, accepted⟩
    exact ⟨read, rest, ending, same, matched, known, closes, state, first, accepted⟩

theorem finds_iff {condition : Nat} {atLineStart : Bool} {input : List Nat} {found : Candidate} :
    r.Finds condition atLineStart input found ↔
      ∃ state, r.initial condition atLineStart = some state ∧ r.FoundFrom state 0 input found := by
  simp only [Finds, meets_iff_metFrom, foundFrom_iff, ← exists_and_right, and_assoc]

/-- The longest match is the best of all that can be found. -/
theorem longestMatch_chosen (condition : Nat) (input : List Nat) (atLineStart : Bool) :
    ∃ best, Chosen Candidate.Beats (r.Finds condition atLineStart input) best ∧
      r.longestMatch condition input atLineStart = best.map Candidate.toMatch := by
  unfold longestMatch
  cases first : r.initial condition atLineStart with
  | none =>
    refine ⟨none, fun c found => ?_, rfl⟩
    obtain ⟨state, same, _⟩ := r.finds_iff.mp found
    rw [first] at same
    cases same
  | some state =>
    have nothing : Chosen Candidate.Beats (fun _ => False) none := fun _ => id
    refine ⟨_, (r.run_chosen nothing state 0 input).congr fun c => ?_, rfl⟩
    rw [false_or, finds_iff, first]
    simp

variable {r} {τ : Type} {r' : Recognizer τ}

/-- All classes that can be read are below a bound. -/
structure Bounded (r : Recognizer σ) (bound : Nat) : Prop where
  symbols : ∀ {c classId}, r.classOf c = some classId → classId < bound
  lineStart : ∀ {classId}, r.lineStart = some classId → classId < bound
  lineEnd : ∀ {classId}, r.lineEnd = some classId → classId < bound

/-- What is read in an input are classes below the bound. -/
theorem Bounded.word_small {bound : Nat} (bounded : r.Bounded bound) {atLineStart : Bool}
    {read rest ending : List Nat} (known : r.Knows read) (closes : r.Closes rest ending) :
    ∀ classId ∈ r.opening atLineStart ++ read.map r.classNumber ++ ending, classId < bound := by
  intro classId member
  simp only [List.mem_append, List.mem_map] at member
  rcases member with (first | ⟨c, inside, rfl⟩) | last
  · unfold Recognizer.opening at first
    split at first
    · exact bounded.lineStart (Option.mem_toList.mp first)
    · cases first
  · obtain ⟨classId, found_class⟩ := known c inside
    rw [classNumber, found_class]
    exact bounded.symbols found_class
  · rcases closes with rfl | ⟨_, e, used, rfl⟩
    · cases last
    · rw [List.mem_singleton.mp last]
      exact bounded.lineEnd used

/-- Where the classes are the same, the tags behind words of classes decide what is met. -/
theorem meets_congr {bound condition : Nat} (bounded : r.Bounded bound)
    (classes : r'.classOf = r.classOf)
    (lineStart : r'.lineStart = r.lineStart) (lineEnd : r'.lineEnd = r.lineEnd)
    (same : ∀ word, (∀ classId ∈ word, classId < bound) → r'.tagAfter condition word =
      r.tagAfter condition word)
    {atLineStart : Bool} {input : List Nat} {met : Candidate} :
    r'.Meets condition atLineStart input met ↔ r.Meets condition atLineStart input met := by
  have numbers : r'.classNumber = r.classNumber := by
    funext c
    rw [classNumber, classNumber, classes]
  have opening : r'.opening atLineStart = r.opening atLineStart := by
    rw [Recognizer.opening, Recognizer.opening, lineStart]
  unfold Meets Knows Closes
  rw [numbers, opening, classes, lineEnd]
  refine exists_congr fun read => exists_congr fun rest => exists_congr fun ending =>
    and_congr_right fun _ =>
    and_congr_right fun _ => and_congr_right fun known => and_congr_right fun closes => ?_
  rw [same _ (bounded.word_small known closes)]

theorem longestMatch_congr {bound condition : Nat} (bounded : r.Bounded bound)
    (classes : r'.classOf = r.classOf)
    (lineStart : r'.lineStart = r.lineStart) (lineEnd : r'.lineEnd = r.lineEnd)
    (same : ∀ word, (∀ classId ∈ word, classId < bound) → r'.tagAfter condition word =
      r.tagAfter condition word)
    (input : List Nat) (atLineStart : Bool) :
    r'.longestMatch condition input atLineStart = r.longestMatch condition input atLineStart := by
  obtain ⟨best, chosen, found⟩ := r.longestMatch_chosen condition input atLineStart
  obtain ⟨best', chosen', found'⟩ := r'.longestMatch_chosen condition input atLineStart
  have moved := chosen'.congr fun c => and_congr_left fun _ =>
    meets_congr bounded classes lineStart lineEnd same
  rw [found, found', chosen.unique Candidate.eq_of_not_beats moved]

section Sorted

variable {input input' : List Nat}
  (alike : List.Forall₂
    (fun c c' => r.classOf c = r.classOf c' ∧ (c = lineFeed ↔ c' = lineFeed)) input input')

include alike

/-- A run sees nothing of a symbol but its class and whether it ends a line. -/
theorem run_sorted (state : σ) (cursor : Nat) (best : Option Candidate) :
    r.run state cursor best input = r.run state cursor best input' := by
  induction alike generalizing state cursor best with
  | nil => rfl
  | @cons c c' rest rest' first later ih =>
    have lineFeed : decide (c = lineFeed) = decide (c' = lineFeed) := decide_eq_decide.mpr first.2
    simp only [run, first.1, lineFeed, ih]

theorem longestMatch_sorted (condition : Nat) (atLineStart : Bool) :
    r.longestMatch condition input atLineStart = r.longestMatch condition input' atLineStart := by
  simp only [longestMatch, run_sorted alike]

end Sorted

end Recognizer

end Scangen
