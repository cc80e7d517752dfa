import Mathlib.Data.List.Induction
import Scangen.Proofs.Scan.Longest

/-!
How a longest match ranks what it sees. It visits one state after the other, sees the tag of each and, at
the end of a line, that of the state behind it, and takes the tag behind the most symbols and among
these the first.
-/

namespace Scangen

namespace Recognizer

variable {σ : Type}

/-- The state in which a run is after so many symbols of the input. -/
inductive Visits (r : Recognizer σ) (condition : Nat) (atLineStart : Bool) (input : List Nat) :
    Nat → σ → Prop
  | start {state : σ} : r.start condition = some state →
      (atLineStart = true → r.lineStart = none) → Visits r condition atLineStart input 0 state
  | lineStart {state next : σ} {classId : Nat} : r.start condition = some state →
      atLineStart = true → r.lineStart = some classId → r.step state classId = some next →
      Visits r condition atLineStart input 0 next
  | symbol {count c classId : Nat} {state next : σ} :
      Visits r condition atLineStart input count state → input[count]? = some c →
      r.classOf c = some classId → r.step state classId = some next →
      Visits r condition atLineStart input (count + 1) next

/-- The tags of the visited states and, where the input or a line ends, of those behind the end of
the line. -/
inductive Sees (r : Recognizer σ) (condition : Nat) (atLineStart : Bool) (input : List Nat) :
    Candidate → Prop
  | own {count : Nat} {state : σ} {tag : Tag} : r.Visits condition atLineStart input count state →
      r.accept state = some tag → Sees r condition atLineStart input ⟨count, tag⟩
  | lineEnd {count classId : Nat} {state last : σ} {tag : Tag} :
      r.Visits condition atLineStart input count state →
      (count = input.length ∨ input[count]? = some lineFeed) → r.lineEnd = some classId →
      r.step state classId = some last → r.accept last = some tag →
      Sees r condition atLineStart input ⟨count, tag⟩

variable {r : Recognizer σ} {condition : Nat} {atLineStart : Bool} {input : List Nat}

theorem visits_zero_iff {state : σ} :
    r.Visits condition atLineStart input 0 state ↔ r.initial condition atLineStart = some state := by
  rw [initial_eq, opening]
  constructor
  · intro visits
    cases visits with
    | start first free =>
      rw [first, Option.bind_some]
      cases atLineStart with
      | false => rfl
      | true =>
        rw [free rfl]
        rfl
    | lineStart first atStart used stepped =>
      rw [first, Option.bind_some, if_pos atStart, used]
      simp [follow, stepped]
  · intro first
    obtain ⟨state', started, read⟩ := Option.bind_eq_some_iff.mp first
    cases atLineStart with
    | false =>
      cases read
      exact .start started fun absent => absurd absent Bool.false_ne_true
    | true =>
      rw [if_pos rfl] at read
      cases used : r.lineStart with
      | none =>
        rw [used] at read
        cases read
        exact .start started fun _ => used
      | some classId =>
        rw [used] at read
        refine .lineStart started rfl used ?_
        simpa [follow] using read

/-- What has been read of an input is its front, and its symbols have classes. -/
theorem Visits.exists_read {count : Nat} {state : σ}
    (visits : r.Visits condition atLineStart input count state) :
    ∃ first read rest, r.initial condition atLineStart = some first ∧ input = read ++ rest ∧
      read.length = count ∧ r.Knows read ∧
      r.follow first (read.map r.classNumber) = some state := by
  have begin : ∀ {state}, r.Visits condition atLineStart input 0 state →
      ∃ first read rest, r.initial condition atLineStart = some first ∧ input = read ++ rest ∧
        read.length = 0 ∧ r.Knows read ∧
        r.follow first (read.map r.classNumber) = some state :=
    fun visits => ⟨_, [], input, visits_zero_iff.mp visits, rfl, rfl, List.forall_mem_nil _, rfl⟩
  induction visits with
  | start first free => exact begin (.start first free)
  | lineStart first atStart used stepped => exact begin (.lineStart first atStart used stepped)
  | @symbol count c classId state next _ here classified stepped ih =>
    obtain ⟨first, read, rest, started, rfl, rfl, known, path⟩ := ih
    rw [List.getElem?_append_right (Nat.le_refl _), Nat.sub_self, ← List.head?_eq_getElem?] at here
    obtain ⟨rest, rfl⟩ := List.head?_eq_some_iff.mp here
    have number : r.classNumber c = classId := by rw [classNumber, classified, Option.getD_some]
    refine ⟨first, read ++ [c], rest, started, ?_, by simp, ?_, ?_⟩
    · rw [List.append_assoc, List.singleton_append]
    · exact List.forall_mem_append.mpr ⟨known, List.forall_mem_singleton.mpr ⟨classId, classified⟩⟩
    · rw [List.map_append, follow_append, path, Option.bind_some]
      simp [follow, number, stepped]

/-- A front whose symbols have classes is read as far as its states are alive. -/
theorem visits_of_follow {first state : σ} {read rest : List Nat}
    (started : r.initial condition atLineStart = some first) (split : input = read ++ rest)
    (known : r.Knows read) (path : r.follow first (read.map r.classNumber) = some state) :
    r.Visits condition atLineStart input read.length state := by
  induction read using List.reverseRecOn generalizing state rest with
  | nil =>
    cases path
    exact visits_zero_iff.mpr started
  | append_singleton read c ih =>
    obtain ⟨known, last⟩ := List.forall_mem_append.mp known
    obtain ⟨classId, classified⟩ := last c (List.mem_singleton_self c)
    have number : r.classNumber c = classId := by rw [classNumber, classified, Option.getD_some]
    rw [List.map_append, follow_append] at path
    obtain ⟨before, path, stepped⟩ := Option.bind_eq_some_iff.mp path
    have stepped : r.step before classId = some state := by
      simpa [follow, number] using stepped
    have here : input[read.length]? = some c := by
      rw [split, List.append_assoc, List.getElem?_append_right (Nat.le_refl _), Nat.sub_self]
      rfl
    rw [List.length_append]
    exact .symbol (ih (split.trans (List.append_assoc _ _ _)) known path) here classified stepped

/-- A line ends behind the front of an input if the input ends there or a line feed follows. -/
theorem endsLine_iff {read rest : List Nat} (split : input = read ++ rest) :
    EndsLine rest ↔ read.length = input.length ∨ input[read.length]? = some lineFeed := by
  rw [EndsLine, split, List.getElem?_append_right (Nat.le_refl _), Nat.sub_self,
    ← List.head?_eq_getElem?, List.head?_eq_none_iff, List.length_append]
  refine or_congr_left ?_
  rw [← List.length_eq_zero_iff]
  omega

/-- What is met in an input is what is seen there. -/
theorem sees_iff_meets {met : Candidate} :
    r.Sees condition atLineStart input met ↔ r.Meets condition atLineStart input met := by
  rw [meets_iff_metFrom]
  constructor
  · intro sees
    cases sees with
    | own visits accepts =>
      obtain ⟨first, read, rest, started, split, count, known, path⟩ := visits.exists_read
      refine ⟨first, started, read, rest, [], split, ?_, known, Or.inl rfl, ?_⟩
      · rw [Nat.zero_add, count]
      · rw [List.append_nil, path]
        exact accepts
    | @lineEnd _ classId _ _ _ visits ends used stepped accepts =>
      obtain ⟨first, read, rest, started, split, rfl, known, path⟩ := visits.exists_read
      refine ⟨first, started, read, rest, [classId], split, (Nat.zero_add _).symm, known,
        Or.inr ⟨(endsLine_iff split).mpr ends, classId, used, rfl⟩, ?_⟩
      rw [follow_append, path, Option.bind_some]
      simpa [follow, stepped] using accepts
  · intro metFrom
    obtain ⟨first, started, read, rest, ending, split, count, known, closes, accepted⟩ := metFrom
    obtain ⟨matched, tag⟩ := met
    rw [Nat.zero_add] at count
    cases count
    rw [follow_append] at accepted
    obtain ⟨last, path, accepts⟩ := Option.bind_eq_some_iff.mp accepted
    obtain ⟨state, path, behind⟩ := Option.bind_eq_some_iff.mp path
    have visits := visits_of_follow started split known path
    rcases closes with rfl | ⟨ends, classId, used, rfl⟩
    · cases behind
      exact .own visits accepts
    · refine .lineEnd visits ((endsLine_iff split).mp ends) used ?_ accepts
      simpa [follow] using behind

end Recognizer

/-- Of two tags that are not the same one comes first. -/
theorem Tag.eq_or_before {a b : Tag} (later : ¬b.Before a) : a = b ∨ a.Before b := by
  by_cases first : a.Before b
  · exact Or.inr first
  · exact Or.inl (Tag.eq_of_not_before first later)

/-- A candidate that no other beats has more symbols than the others, or as many and the first tag. -/
theorem Candidate.not_beats_iff {a b : Candidate} :
    ¬a.Beats b ↔ a.matched < b.matched ∨
      a.matched = b.matched ∧ (b.tag = a.tag ∨ b.tag.Before a.tag) := by
  constructor
  · intro weaker
    have fewer : ¬b.matched < a.matched := fun more => weaker (Or.inl more)
    by_cases same : a.matched = b.matched
    · exact Or.inr ⟨same, Tag.eq_or_before fun before => weaker (Or.inr ⟨same, before⟩)⟩
    · exact Or.inl (by omega)
  · intro ranked beats
    rcases beats with more | ⟨same, before⟩
    · omega
    · rcases ranked with fewer | ⟨_, equal | after⟩
      · omega
      · exact Tag.before_irrefl _ (equal ▸ before)
      · exact Tag.before_irrefl _ (Tag.before_trans after before)

/-- The longest match on anything that reads classes. Among the tags that a run sees, those whose
tokens are empty do not count. Without any other there is no match; else the match is the one behind
the most symbols and, where there are several, the one of the first tag. -/
theorem Recognizer.longestMatch_ranks {σ : Type} (r : Recognizer σ) (condition : Nat)
    (input : List Nat) (atLineStart : Bool) :
    (r.longestMatch condition input atLineStart = none ↔
      ∀ seen, r.Sees condition atLineStart input seen → seen.length = 0) ∧
    ∀ m, r.longestMatch condition input atLineStart = some m ↔
      ∃ best, r.Sees condition atLineStart input best ∧ best.length ≠ 0 ∧
        (∀ other, r.Sees condition atLineStart input other → other.length ≠ 0 →
          other.matched < best.matched ∨
            other.matched = best.matched ∧ (best.tag = other.tag ∨ best.tag.Before other.tag)) ∧
        m = ⟨best.tag.rule, best.tag.trailing.tokenLength best.matched, best.matched⟩ := by
  obtain ⟨best, chosen, found⟩ := r.longestMatch_chosen condition input atLineStart
  have chosen := chosen.congr fun c => and_congr_left fun _ => sees_iff_meets.symm
  rw [found]
  cases best with
  | none =>
    constructor
    · refine iff_of_true rfl fun seen sees => ?_
      exact Decidable.not_not.mp fun token => chosen seen ⟨sees, token⟩
    · intro m
      refine iff_of_false (by simp) ?_
      intro better
      obtain ⟨best, sees, token, _⟩ := better
      exact chosen best ⟨sees, token⟩
  | some best =>
    obtain ⟨⟨sees, token⟩, unbeaten⟩ := chosen
    constructor
    · exact iff_of_false (by simp) fun empty => token (empty best sees)
    · intro m
      rw [Option.map_some, Option.some_inj]
      constructor
      · intro same
        refine ⟨best, sees, token, fun other other_sees other_token => ?_, same.symm⟩
        exact Candidate.not_beats_iff.mp (unbeaten other ⟨other_sees, other_token⟩)
      · intro ranked
        obtain ⟨best', sees', token', highest, rfl⟩ := ranked
        have same : best = best' := Candidate.eq_of_not_beats
          (Candidate.not_beats_iff.mpr (highest best sees token)) (unbeaten best' ⟨sees', token'⟩)
        rw [same]
        rfl

end Scangen
