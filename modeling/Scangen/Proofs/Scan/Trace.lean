import Scangen.Proofs.Scan.Longest
import Scangen.Scan.Trace

/-!
A longest match is the choice among the candidates that it measures, and only the places that it looks
up decide it. What holds of the start and is kept by each step holds of every state on the way.
-/

namespace Scangen.Recognizer

variable {σ : Type} {r r' : Recognizer σ} {condition cursor count : Nat} {input : List Nat}
  {atLineStart : Bool} {state : σ} {tag : Tag} {met : Candidate}

/-! The candidates that are measured are those that are met. -/

theorem run_eq_foldl (state : σ) (cursor : Nat) (best : Option Candidate) (input : List Nat) :
    r.run state cursor best input =
      (r.measuredFrom state cursor input).foldl Candidate.improve best := by
  induction input generalizing state cursor best with
  | nil => simp only [run, consider, measuredFrom, List.foldl_map]
  | cons c rest ih =>
    simp only [run, consider, measuredFrom, List.foldl_append, List.foldl_map]
    cases (r.classOf c).bind (r.step state) with
    | none => rfl
    | some next => exact ih next (cursor + 1) _

/-- Nothing but the candidates that were measured takes part in the choice. -/
theorem longestMatch_eq_foldl (r : Recognizer σ) (condition : Nat) (input : List Nat)
    (atLineStart : Bool) :
    r.longestMatch condition input atLineStart =
      ((r.measured condition input atLineStart).foldl Candidate.improve none).map
        Candidate.toMatch := by
  unfold longestMatch measured
  cases r.initial condition atLineStart with
  | none => rfl
  | some state =>
    simp only [Option.toList_some, List.flatMap_cons, List.flatMap_nil, List.append_nil]
    rw [run_eq_foldl]

theorem mem_candidates {tags : List Tag} :
    met ∈ tags.map (fun tag => (⟨cursor, tag⟩ : Candidate)) ↔
      met.matched = cursor ∧ met.tag ∈ tags := by
  rw [List.mem_map]
  constructor
  · intro listed
    obtain ⟨tag, member, same⟩ := listed
    rw [← same]
    exact ⟨rfl, member⟩
  · intro parts
    exact ⟨met.tag, parts.2, by rw [← parts.1]⟩

theorem mem_measuredFrom : met ∈ r.measuredFrom state cursor input ↔
    r.MetFrom state cursor input met := by
  induction input generalizing state cursor with
  | nil => rw [measuredFrom, metFrom_nil, mem_candidates]
  | cons c rest ih =>
    rw [measuredFrom, metFrom_cons, List.mem_append, mem_candidates]
    cases (r.classOf c).bind (r.step state) with
    | none => simp
    | some next => simp [ih]

theorem mem_measured : met ∈ r.measured condition input atLineStart ↔
    r.Meets condition atLineStart input met := by
  simp only [measured, meets_iff_metFrom, List.mem_flatMap, Option.mem_toList, mem_measuredFrom]

/-! Whatever is met in some input is shown by a walk, and the other way round. -/

theorem Reaches.follow {read : List Nat} {last : σ} (reaches : r.Reaches condition state count)
    (known : r.Knows read) (walk : r.follow state (read.map r.classNumber) = some last) :
    r.Reaches condition last (count + read.length) := by
  induction read generalizing state count with
  | nil =>
    have same : state = last := Option.some.inj walk
    rwa [← same]
  | cons c rest ih =>
    obtain ⟨classId, found⟩ := known c List.mem_cons_self
    have number : r.classNumber c = classId := by rw [classNumber, found, Option.getD_some]
    rw [List.map_cons, number, Recognizer.follow] at walk
    obtain ⟨next, stepped, walk⟩ := Option.bind_eq_some_iff.mp walk
    have later := ih (.symbol reaches found stepped)
      (fun c member => known c (List.mem_cons_of_mem _ member)) walk
    rwa [List.length_cons, Nat.add_comm rest.length, ← Nat.add_assoc]

/-- The symbols on the way to a state. -/
theorem Reaches.exists_read (reaches : r.Reaches condition state count) :
    ∃ atLineStart first read, r.initial condition atLineStart = some first ∧
      read.length = count ∧ r.Knows read ∧
      r.follow first (read.map r.classNumber) = some state := by
  induction reaches with
  | @start state atLineStart first =>
    exact ⟨atLineStart, state, [], first, rfl, by simp [Knows], rfl⟩
  | @symbol state next count c classId _ found stepped ih =>
    obtain ⟨atLineStart, first, read, starts, length, known, walk⟩ := ih
    have number : r.classNumber c = classId := by rw [classNumber, found, Option.getD_some]
    refine ⟨atLineStart, first, read ++ [c], starts, by simp [length], ?_, ?_⟩
    · intro x member
      rcases List.mem_append.mp member with before | last
      · exact known x before
      · exact ⟨classId, by rwa [List.mem_singleton.mp last]⟩
    · rw [List.map_append, follow_append, walk]
      simp [Recognizer.follow, number, stepped]

theorem shows_iff_meets : r.Shows condition count tag ↔
    ∃ atLineStart input, r.Meets condition atLineStart input ⟨count, tag⟩ := by
  constructor
  · intro shows
    obtain ⟨state, reaches, listed⟩ := shows
    obtain ⟨atLineStart, first, read, starts, length, known, walk⟩ := reaches.exists_read
    obtain ⟨ending, closes, accepted⟩ := r.mem_tagsAt.mp listed
    refine ⟨atLineStart, read, r.meets_iff_metFrom.mpr ⟨first, starts, read, [], ending, ?_⟩⟩
    have ends : r.Closes [] ending :=
      closes.imp_right fun last => ⟨Or.inl rfl, last.2⟩
    rw [follow_append, walk]
    exact ⟨(List.append_nil read).symm, by rw [length, Nat.zero_add], known, ends, accepted⟩
  · intro meets
    obtain ⟨atLineStart, input, meets⟩ := meets
    obtain ⟨first, starts, read, rest, ending, _, matched, known, closes, accepted⟩ :=
      r.meets_iff_metFrom.mp meets
    rw [follow_append, Option.bind_assoc] at accepted
    obtain ⟨last, walk, accepted⟩ := Option.bind_eq_some_iff.mp accepted
    have reaches := (Reaches.start starts).follow known walk
    have matched : count = 0 + read.length := matched
    rw [← matched] at reaches
    refine ⟨last, reaches, r.mem_tagsAt.mpr ⟨ending, ?_, accepted⟩⟩
    exact closes.imp_right fun last => ⟨rfl, last.2⟩

/-! Lookups. -/

theorem tagsAt_eq_of_agrees {atLineEnd : Bool} (lineEnd : r'.lineEnd = r.lineEnd)
    (agrees : ∀ lookup ∈ r.lookupsAt state atLineEnd, r.Agrees r' lookup) :
    r'.tagsAt state atLineEnd = r.tagsAt state atLineEnd := by
  have own : r.accept state = r'.accept state := agrees (.tag state) List.mem_cons_self
  unfold tagsAt
  rw [lineEnd, ← own]
  cases atLineEnd with
  | false => rfl
  | true =>
    cases used : r.lineEnd with
    | none => rfl
    | some classId =>
      simp only [lookupsAt, used, if_true, Option.toList_some, List.flatMap_cons,
        List.flatMap_nil, List.append_nil, List.mem_cons, forall_eq_or_imp] at agrees
      obtain ⟨_, stepped, behind⟩ := agrees
      have stepped : r.step state classId = r'.step state classId := stepped
      rw [Option.bind_some, Option.bind_some, ← stepped]
      cases found : r.step state classId with
      | none => rfl
      | some last =>
        have tags : r.accept last = r'.accept last := by
          apply behind (.tag last)
          simp [found]
        rw [Option.bind_some, Option.bind_some, tags]

theorem measuredFrom_eq_of_agrees (classes : r'.classOf = r.classOf)
    (lineEnd : r'.lineEnd = r.lineEnd)
    (agrees : ∀ lookup ∈ r.lookupsFrom state input, r.Agrees r' lookup) :
    r'.measuredFrom state cursor input = r.measuredFrom state cursor input := by
  induction input generalizing state cursor with
  | nil => rw [measuredFrom, measuredFrom, tagsAt_eq_of_agrees lineEnd agrees]
  | cons c rest ih =>
    rw [lookupsFrom, List.forall_mem_append] at agrees
    obtain ⟨here, later⟩ := agrees
    rw [measuredFrom, measuredFrom, tagsAt_eq_of_agrees lineEnd here, classes]
    cases found : r.classOf c with
    | none => rfl
    | some classId =>
      rw [found, List.forall_mem_cons] at later
      obtain ⟨stepped, later⟩ := later
      have stepped : r.step state classId = r'.step state classId := stepped
      rw [Option.bind_some, Option.bind_some, ← stepped]
      cases next : r.step state classId with
      | none => rfl
      | some next =>
        rw [next] at later
        exact congrArg _ (ih later)

theorem initial_eq_of_agrees (lineStart : r'.lineStart = r.lineStart)
    (agrees : ∀ lookup ∈ r.lookups condition input atLineStart, r.Agrees r' lookup) :
    r'.initial condition atLineStart = r.initial condition atLineStart := by
  rw [lookups, List.forall_mem_append, List.forall_mem_cons] at agrees
  obtain ⟨⟨starts, opens⟩, _⟩ := agrees
  have starts : r.start condition = r'.start condition := starts
  unfold initial
  rw [← starts, lineStart]
  cases first : r.start condition with
  | none => rfl
  | some state =>
    cases atLineStart with
    | false => rfl
    | true =>
      cases used : r.lineStart with
      | none => rfl
      | some classId =>
        have stepped : r.step state classId = r'.step state classId := by
          apply opens (.successor state classId)
          simp [first, opening, used]
        exact stepped.symm

/-- No place but those that are looked up decides a longest match. -/
theorem longestMatch_eq_of_agrees (classes : r'.classOf = r.classOf)
    (lineStart : r'.lineStart = r.lineStart) (lineEnd : r'.lineEnd = r.lineEnd)
    (agrees : ∀ lookup ∈ r.lookups condition input atLineStart, r.Agrees r' lookup) :
    r'.longestMatch condition input atLineStart = r.longestMatch condition input atLineStart := by
  rw [longestMatch_eq_foldl, longestMatch_eq_foldl, measured, measured,
    initial_eq_of_agrees lineStart agrees]
  rw [lookups, List.forall_mem_append] at agrees
  cases first : r.initial condition atLineStart with
  | none => rfl
  | some state =>
    have later : ∀ lookup ∈ r.lookupsFrom state input, r.Agrees r' lookup := by
      intro lookup member
      apply agrees.2 lookup
      simp [first, member]
    simp only [Option.toList_some, List.flatMap_cons, List.flatMap_nil,
      measuredFrom_eq_of_agrees classes lineEnd later]

/-- States stay inside as long as classes below the bound are read. -/
structure Keeps (r : Recognizer σ) (inside : σ → Prop) (bound : Nat) : Prop where
  bounded : r.Bounded bound
  start : ∀ {condition state}, r.start condition = some state → inside state
  step : ∀ {state classId next}, inside state → classId < bound →
    r.step state classId = some next → inside next

namespace Keeps

variable {inside : σ → Prop} {bound : Nat} {P : Lookup σ → Prop}

theorem initial (keeps : r.Keeps inside bound) (found : r.initial condition atLineStart = some state) :
    inside state := by
  rw [initial_eq] at found
  obtain ⟨first, starts, walk⟩ := Option.bind_eq_some_iff.mp found
  have first_inside := keeps.start starts
  unfold opening at walk
  cases atLineStart with
  | false =>
    have same : first = state := Option.some.inj walk
    rwa [← same]
  | true =>
    cases used : r.lineStart with
    | none =>
      rw [used] at walk
      have same : first = state := Option.some.inj walk
      rwa [← same]
    | some classId =>
      simp only [used, if_true, Option.toList_some, follow, Option.bind_fun_some] at walk
      exact keeps.step first_inside (keeps.bounded.lineStart used) walk

section

variable (keeps : r.Keeps inside bound) (tags : ∀ {state}, inside state → P (.tag state))
  (successors : ∀ {state classId}, inside state → classId < bound → P (.successor state classId))

include keeps tags successors

theorem lookupsAt (here : inside state) (atLineEnd : Bool) :
    ∀ lookup ∈ r.lookupsAt state atLineEnd, P lookup := by
  rw [Recognizer.lookupsAt, List.forall_mem_cons]
  refine ⟨tags here, ?_⟩
  intro lookup member
  cases atLineEnd with
  | false => cases member
  | true =>
    rw [if_pos rfl] at member
    obtain ⟨classId, used, member⟩ := List.mem_flatMap.mp member
    have small := keeps.bounded.lineEnd (Option.mem_toList.mp used)
    rcases List.mem_cons.mp member with same | behind
    · rw [same]
      exact successors here small
    · obtain ⟨last, stepped, same⟩ := List.mem_map.mp behind
      rw [← same]
      exact tags (keeps.step here small (Option.mem_toList.mp stepped))

theorem lookupsFrom (here : inside state) (input : List Nat) :
    ∀ lookup ∈ r.lookupsFrom state input, P lookup := by
  induction input generalizing state with
  | nil => exact lookupsAt keeps tags successors here true
  | cons c rest ih =>
    rw [Recognizer.lookupsFrom, List.forall_mem_append]
    refine ⟨lookupsAt keeps tags successors here _, ?_⟩
    cases found : r.classOf c with
    | none => exact List.forall_mem_nil _
    | some classId =>
      have small := keeps.bounded.symbols found
      dsimp only
      rw [List.forall_mem_cons]
      refine ⟨successors here small, ?_⟩
      cases stepped : r.step state classId with
      | none => exact List.forall_mem_nil _
      | some next => exact ih (keeps.step here small stepped)

/-- What holds of all states inside with all classes below the bound holds of all lookups. -/
theorem lookups (start : P (.start condition)) (input : List Nat) (atLineStart : Bool) :
    ∀ lookup ∈ r.lookups condition input atLineStart, P lookup := by
  rw [Recognizer.lookups, List.forall_mem_append, List.forall_mem_cons]
  refine ⟨⟨start, ?_⟩, ?_⟩
  · intro lookup member
    obtain ⟨state, first, member⟩ := List.mem_flatMap.mp member
    obtain ⟨classId, used, same⟩ := List.mem_map.mp member
    have small : classId < bound := by
      unfold opening at used
      cases atLineStart with
      | false => cases used
      | true => exact keeps.bounded.lineStart (Option.mem_toList.mp used)
    rw [← same]
    exact successors (keeps.start (Option.mem_toList.mp first)) small
  · intro lookup member
    obtain ⟨state, first, member⟩ := List.mem_flatMap.mp member
    have here := keeps.initial (Option.mem_toList.mp first)
    exact lookupsFrom keeps tags successors here input lookup member

end

end Keeps

end Scangen.Recognizer
