import Scangen.Proofs.Build.Lexemes
import Scangen.Proofs.Scan.Trace
import Scangen.Proofs.Table.Decoded

/-!
Lengths of tokens in tables from outside. The check of tables does not compare what a tag keeps or cuts
off with the number of symbols in front of it, so a token may end behind the text. Where no tag comes
too early, all tokens lie inside; so it is in the tables of every specification.
-/

namespace Scangen

namespace Recognizer

variable {σ : Type} {r : Recognizer σ} {condition : Nat} {input : List Nat} {atLineStart : Bool}
  {m : Match} {met : Candidate}

theorem Meets.matched_le (meets : r.Meets condition atLineStart input met) :
    met.matched ≤ input.length := by
  obtain ⟨read, rest, ending, same, matched, _⟩ := meets
  rw [same, matched, List.length_append]
  exact Nat.le_add_right _ _

theorem finds_of_longestMatch (found : r.longestMatch condition input atLineStart = some m) :
    ∃ best, r.Finds condition atLineStart input best ∧ best.toMatch = m := by
  obtain ⟨best, chosen, same⟩ := r.longestMatch_chosen condition input atLineStart
  rw [found] at same
  obtain ⟨winner, rfl, made⟩ := Option.map_eq_some_iff.mp same.symm
  exact ⟨winner, chosen.1, made⟩

/-- No more is read than there is. -/
theorem longestMatch_matched_le (found : r.longestMatch condition input atLineStart = some m) :
    m.matched ≤ input.length := by
  obtain ⟨best, finds, rfl⟩ := finds_of_longestMatch found
  exact finds.1.matched_le

/-- What a property says of all tags on walks, it says of all candidates that are measured in some
input. -/
theorem forall_measured_iff {P : Tag → Nat → Prop} :
    (∀ input atLineStart, ∀ met ∈ r.measured condition input atLineStart, P met.tag met.matched) ↔
      ∀ count tag, r.Shows condition count tag → P tag count := by
  constructor
  · intro each count tag shows
    obtain ⟨atLineStart, input, meets⟩ := shows_iff_meets.mp shows
    exact each input atLineStart ⟨count, tag⟩ (mem_measured.mpr meets)
  · intro each input atLineStart met measured
    apply each met.matched met.tag
    exact shows_iff_meets.mpr ⟨atLineStart, input, mem_measured.mp measured⟩

theorem Timely.bounds (timely : r.Timely condition)
    (found : r.longestMatch condition input atLineStart = some m) :
    1 ≤ m.length ∧ m.length ≤ m.matched ∧ m.matched ≤ input.length := by
  obtain ⟨best, finds, rfl⟩ := finds_of_longestMatch found
  have within := timely best.matched best.tag (shows_iff_meets.mpr ⟨atLineStart, input, finds.1⟩)
  exact ⟨Nat.one_le_iff_ne_zero.mpr finds.2, within.tokenLength_le, finds.1.matched_le⟩

end Recognizer

namespace Scanner

variable {s : Scanner} {text : List Nat} {place : Nat} {token : Token}

theorem nextWord_inside (advances : s.Advances) (found : s.nextWord text place = .token token) :
    token.start = place ∧ place < token.stop ∧ token.stop ≤ text.length := by
  by_cases inside : place < text.length
  · rw [nextWord_eq inside] at found
    cases longest : s.matchAt text place with
    | none =>
      rw [longest] at found
      cases found
    | some m =>
      rw [longest] at found
      cases found
      obtain ⟨nonempty, enough⟩ := matchAt_length advances longest
      exact ⟨rfl, Nat.lt_add_of_pos_right nonempty, enough⟩
  · unfold nextWord at found
    rw [List.drop_eq_nil_of_le (Nat.not_lt.mp inside)] at found
    cases found

/-- What scanning relies on: no length is less than nothing, each match lies inside of its input and
each token inside of its text, and a text is cut into such tokens. -/
structure Contained (s : Scanner) : Prop where
  lengths : ∀ input atLineStart,
    ∀ met ∈ s.tables.recognizer.measured s.condition input atLineStart,
      ¬met.tag.trailing.Underflows met.matched
  bounds : ∀ input atLineStart m,
    s.tables.recognizer.longestMatch s.condition input atLineStart = some m →
      1 ≤ m.length ∧ m.length ≤ m.matched ∧ m.matched ≤ input.length
  words : ∀ text place token, s.nextWord text place = .token token →
    token.start = place ∧ place < token.stop ∧ token.stop ≤ text.length
  scans : ∀ text, s.Cuts text 0 (s.scan text)

theorem contained_of_timely (timely : s.tables.recognizer.Timely s.condition) : s.Contained := by
  have advances : s.Advances := by
    intro rest atLineStart m found
    obtain ⟨nonempty, kept, inside⟩ := timely.bounds found
    exact ⟨nonempty, Nat.le_trans kept inside⟩
  constructor
  · exact Recognizer.forall_measured_iff.mpr fun count tag shows =>
      (timely count tag shows).not_underflows
  · exact fun input atLineStart m found => timely.bounds found
  · exact fun text place token found => nextWord_inside advances found
  · exact scan_cuts advances

end Scanner

/-- No tag comes too early in the tables of a specification. -/
theorem Spec.tables_timely {spec : Spec} {config : Config} {log : Diagnostics}
    {automaton : Automaton} {condition : Nat}
    (built : (spec.build config log).2 = .ok automaton)
    (declared : condition < spec.conditions.length) {layout : Layout}
    (room : (automaton.tables layout).Addressable) :
    (automaton.tables layout).recognizer.Timely condition := by
  intro count tag shows
  obtain ⟨atLineStart, input, meets⟩ := Recognizer.shows_iff_meets.mp shows
  have enough := cut_le_of_meets built declared room meets
  cases same : tag.trailing with
  | whole => trivial
  | head n => exact enough n (Or.inl same)
  | tail n => exact enough n (Or.inr same)

namespace Tables

variable {bytes : List UInt8} {t : Tables} {condition : Nat}

/-- Tokens in tables that were read from any bytes. No match reads more than there is. No scan cuts off
more than it has read if and only if no tag on any walk through the tables does. If, besides, no tag
keeps more than it takes to get there, all tokens are contained in their texts. The tables of a
specification are like that. -/
theorem decode_contained (decoded : decode bytes = .ok t) (_ : condition < t.starts.size) :
    (∀ input atLineStart m, t.recognizer.longestMatch condition input atLineStart = some m →
      m.matched ≤ input.length) ∧
    ((∀ input atLineStart, ∀ met ∈ t.recognizer.measured condition input atLineStart,
        ¬met.tag.trailing.Underflows met.matched) ↔
      ∀ count tag, t.recognizer.Shows condition count tag → ¬tag.trailing.Underflows count) ∧
    (t.recognizer.Timely condition → (⟨t, condition⟩ : Scanner).Contained) ∧
    ∀ (spec : Spec) (config : Config) (log : Diagnostics) (automaton : Automaton)
      (layout : Layout), (spec.build config log).2 = .ok automaton →
      condition < spec.conditions.length → t = automaton.tables layout →
        t.recognizer.Timely condition := by
  refine ⟨?_, ?_, ?_, ?_⟩
  · exact fun input atLineStart m found => Recognizer.longestMatch_matched_le found
  · exact Recognizer.forall_measured_iff (P := fun tag count => ¬tag.trailing.Underflows count)
  · exact fun timely => Scanner.contained_of_timely (s := ⟨t, condition⟩) timely
  · intro spec config log automaton layout built declared same
    have room := decode_addressable decoded
    rw [same] at room ⊢
    exact Spec.tables_timely built declared room

/-- Runs of one symbol, all with one tag. -/
def runs (trailing : Trailing) : Tables where
  alphabet := .byte
  numStates := 2
  numClasses := 1
  classMap := .dense #[0]
  transitions := .dense #[some 1, some 1]
  accept := #[none, some ⟨0, 0, trailing⟩]
  starts := #[0]
  endActions := #[none]
  lineStart := none
  lineEnd := none

theorem runs_reaches {trailing : Trailing} {state count : Nat}
    (reaches : (runs trailing).recognizer.Reaches 0 state count) :
    state = 0 ∧ count = 0 ∨ state = 1 ∧ 1 ≤ count := by
  induction reaches with
  | @start state atLineStart first =>
    cases atLineStart <;> cases first <;> exact Or.inl ⟨rfl, rfl⟩
  | @symbol state next count c classId _ found stepped ih =>
    have only : c < 1 := (Array.getElem?_eq_some_iff.mp found).1
    obtain rfl : c = 0 := Nat.lt_one_iff.mp only
    cases found
    have same : next = 1 := by
      rcases ih with ⟨rfl, _⟩ | ⟨rfl, _⟩
      · cases stepped
        rfl
      · cases stepped
        rfl
    exact Or.inr ⟨same, Nat.le_add_left 1 count⟩

theorem runs_timely : (runs (.head 1)).recognizer.Timely 0 := by
  intro count tag shows
  obtain ⟨state, reaches, listed⟩ := shows
  rcases runs_reaches reaches with ⟨rfl, _⟩ | ⟨rfl, enough⟩
  · have nothing : (runs (.head 1)).recognizer.tagsAt 0 true = [] := by decide
    rw [nothing] at listed
    cases listed
  · have one : (runs (.head 1)).recognizer.tagsAt 1 true = [⟨0, 0, .head 1⟩] := by decide
    rw [one] at listed
    rw [List.mem_singleton.mp listed]
    exact enough

/-- A token of one symbol in runs of any length. -/
theorem runs_contained :
    decode (runs (.head 1)).encode = .ok (runs (.head 1)) ∧ 0 < (runs (.head 1)).starts.size ∧
      (runs (.head 1)).recognizer.Timely 0 ∧
      (⟨runs (.head 1), 0⟩ : Scanner).scan [0, 0] = .ok [(0, [0]), (0, [0])] ∧
      (⟨runs (.head 1), 0⟩ : Scanner).Contained := by
  have decoded : decode (runs (.head 1)).encode = .ok (runs (.head 1)) := by decide +kernel
  refine ⟨decoded, Nat.zero_lt_one, runs_timely, by decide, ?_⟩
  exact (decode_contained decoded Nat.zero_lt_one).2.2.1 runs_timely

/-- Tables that pass the check with a token of five symbols behind the first one, and tables with a
context of as many. -/
theorem runs_not_contained :
    (decode (runs (.head 5)).encode = .ok (runs (.head 5)) ∧
      (runs (.head 5)).recognizer.longestMatch 0 [0] false = some ⟨0, 5, 1⟩ ∧
      (⟨runs (.head 5), 0⟩ : Scanner).nextWord [0] 0 = .token ⟨0, 0, 5⟩) ∧
    (decode (runs (.tail 5)).encode = .ok (runs (.tail 5)) ∧
      ∃ met ∈ (runs (.tail 5)).recognizer.measured 0 [0] false,
        met.tag.trailing.Underflows met.matched) ∧
    ¬∀ bytes t, decode bytes = .ok t → ∀ condition < t.starts.size, ∀ input atLineStart m,
      t.recognizer.longestMatch condition input atLineStart = some m →
        m.length ≤ m.matched ∧ m.matched ≤ input.length := by
  have decoded : decode (runs (.head 5)).encode = .ok (runs (.head 5)) := by decide +kernel
  have longest : (runs (.head 5)).recognizer.longestMatch 0 [0] false = some ⟨0, 5, 1⟩ := by decide
  refine ⟨⟨decoded, longest, by decide⟩, ⟨by decide +kernel, ?_⟩, ?_⟩
  · exact ⟨⟨1, ⟨0, 0, .tail 5⟩⟩, by decide, show 1 < 5 by decide⟩
  · intro bounds
    have short := (bounds _ _ decoded 0 Nat.zero_lt_one [0] false _ longest).1
    exact absurd short (by decide)

end Tables

end Scangen
