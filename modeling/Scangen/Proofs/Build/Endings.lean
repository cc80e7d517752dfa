import Scangen.Proofs.Build.Binary
import Scangen.Proofs.Build.Isolation
import Scangen.Proofs.Table.Reread
import Scangen.Scan.Scanner

/-!
What scanners report at the end of the input: the first end-of-input rule of their condition. Tables
keep it, and so do their bytes.
-/

namespace Scangen

namespace Spec

variable {spec : Spec} {config : Config} {condition : Nat} {minimal : Bool} {layout : Layout}

theorem hasActive_endOfInput_iff {id : Nat} : spec.HasActive condition id .endOfInput ↔
    ∃ rule, spec.rules[id]? = some rule ∧ spec.endsIn condition rule = true := by
  have ends : ∀ rule : Rule, spec.endsIn condition rule = true ↔
      rule.pattern = .endOfInput ∧ condition ∈ spec.activeConditions rule.conditions := by
    intro rule
    unfold endsIn
    split
    next kind => simp [kind]
    next kind => simp [kind]
  simp only [HasActive, ends]

/-- Of the end-of-input rules of a condition, the first one counts. -/
theorem endAction_chosen (spec : Spec) (declared : condition < spec.conditions.length) :
    Chosen (· < ·) (fun id => spec.HasActive condition id .endOfInput)
      spec.endActions[condition]?.join := by
  have action : spec.endActions[condition]?.join = spec.rules.findIdx? (spec.endsIn condition) := by
    rw [endActions_eq, List.getElem?_map, List.getElem?_range declared]
    rfl
  rw [action]
  cases first : spec.rules.findIdx? (spec.endsIn condition) with
  | none =>
    intro id active
    obtain ⟨rule, found, ends⟩ := hasActive_endOfInput_iff.mp active
    have idle := List.findIdx?_eq_none_iff.mp first rule (List.mem_of_getElem? found)
    rw [ends] at idle
    cases idle
  | some least =>
    obtain ⟨inside, ends, before⟩ := List.findIdx?_eq_some_iff_getElem.mp first
    refine ⟨hasActive_endOfInput_iff.mpr ⟨_, List.getElem?_eq_getElem inside, ends⟩, ?_⟩
    intro id active earlier
    obtain ⟨rule, found, ends⟩ := hasActive_endOfInput_iff.mp active
    obtain ⟨_, rfl⟩ := List.getElem?_eq_some_iff.mp found
    exact before id earlier ends

theorem endActions_below (spec : Spec) :
    ∀ action ∈ spec.endActions, Below spec.rules.length action := by
  intro action member id found
  rw [endActions_eq] at member
  obtain ⟨condition, -, rfl⟩ := List.mem_map.mp member
  exact (List.findIdx?_eq_some_iff_getElem.mp found).1

theorem length_endActions (spec : Spec) : spec.endActions.length = spec.conditions.length := by
  rw [endActions_eq, List.length_map, List.length_range]

theorem ne_missing_of_mem_tables (rules : spec.rules.length < 0x100000000) :
    ∀ action ∈ (spec.tables config minimal layout).endActions, action ≠ some Bytes.missing :=
  fun action member =>
    (endActions_below spec action (List.mem_toArray.mp member)).ne_missing rules

/-- The tables of a specification are what their bytes are read as. -/
theorem tables_eq_of_decode {u : Tables} (rules : spec.rules.length < 0x100000000)
    (conditions : spec.conditions.length < 0x100000000)
    (states : (spec.dfa config minimal).states.size < 0x100000000)
    (decoded : Tables.decode (spec.tables config minimal layout).encode = .ok u) :
    u = spec.tables config minimal layout := by
  have count := length_endActions spec
  refine Tables.eq_of_decode_encode (valid_tables config minimal layout count)
    (ne_missing_of_mem_tables rules) (numbers_tables count (endActions_below spec) rules states)
    (frontLengths_tables count conditions states) (fun other => ?_) decoded
  have sizes : FitWords (spec.tables config minimal layout).lengths := by
    refine (lengths_tables count conditions states).mpr fun dense => ?_
    refine absurd ?_ (other ((List.range (spec.dfa config minimal).states.size).map
      (spec.dfa config minimal).row).flatten.toArray)
    show Transitions.ofRows _ _ layout.compression = _
    rw [dense, Transitions.ofRows]
  exact (fitWords_append.mp sizes).2

section Found

variable {input : List Nat} {atLineStart : Bool} {m : Match}
  (found : (spec.tables config minimal layout).recognizer.longestMatch condition input atLineStart =
    some m)

include found

/-- Whatever states a scanner comes to, the rules that are found there have a pattern. -/
theorem exists_pattern_of_longestMatch :
    ∃ active pattern, spec.HasActive active m.rule (.matching pattern) := by
  obtain ⟨best, chosen, same⟩ :=
    (spec.tables config minimal layout).recognizer.longestMatch_chosen condition input atLineStart
  rw [found] at same
  obtain ⟨candidate, rfl, rfl⟩ := Option.map_eq_some_iff.mp same.symm
  obtain ⟨⟨_, _, _, _, _, _, _, tagged⟩, _⟩ := chosen.1
  obtain ⟨s, _, accepts⟩ := Option.bind_eq_some_iff.mp tagged
  have accepts : (spec.dfa config minimal).accept s = some candidate.tag := by
    rw [← Tables.tagOf_ofDfa]
    exact accepts
  obtain ⟨active, id, pattern, hasActive, same⟩ := accept_dfa accepts
  refine ⟨active, pattern, ?_⟩
  rw [Candidate.toMatch, same]
  exact hasActive

/-- In addressable tables they are active in the condition as well. -/
theorem exists_active_of_longestMatch (room : (spec.tables config minimal layout).Addressable) :
    ∃ pattern, spec.HasActive condition m.rule (.matching pattern) := by
  have room : spec.AddressableAt config (.tables minimal layout) := room
  obtain ⟨best, chosen, same⟩ := longestMatchAt_chosen room condition input atLineStart
  rw [longestMatchAt, found] at same
  obtain ⟨candidate, rfl, rfl⟩ := Option.map_eq_some_iff.mp same.symm
  cases chosen.1 with
  | intro leads _ => exact ⟨_, leads.fronts.fits.hasActive⟩

end Found

end Spec

/-- At or behind the end of the input there is nothing to match. -/
theorem Scanner.nextWord_of_le {input : List Nat} {cursor : Nat} (s : Scanner)
    (ended : input.length ≤ cursor) :
    s.nextWord input cursor = .endOfInput (s.tables.endAction s.condition) := by
  rw [nextWord, List.drop_eq_nil_of_le ended]

namespace Spec

variable {spec : Spec} {config : Config} {condition : Nat} {log : Diagnostics}
  {automaton : Automaton} {layout : Layout}

/-- What a specification can be scanned with after a build: the tables in a layout, or what is read
back from their bytes. The numbers of rules, conditions and states are words. -/
inductive Serves (spec : Spec) (automaton : Automaton) (layout : Layout) : Tables → Prop where
  | written : Serves spec automaton layout (automaton.tables layout)
  | reread {u : Tables} (rules : spec.rules.length < 0x100000000)
      (conditions : spec.conditions.length < 0x100000000)
      (states : automaton.dfa.states.size < 0x100000000)
      (decoded : Tables.decode (automaton.tables layout).encode = .ok u) :
      Serves spec automaton layout u

theorem Serves.eq_tables {u : Tables} (built : (spec.build config log).2 = .ok automaton)
    (serves : spec.Serves automaton layout u) :
    u = spec.tables config config.minimize layout := by
  rw [build_ok built] at serves
  cases serves with
  | written => rfl
  | reread rules conditions states decoded =>
    exact tables_eq_of_decode rules conditions states decoded

/-- The condition of a scanner is one of the specification. -/
theorem setCondition_tables (declared : condition < spec.conditions.length) {s : Scanner}
    (same : s.tables = spec.tables config config.minimize layout) :
    s.setCondition condition = .ok { s with condition } := by
  apply if_pos
  rw [same]
  show condition < (spec.dfa config config.minimize).starts.toArray.size
  rw [List.size_toArray, length_starts]
  exact declared

/-- After a build, every scanner reports the first end-of-input rule of its condition at the end of
the input, and none if the condition has none. Such a rule is never found as a match: what is found has
a pattern, and is active in the condition if the tables are addressable. This holds for the tables in any
layout and for what is read back from their bytes, which only fails if the dense encoding is too long to
be counted. -/
theorem endOfInput_reported (built : (spec.build config log).2 = .ok automaton)
    (declared : condition < spec.conditions.length) (layout : Layout) :
    (∃ action, Chosen (· < ·) (fun id => spec.HasActive condition id .endOfInput) action ∧
      ∀ u, spec.Serves automaton layout u → ∀ s : Scanner, s.tables = u →
        ∃ s', s.setCondition condition = .ok s' ∧ ∀ input cursor, input.length ≤ cursor →
          s'.nextWord input cursor = .endOfInput action) ∧
    (∀ u, spec.Serves automaton layout u → ∀ other input atLineStart m,
      u.recognizer.longestMatch other input atLineStart = some m →
        (∃ active pattern, spec.HasActive active m.rule (.matching pattern)) ∧
        (u.Addressable → ∃ pattern, spec.HasActive other m.rule (.matching pattern))) ∧
    (spec.rules.length < 0x100000000 → spec.conditions.length < 0x100000000 →
      automaton.dfa.states.size < 0x100000000 →
      (layout.compression = .dense →
        automaton.dfa.states.size * automaton.dfa.numClasses < 0x100000000) →
      Tables.decode (automaton.tables layout).encode = .ok (automaton.tables layout)) := by
  refine ⟨⟨_, endAction_chosen spec declared, fun u serves s same => ?_⟩, ?_, ?_⟩
  · rw [serves.eq_tables built] at same
    refine ⟨_, setCondition_tables declared same, fun input cursor ended => ?_⟩
    have reported : s.tables.endAction condition = spec.endActions[condition]?.join := by
      rw [same, Tables.endAction]
      show spec.endActions.toArray[condition]?.join = _
      rw [List.getElem?_toArray]
    rw [Scanner.nextWord_of_le _ ended]
    exact congrArg ScanResult.endOfInput reported
  · intro u serves other input atLineStart m found
    rw [serves.eq_tables built] at found ⊢
    exact ⟨exists_pattern_of_longestMatch found, exists_active_of_longestMatch found⟩
  · rw [build_ok built]
    intro rules conditions states few
    have count := length_endActions spec
    exact Tables.decode_encode
      (Tables.validate_iff.mpr (valid_tables config config.minimize layout count))
      (ne_missing_of_mem_tables rules) (numbers_tables count (endActions_below spec) rules states)
      ((lengths_tables count conditions states).mpr few)

/-- Two end-of-input rules, the first of which is not active in comments. -/
def endings : Spec :=
  ⟨[⟨initialName, false⟩, ⟨"COMMENT", true⟩],
    [⟨none, .matching (.ofRegex (.symbol 97)), .all, ⟨1, 1⟩⟩,
      ⟨none, .endOfInput, .inclusive, ⟨2, 1⟩⟩,
      ⟨none, .endOfInput, .all, ⟨3, 1⟩⟩]⟩

theorem endings_reported : ∃ automaton, (endings.build byteConfig []).2 = .ok automaton ∧
    Tables.decode (automaton.tables ⟨.dense, true⟩).encode =
      .ok (automaton.tables ⟨.dense, true⟩) ∧
    ∀ u, endings.Serves automaton ⟨.dense, true⟩ u → ∀ s : Scanner, s.tables = u →
      ∃ s', s.setCondition 1 = .ok s' ∧ ∀ input cursor, input.length ≤ cursor →
        s'.nextWord input cursor = .endOfInput (some 2) := by
  have built : (endings.build byteConfig []).2 = .ok ⟨Partition.ofSpec endings byteConfig,
      endings.dfa byteConfig true, endings.endActions⟩ := build_of_no_errors (by decide +kernel)
  obtain ⟨⟨action, chosen, reported⟩, -, readable⟩ :=
    endOfInput_reported built (by decide : 1 < endings.conditions.length) ⟨.dense, true⟩
  have first : Chosen (· < ·) (fun id => endings.HasActive 1 id .endOfInput) (some 2) :=
    endAction_chosen endings (by decide)
  obtain rfl := chosen.unique (by omega) first
  refine ⟨_, built, readable (by decide) (by decide) (by decide +kernel) fun _ => ?_, reported⟩
  decide +kernel

end Spec

end Scangen
