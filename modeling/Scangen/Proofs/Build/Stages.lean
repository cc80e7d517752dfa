import Scangen.Proofs.Automaton.Closed
import Scangen.Proofs.Automaton.Rules
import Scangen.Proofs.Table.Transitions

/-!
From a specification to its tables: each stage finds the same matches as the one before.
-/

namespace Scangen

namespace Nfa

variable {spec : Spec} {partition : Partition} {charset : Charset}

theorem ofSpec_closed : (ofSpec spec partition charset).1.Closed :=
  fun s label t link => ((ofSpec_gathers spec partition charset).starts.inside s label t link).2

theorem ofSpec_started : Dfa.Started (ofSpec spec partition charset).1 := by
  intro s member
  have declared : s < spec.conditions.length := List.mem_range.mp member
  exact Nat.lt_of_lt_of_le declared (ofSpec_gathers spec partition charset).starts.room

end Nfa

namespace Spec

/-- The nondeterministic automaton over the classes of the specification. -/
def nfa (spec : Spec) (config : Config) : Nfa :=
  (Nfa.ofSpec spec (Partition.ofSpec spec config) config.charset).1

variable {spec : Spec} {config : Config}

theorem nfa_closed : (spec.nfa config).Closed := Nfa.ofSpec_closed

theorem nfa_started : Dfa.Started (spec.nfa config) := Nfa.ofSpec_started

theorem numClasses_eq (p : Partition) :
    p.numClasses = p.numSymbolClasses + p.lineStart.isSome.toNat + p.lineEnd.isSome.toNat :=
  rfl

/-- Every class that a scanner reads is one of those that automata know. -/
theorem nfa_bounded :
    ((spec.nfa config).recognizer (Partition.ofSpec spec config)).Bounded
    (spec.nfa config).numClasses := by
  have sorts := Partition.ofSpec_sorts spec config
  have count : (spec.nfa config).numClasses = (Partition.ofSpec spec config).numClasses := rfl
  have lineStart := Partition.lineStart_ofSpec spec config
  have lineEnd := Partition.lineEnd_ofSpec spec config
  constructor
  · intro c classId found
    have := sorts.small found
    rw [count, numClasses_eq]
    omega
  · intro classId used
    have used : (Partition.ofSpec spec config).lineStart = some classId := used
    rw [count, numClasses_eq, used]
    rw [lineStart] at used
    split at used
    · cases used
      show _ < _ + 1 + _
      omega
    · cases used
  · intro classId used
    have used : (Partition.ofSpec spec config).lineEnd = some classId := used
    rw [count, numClasses_eq, used, lineStart]
    rw [lineEnd] at used
    split at used
    · cases used
      cases spec.usesLineStart <;> simp
    · cases used

end Spec

namespace Spec

variable {spec : Spec} {config : Config} {condition : Nat}

theorem length_starts_ofNfa :
    (Dfa.ofNfa (spec.nfa config)).starts.length = spec.conditions.length := by
  show ((Dfa.startSets (spec.nfa config)).map _).length = _
  rw [List.length_map, Dfa.startSets, List.length_map]
  exact List.length_range

/-- The deterministic automaton before and after minimization, or only before. -/
def dfa (spec : Spec) (config : Config) (minimal : Bool) : Dfa :=
  if minimal then (Dfa.ofNfa (spec.nfa config)).minimize else Dfa.ofNfa (spec.nfa config)

theorem tagAfter_dfa (minimal : Bool) {word : List Nat}
    (small : ∀ classId ∈ word, classId < (spec.nfa config).numClasses) :
    ((spec.dfa config minimal).recognizer (Partition.ofSpec spec config)).tagAfter condition word =
      ((spec.nfa config).recognizer (Partition.ofSpec spec config)).tagAfter condition word := by
  have subset := (Dfa.ofNfa_follows nfa_closed nfa_started
    (Partition.ofSpec spec config)).tagAfter_eq condition small
  cases minimal with
  | false => exact subset
  | true =>
    rw [← subset]
    exact (Dfa.minimize_follows Dfa.ofNfa_rooted (Partition.ofSpec spec config)).tagAfter_eq
      condition small

/-- Subset construction and minimization change no match. -/
theorem longestMatch_dfa (minimal : Bool) (input : List Nat) (atLineStart : Bool) :
    ((spec.dfa config minimal).recognizer (Partition.ofSpec spec config)).longestMatch
      condition input atLineStart =
      ((spec.nfa config).recognizer (Partition.ofSpec spec config)).longestMatch condition
        input atLineStart := by
  apply Recognizer.longestMatch_congr nfa_bounded
  · rfl
  · cases minimal <;> rfl
  · cases minimal <;> rfl
  · exact fun word small => tagAfter_dfa minimal small

theorem numClasses_dfa (minimal : Bool) :
    (spec.dfa config minimal).numClasses = (spec.nfa config).numClasses := by
  cases minimal <;> rfl

theorem dfa_rooted {minimal : Bool} : (spec.dfa config minimal).Rooted := by
  cases minimal with
  | false => exact Dfa.ofNfa_rooted
  | true => exact Dfa.minimize_rooted

theorem dfa_closed {minimal : Bool} : (spec.dfa config minimal).Closed := by
  cases minimal with
  | false => exact Dfa.ofNfa_closed nfa_closed nfa_started
  | true => exact Dfa.minimize_closed Dfa.ofNfa_rooted

section Tables

variable {minimal : Bool} {endActions : List (Option Nat)} {layout : Layout}

theorem classOf_tables :
    (Tables.ofDfa (Partition.ofSpec spec config) (spec.dfa config minimal) endActions
      layout).recognizer.classOf =
      ((spec.nfa config).recognizer (Partition.ofSpec spec config)).classOf := by
  funext c
  exact ClassMap.lookup_ofPartition (Partition.ofSpec_tiles spec config) layout.compressMap c

theorem tagAfter_tables
    (room : (Tables.ofDfa (Partition.ofSpec spec config) (spec.dfa config minimal) endActions
      layout).Addressable) {word : List Nat}
    (small : ∀ classId ∈ word, classId < (spec.nfa config).numClasses) :
    (Tables.ofDfa (Partition.ofSpec spec config) (spec.dfa config minimal) endActions
      layout).recognizer.tagAfter condition
        word =
      ((spec.nfa config).recognizer (Partition.ofSpec spec config)).tagAfter condition word := by
  rw [← tagAfter_dfa minimal small]
  apply (Tables.ofDfa_follows room dfa_rooted dfa_closed).tagAfter_eq condition
  rwa [numClasses_dfa]

/-- The layout of tables changes no match. -/
theorem longestMatch_tables
    (room : (Tables.ofDfa (Partition.ofSpec spec config) (spec.dfa config minimal) endActions
      layout).Addressable) (input : List Nat) (atLineStart : Bool) :
    (Tables.ofDfa (Partition.ofSpec spec config) (spec.dfa config minimal) endActions
      layout).recognizer.longestMatch
        condition input atLineStart =
      ((spec.nfa config).recognizer (Partition.ofSpec spec config)).longestMatch
        condition input atLineStart :=
  Recognizer.longestMatch_congr nfa_bounded classOf_tables rfl rfl
    (fun _ small => tagAfter_tables room small) input atLineStart

end Tables

/-- A build that does not stop gives the deterministic automaton over the classes of the
specification. -/
theorem build_ok {log : Diagnostics} {automaton : Automaton}
    (built : (spec.build config log).2 = .ok automaton) :
    automaton = ⟨Partition.ofSpec spec config, spec.dfa config config.minimize,
      spec.endActions⟩ := by
  unfold build at built
  dsimp only at built
  split at built
  · cases built
  · split at built
    · cases built
    · cases built
      rfl

/-- A build that reports no error does not stop. -/
theorem build_of_no_errors {log : Diagnostics}
    (quiet : (spec.build config log).1.hasErrors = false) :
    (spec.build config log).2 = .ok ⟨Partition.ofSpec spec config, spec.dfa config config.minimize,
      spec.endActions⟩ := by
  unfold build at quiet ⊢
  dsimp only at quiet ⊢
  split at quiet
  next errors => cases errors.symm.trans quiet
  next clean =>
    rw [if_neg clean]
    split at quiet
    next errors => cases errors.symm.trans quiet
    next clean' =>
      rw [if_neg clean']
      rfl

/-- Bytes in classes, for specifications that serve as examples. -/
def byteConfig : Config := ⟨⟨.byte, false⟩, true, true, ⟨.rows, true⟩⟩

theorem longestMatch_built {log : Diagnostics} {automaton : Automaton}
    (built : (spec.build config log).2 = .ok automaton) {layout : Layout}
    (room : (automaton.tables layout).Addressable) (input : List Nat) (atLineStart : Bool) :
    (automaton.tables layout).recognizer.longestMatch condition input atLineStart =
      ((spec.nfa config).recognizer (Partition.ofSpec spec config)).longestMatch condition
        input atLineStart := by
  cases build_ok built
  exact longestMatch_tables room input atLineStart

/-- What is met on the tables is met on the nondeterministic automaton. -/
theorem meets_built {log : Diagnostics} {automaton : Automaton}
    (built : (spec.build config log).2 = .ok automaton) {layout : Layout}
    (room : (automaton.tables layout).Addressable) {input : List Nat} {atLineStart : Bool}
    {met : Candidate} :
    (automaton.tables layout).recognizer.Meets condition atLineStart input met ↔
      ((spec.nfa config).recognizer (Partition.ofSpec spec config)).Meets condition
        atLineStart input met := by
  cases build_ok built
  exact Recognizer.meets_congr nfa_bounded classOf_tables rfl rfl
    fun _ small => tagAfter_tables room small

/-- All stages find the same longest match: the nondeterministic automaton, the deterministic one,
the minimal one, and its tables if all their places are words. Nothing depends on what was reported for
the specification. -/
theorem stages_agree (spec : Spec) (config : Config) (layout : Layout)
    (endActions : List (Option Nat)) (condition : Nat)
    (input : List Nat) (atLineStart : Bool) :
    let partition := Partition.ofSpec spec config
    let nfa := (Nfa.ofSpec spec partition config.charset).1
    let dfa := Dfa.ofNfa nfa
    let tables := Tables.ofDfa partition dfa.minimize endActions layout
    let found := (nfa.recognizer partition).longestMatch condition input atLineStart
    (dfa.recognizer partition).longestMatch condition input atLineStart = found ∧
      (dfa.minimize.recognizer partition).longestMatch condition input atLineStart = found ∧
      (tables.Addressable → tables.recognizer.longestMatch condition input atLineStart = found) := by
  refine ⟨longestMatch_dfa false input atLineStart, longestMatch_dfa true input atLineStart,
    fun room => ?_⟩
  have room : (Tables.ofDfa (Partition.ofSpec spec config) (spec.dfa config true) endActions
    layout).Addressable := room
  exact longestMatch_tables room input atLineStart

/-- A rule for a letter. -/
def oneLetter : Spec :=
  ⟨[⟨initialName, false⟩], [⟨none, .matching (.ofRegex (.symbol 97)), .inclusive, ⟨1, 1⟩⟩]⟩

/-- Two states and two classes have few places. -/
theorem oneLetter_agrees :
    let partition := Partition.ofSpec oneLetter byteConfig
    let nfa := (Nfa.ofSpec oneLetter partition byteConfig.charset).1
    let tables := Tables.ofDfa partition (Dfa.ofNfa nfa).minimize oneLetter.endActions ⟨.dense, true⟩
    tables.Addressable ∧
      ∀ input, tables.recognizer.longestMatch 0 input false =
        (nfa.recognizer partition).longestMatch 0 input false := by
  have room : (Tables.ofDfa (Partition.ofSpec oneLetter byteConfig)
      (Dfa.ofNfa (Nfa.ofSpec oneLetter (Partition.ofSpec oneLetter byteConfig)
        byteConfig.charset).1).minimize oneLetter.endActions ⟨.dense, true⟩).Addressable := by
    decide +kernel
  exact ⟨room, fun input =>
    (stages_agree oneLetter byteConfig ⟨.dense, true⟩ oneLetter.endActions 0 input false).2.2 room⟩

end Spec

end Scangen
