import Scangen.Proofs.Build.Best
import Scangen.Proofs.Build.Winners
import Scangen.Proofs.Table.Codec
import Scangen.Proofs.Table.Decoded
import Scangen.Proofs.Table.Sizes

/-!
Tables as bytes. Valid tables are read back as they were, and the tables of a specification are valid.
-/

namespace Scangen

/-- Lengths of tokens and contexts are counted in words. -/
theorem Pattern.cut_fits (pattern : Pattern) :
    (Tables.trailingCode pattern.cut).2 < 0x100000000 := by
  have whole : (Tables.trailingCode .whole).2 < 0x100000000 := by decide
  unfold Pattern.cut Pattern.trailing
  cases pattern.context with
  | none => exact whole
  | some context =>
    dsimp only
    by_cases anchored : pattern.lineEnd = true
    · rw [if_pos anchored]
      exact whole
    · rw [if_neg anchored]
      cases pattern.body.fixedLength with
      | some head => exact head.toNat_lt
      | none =>
        cases context.fixedLength with
        | some tail => exact tail.toNat_lt
        | none => exact whole

namespace Spec

variable {spec : Spec} {config : Config} {minimal : Bool}

/-! What tables need to know of the automaton of a specification. -/

theorem numClasses_le (spec : Spec) (config : Config) (minimal : Bool) :
    (spec.dfa config minimal).numClasses ≤ 0x110002 := by
  have count := ClassMap.numSymbolClasses_le spec config
  have lineStart := Bool.toNat_le (Partition.ofSpec spec config).lineStart.isSome
  have lineEnd := Bool.toNat_le (Partition.ofSpec spec config).lineEnd.isSome
  have classes : (spec.nfa config).numClasses = (Partition.ofSpec spec config).numClasses := rfl
  rw [numClasses_dfa, classes, numClasses_eq]
  omega

theorem length_starts : (spec.dfa config minimal).starts.length = spec.conditions.length := by
  cases minimal with
  | false => exact length_starts_ofNfa
  | true =>
    show (Dfa.ofNfa (spec.nfa config)).minimize.starts.length = _
    rw [Dfa.starts_minimize, List.length_map, length_starts_ofNfa]

/-- The tags of all states are those of rules that have a pattern. -/
theorem accept_dfa {s : Nat} {tag : Tag} (accepts : (spec.dfa config minimal).accept s = some tag) :
    ∃ condition id pattern, spec.HasActive condition id (.matching pattern) ∧ tag = pattern.tag id := by
  obtain ⟨t, accepts⟩ : ∃ t, (Dfa.ofNfa (spec.nfa config)).accept t = some tag := by
    cases minimal with
    | false => exact ⟨s, accepts⟩
    | true =>
      have accepts : (Dfa.ofNfa (spec.nfa config)).minimize.accept s = some tag := accepts
      obtain ⟨t, kept, ordered, rfl⟩ :=
        Dfa.exists_block Dfa.ofNfa_rooted (Dfa.lt_of_accept accepts)
      exact ⟨t, by rw [← Dfa.accept_minimize kept ordered, accepts]⟩
  obtain ⟨condition, declared, atLineStart, input, met, meets, rfl⟩ := exists_meets accepts
  obtain ⟨id, pattern, leads, same⟩ := (meets_iff declared).mp meets
  exact ⟨condition, id, pattern, leads.fronts.fits.hasActive, same⟩

section Tables

variable {endActions : List (Option Nat)} {layout : Layout}

theorem bounded_dfa : ((spec.nfa config).recognizer (Partition.ofSpec spec config)).Bounded
    (spec.dfa config minimal).numClasses := by
  rw [numClasses_dfa]
  exact nfa_bounded

theorem valid_tables (config : Config) (minimal : Bool) (layout : Layout)
    (count : endActions.length = spec.conditions.length) :
    (Tables.ofDfa (Partition.ofSpec spec config) (spec.dfa config minimal) endActions
      layout).Valid := by
  have classes := numClasses_le spec config minimal
  exact Tables.valid_ofDfa (Partition.ofSpec_tiles spec config) bounded_dfa dfa_rooted dfa_closed
    (by omega) (by rw [count, length_starts]) layout

theorem numbers_tables (count : endActions.length = spec.conditions.length)
    (actions : ∀ action ∈ endActions, Below spec.rules.length action)
    (rules : spec.rules.length < 0x100000000)
    (states : (spec.dfa config minimal).states.size < 0x100000000) :
    FitWords (Tables.ofDfa (Partition.ofSpec spec config) (spec.dfa config minimal) endActions
      layout).numbers := by
  have valid := valid_tables config minimal layout count
  have classes := numClasses_le spec config minimal
  have classes : (spec.dfa config minimal).numClasses < 0x100000000 := by omega
  simp only [Tables.numbers, fitWords_append, fitWords_cons, fitWords_flatMap]
  refine ⟨⟨⟨⟨⟨⟨⟨⟨states, classes, fitWords_nil⟩, ?_⟩, ?_⟩, ?_⟩, ?_⟩, ?_⟩, ?_⟩, ?_⟩
  · exact valid.lineStart.fit classes
  · exact valid.lineEnd.fit classes
  · exact fun s member => Nat.lt_trans (valid.starts s (Array.mem_def.mpr member)) states
  · exact fun action member => (actions action member).fit rules
  · intro tag member
    cases tag with
    | none => exact fitWords_nil
    | some tag =>
      obtain ⟨state, listed, accepts⟩ := Array.mem_map.mp (Array.mem_def.mpr member)
      obtain ⟨s, found⟩ := Array.mem_iff_getElem?.mp listed
      have accepts : (spec.dfa config minimal).accept s = some tag := by
        rw [Dfa.accept, found]
        exact accepts
      obtain ⟨_, id, pattern, active, rfl⟩ := accept_dfa accepts
      have id_fits := Nat.lt_trans active.lt rules
      exact fitWords_cons.mpr ⟨id_fits, fitWords_cons.mpr ⟨id_fits, fitWords_cons.mpr
        ⟨pattern.cut_fits, fitWords_nil⟩⟩⟩
  · exact (ClassMap.fit_ofPartition (Partition.ofSpec_tiles spec config) bounded_dfa.symbols classes
      layout.compressMap).1
  · exact Transitions.numbers_ofRows (by simpa using states) classes Dfa.rows_uniform
      (Dfa.rows_below dfa_closed) layout.compression

theorem frontLengths_tables (count : endActions.length = spec.conditions.length)
    (conditions : spec.conditions.length < 0x100000000)
    (states : (spec.dfa config minimal).states.size < 0x100000000) :
    FitWords (Tables.ofDfa (Partition.ofSpec spec config) (spec.dfa config minimal) endActions
      layout).frontLengths := by
  have classes := numClasses_le spec config minimal
  have classMap := (ClassMap.fit_ofPartition (Partition.ofSpec_tiles spec config)
    bounded_dfa.symbols (by omega : (spec.dfa config minimal).numClasses < 0x100000000)
    layout.compressMap).2
  refine fitWords_append.mpr ⟨?_, classMap⟩
  simp only [Tables.ofDfa, List.size_toArray, Array.size_map, length_starts, count, fitWords_cons]
  exact ⟨conditions, conditions, states, fitWords_nil⟩

/-- Only the entries of the dense encoding may be too many to be counted. -/
theorem lengths_tables (count : endActions.length = spec.conditions.length)
    (conditions : spec.conditions.length < 0x100000000)
    (states : (spec.dfa config minimal).states.size < 0x100000000) :
    FitWords (Tables.ofDfa (Partition.ofSpec spec config) (spec.dfa config minimal) endActions
      layout).lengths ↔ (layout.compression = .dense →
        (spec.dfa config minimal).states.size * (spec.dfa config minimal).numClasses <
          0x100000000) := by
  have classes := numClasses_le spec config minimal
  have rows : ((List.range (spec.dfa config minimal).states.size).map
      (spec.dfa config minimal).row).length = (spec.dfa config minimal).states.size := by
    rw [List.length_map, List.length_range]
  have transitions := Transitions.lengths_ofRows (by rwa [rows])
    (by omega : 2 * (spec.dfa config minimal).numClasses < 0x100000000) Dfa.rows_uniform
    layout.compression
  rw [rows] at transitions
  rw [← transitions]
  exact ⟨fun fit => (fitWords_append.mp fit).2, fun fit =>
    fitWords_append.mpr ⟨frontLengths_tables count conditions states, fit⟩⟩

end Tables

end Spec

/-- Tables that pass the check are read back from their bytes as they were, if no condition ends with
the number that stands for a missing rule, and all numbers and lengths fit in words. The tables of a
specification pass the check in every layout. As long as states, rules and conditions have numbers
that fit in words, so has all else in them; just the dense encoding may be too long, and this is when
they are not read back. -/
theorem Spec.binary_roundTrip (t : Tables) :
    (t.validate = .ok () → (∀ action ∈ t.endActions, action ≠ some Bytes.missing) →
      FitWords t.numbers → FitWords t.lengths → Tables.decode t.encode = .ok t) ∧
    ∀ (spec : Spec) (config : Config) (minimal : Bool) (endActions : List (Option Nat))
      (layout : Layout), endActions.length = spec.conditions.length →
      (∀ action ∈ endActions, ∀ id ∈ action, id < spec.rules.length) →
      let d := spec.dfa config minimal
      t = Tables.ofDfa (Partition.ofSpec spec config) d endActions layout →
      t.validate = .ok () ∧
      (spec.rules.length < 0x100000000 → spec.conditions.length < 0x100000000 →
        d.states.size < 0x100000000 →
        (∀ action ∈ t.endActions, action ≠ some Bytes.missing) ∧ FitWords t.numbers ∧
          (FitWords t.lengths ↔
            (layout.compression = .dense → d.states.size * d.numClasses < 0x100000000)) ∧
          (Tables.decode t.encode = .ok t ↔
            (layout.compression = .dense → d.states.size * d.numClasses < 0x100000000))) := by
  refine ⟨Tables.decode_encode, ?_⟩
  intro spec config minimal endActions layout count actions d same
  subst same
  have checked := Tables.validate_iff.mpr (valid_tables config minimal layout count)
  refine ⟨checked, ?_⟩
  intro rules conditions states
  have used : ∀ action ∈ endActions.toArray, action ≠ some Bytes.missing := fun action member =>
    Below.ne_missing (actions action (List.mem_toArray.mp member)) rules
  have fit : FitWords (Tables.ofDfa (Partition.ofSpec spec config) d endActions layout).numbers :=
    numbers_tables count actions rules states
  have lengths : FitWords (Tables.ofDfa (Partition.ofSpec spec config) d endActions layout).lengths ↔
      (layout.compression = .dense → d.states.size * d.numClasses < 0x100000000) :=
    lengths_tables count conditions states
  refine ⟨used, fit, lengths, fun decoded dense => ?_, fun few => ?_⟩
  · -- whatever was decoded has been counted
    obtain ⟨compression, compressMap⟩ := layout
    cases dense
    obtain ⟨successors, encoding, size⟩ := Tables.exists_dense_ofDfa
      (Partition.ofSpec spec config) d endActions compressMap
    rw [← size]
    exact Tables.decode_size_lt decoded encoding
  · exact Tables.decode_encode checked used fit (lengths.mpr few)

/-- Three rules, and an entry for each state and class. -/
theorem Spec.letters_decode :
    let t := Tables.ofDfa (Partition.ofSpec letters byteConfig) (letters.dfa byteConfig true)
      letters.endActions ⟨.dense, true⟩
    t.validate = .ok () ∧ FitWords t.numbers ∧ FitWords t.lengths ∧
      Tables.decode t.encode = .ok t := by
  intro t
  obtain ⟨reads, built⟩ := binary_roundTrip t
  obtain ⟨checked, sizes⟩ := built letters byteConfig true letters.endActions ⟨.dense, true⟩
    (by decide) (by decide) rfl
  have small : (letters.dfa byteConfig true).states.size *
      (letters.dfa byteConfig true).numClasses < 0x100000000 := by decide +kernel
  obtain ⟨used, fit, lengths, _⟩ := sizes (by decide) (by decide) (by decide +kernel)
  have few := lengths.mpr fun _ => small
  exact ⟨checked, fit, few, reads checked used fit few⟩

end Scangen
