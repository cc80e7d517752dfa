import Scangen.Automaton.Checked
import Scangen.Proofs.Partition.Reported

/-!
No set of a rule splits a class. The construction of the automaton stops at no set of a specification
whose classes it works with, and adds what it would add unchecked.
-/

namespace Scangen

namespace CheckedBuilder

/-- The builder never stops and does what the other one does. -/
def Agrees (checked : CheckedBuilder) (builder : Builder) : Prop :=
  ∀ arena, checked arena = .ok (builder arena)

variable {checked checked' : CheckedBuilder} {builder builder' : Builder} {partition : Partition}
  {s : SymbolSet}

theorem ofSet_agrees (found : ∃ classes, partition.classesOf s = .ok classes) :
    (ofSet partition s).Agrees (.ofSet partition s) := by
  intro arena
  obtain ⟨classes, found⟩ := found
  rw [ofSet, found, Builder.ofSet, Partition.label_eq found]
  rfl

namespace Agrees

theorem append (first : checked.Agrees builder) (second : checked'.Agrees builder') :
    (append checked checked').Agrees (builder.append builder') := by
  intro arena
  simp only [CheckedBuilder.append, first arena]
  show (checked' (builder arena).1).bind _ = _
  rw [second]
  rfl

variable (agrees : checked.Agrees builder)

include agrees

theorem around (loops skips : Bool) :
    (around loops skips checked).Agrees (builder.around loops skips) := by
  intro arena
  rw [CheckedBuilder.around, agrees]
  rfl

theorem copies (count : Nat) (arena : Arena) (cursor : Nat) :
    copies checked count arena cursor = .ok (builder.copies count arena cursor) := by
  induction count generalizing arena cursor with
  | zero => rfl
  | succ count ih =>
    rw [CheckedBuilder.copies, agrees]
    exact ih _ _

theorem optionalCopies (exit count : Nat) (arena : Arena) (cursor : Nat) :
    optionalCopies checked exit count arena cursor =
      .ok (builder.optionalCopies exit count arena cursor) := by
  induction count generalizing arena cursor with
  | zero => rfl
  | succ count ih =>
    rw [CheckedBuilder.optionalCopies, agrees]
    exact ih _ _

theorem repetition (least : Nat) (most : Option Nat) :
    (repetition checked least most).Agrees (builder.repetition least most) := by
  intro arena
  simp only [CheckedBuilder.repetition, agrees.copies]
  cases most with
  | none =>
    show (CheckedBuilder.around true true checked _).bind _ = _
    rw [agrees.around]
    rfl
  | some most =>
    show (CheckedBuilder.optionalCopies checked _ _ _ _).bind _ = _
    rw [agrees.optionalCopies]
    rfl

theorem alternate (entry exit : Nat) (arena : Arena) :
    alternate checked entry exit arena = .ok (builder.alternate entry exit arena) := by
  rw [CheckedBuilder.alternate, agrees]
  rfl

end Agrees

end CheckedBuilder

variable {partition : Partition} {charset : Charset}

namespace Regex

mutual

theorem checkedFragment_agrees (r : Regex)
    (found : ∀ s ∈ r.symbolSets charset, ∃ classes, partition.classesOf s = .ok classes) :
    (r.checkedFragment partition charset).Agrees (r.fragment partition charset) := by
  cases r with
  | alternation alternates =>
    intro arena
    simp only [checkedFragment, checkedAlternates_eq alternates found]
    rfl
  | concatenation factors => exact checkedSequence_agrees factors found
  | star inner => exact (checkedFragment_agrees inner found).around true true
  | plus inner => exact (checkedFragment_agrees inner found).around true false
  | optional inner => exact (checkedFragment_agrees inner found).around false true
  | repetition inner least most => exact (checkedFragment_agrees inner found).repetition least most
  | symbol c => exact CheckedBuilder.ofSet_agrees (found _ List.mem_cons_self)
  | symbolClass k => exact CheckedBuilder.ofSet_agrees (found _ List.mem_cons_self)
  | empty => exact fun arena => rfl

theorem checkedAlternates_eq (alternates : List Regex)
    (found : ∀ s ∈ symbolSetsOfAll charset alternates,
      ∃ classes, partition.classesOf s = .ok classes) (entry exit : Nat) (arena : Arena) :
    checkedAlternates partition charset alternates entry exit arena =
      .ok (alternatesBetween partition charset alternates entry exit arena) := by
  cases alternates with
  | nil => rfl
  | cons first rest =>
    obtain ⟨here, later⟩ := List.forall_mem_append.mp found
    rw [checkedAlternates, (checkedFragment_agrees first here).alternate]
    exact checkedAlternates_eq rest later _ _ _

theorem checkedSequence_agrees (factors : List Regex)
    (found : ∀ s ∈ symbolSetsOfAll charset factors,
      ∃ classes, partition.classesOf s = .ok classes) :
    (checkedSequence partition charset factors).Agrees
      (sequenceFragment partition charset factors) := by
  match factors with
  | [] => exact fun arena => rfl
  | [only] =>
    obtain ⟨here, _⟩ := List.forall_mem_append.mp found
    exact checkedFragment_agrees only here
  | first :: second :: rest =>
    obtain ⟨here, later⟩ := List.forall_mem_append.mp found
    exact (checkedFragment_agrees first here).append (checkedSequence_agrees (second :: rest) later)

end

end Regex

theorem Pattern.checkedFragment_eq (pattern : Pattern)
    (found : ∀ s ∈ pattern.symbolSets charset, ∃ classes, partition.classesOf s = .ok classes)
    (arena : Arena) :
    pattern.checkedFragment partition charset arena =
      .ok (pattern.fragment partition charset arena) := by
  obtain ⟨lineStart, body, context, lineEnd⟩ := pattern
  obtain ⟨in_body, in_context⟩ := List.forall_mem_append.mp found
  have body_agrees := body.checkedFragment_agrees in_body
  unfold checkedFragment Pattern.fragment
  dsimp only
  rw [body_agrees arena]
  cases context with
  | none => cases lineEnd <;> rfl
  | some context =>
    have context_agrees := context.checkedFragment_agrees in_context
    show (checkedContext partition charset (some context) (body.fragment partition charset arena).1
      _).bind _ = _
    rw [checkedContext, context_agrees]
    cases lineEnd <;> rfl

namespace Nfa

theorem checkedAddRule_eq {spec : Spec} {rule : Rule}
    (found : ∀ pattern, rule.pattern = .matching pattern →
      ∀ s ∈ pattern.symbolSets charset, ∃ classes, partition.classesOf s = .ok classes)
    (built : Arena × Diagnostics) (id : Nat) :
    checkedAddRule spec partition charset built rule id =
      .ok (addRule spec partition charset built rule id) := by
  unfold checkedAddRule addRule
  cases same : rule.pattern with
  | endOfInput => rfl
  | matching pattern =>
    dsimp only
    rw [pattern.checkedFragment_eq (found pattern same)]
    rfl

theorem checkedAddRules_eq {spec : Spec} {rules : List (Rule × Nat)}
    (listed : ∀ entry ∈ rules, entry.1 ∈ spec.rules)
    (found : ∀ s ∈ spec.patterns.flatMap (Pattern.symbolSets charset),
      ∃ classes, partition.classesOf s = .ok classes) (built : Arena × Diagnostics) :
    rules.foldlM (fun built entry =>
        checkedAddRule spec partition charset built entry.1 entry.2) built =
      .ok (rules.foldl (fun built entry =>
        addRule spec partition charset built entry.1 entry.2) built) := by
  induction rules generalizing built with
  | nil => rfl
  | cons entry rest ih =>
    obtain ⟨rule, id⟩ := entry
    have sets : ∀ pattern, rule.pattern = .matching pattern →
        ∀ s ∈ pattern.symbolSets charset, ∃ classes, partition.classesOf s = .ok classes := by
      intro pattern same s member
      refine found s (List.mem_flatMap.mpr ⟨pattern, ?_, member⟩)
      exact List.mem_filterMap.mpr ⟨rule, listed _ List.mem_cons_self, by rw [same]⟩
    rw [List.foldlM_cons, List.foldl_cons, checkedAddRule_eq sets]
    exact ih (fun other later => listed other (List.mem_cons_of_mem _ later)) _

/-- Where all sets of the rules are made of whole classes, nothing stops the construction. -/
theorem checkedOfSpec_eq (spec : Spec)
    (found : ∀ s ∈ spec.patterns.flatMap (Pattern.symbolSets charset),
      ∃ classes, partition.classesOf s = .ok classes) :
    checkedOfSpec spec partition charset = .ok (ofSpec spec partition charset) := by
  have listed : ∀ entry ∈ spec.rules.zipIdx, entry.1 ∈ spec.rules :=
    fun entry member => List.mem_of_getElem? (List.mem_zipIdx_iff_getElem?.mp member)
  unfold checkedOfSpec ofSpec
  dsimp only
  rw [checkedAddRules_eq listed found]
  rfl

end Nfa

namespace Partition

/-- Over the classes of a specification nothing stops the construction of its automaton. The classes of a
set are found in every partition that was made for it, and those of any set where each symbol has a class
of its own; they are the only ones that make the set. -/
theorem classesOf_total :
    (∀ (spec : Spec) (config : Config),
      Nfa.checkedOfSpec spec (ofSpec spec config) config.charset =
        .ok (Nfa.ofSpec spec (ofSpec spec config) config.charset)) ∧
    (∀ (alphabet : Alphabet) (sets : List SymbolSet) (usesLineStart usesLineEnd : Bool),
      ∀ s ∈ sets, (ofSets alphabet sets usesLineStart usesLineEnd).Decomposes s) ∧
    ∀ (alphabet : Alphabet) (usesLineStart usesLineEnd : Bool) (s : SymbolSet),
      (identity alphabet usesLineStart usesLineEnd).Decomposes s := by
  refine ⟨?_, ?_, ?_⟩
  · intro spec config
    exact Nfa.checkedOfSpec_eq spec (exists_classesOf_ofSpec spec config)
  · intro alphabet sets usesLineStart usesLineEnd s listed
    have made := Made.ofSets alphabet sets usesLineStart usesLineEnd
    exact ofSets_sorts.decomposes made listed (exists_classesOf_ofSets listed)
  · intro alphabet usesLineStart usesLineEnd s
    have made := Made.identity alphabet usesLineStart usesLineEnd
    have sorts : (identity alphabet usesLineStart usesLineEnd).Sorts [s] := identity_sorts
    exact sorts.decomposes made List.mem_cons_self (exists_classesOf_identity s)

/-- With both sets in view, the symbols in front of the letters are a class of their own. -/
theorem frontSymbols_decomposes :
    frontSymbols ∈ [smallLetters, frontSymbols] ∧
      (ofSets .byte [smallLetters, frontSymbols] false true).classesOf frontSymbols =
        .ok (.ofList [0]) ∧
      ∀ other, (ofSets .byte [smallLetters, frontSymbols] false true).Makes other frontSymbols →
        other = .ofList [0] := by
  have listed : frontSymbols ∈ [smallLetters, frontSymbols] := by decide
  have found : (ofSets .byte [smallLetters, frontSymbols] false true).classesOf frontSymbols =
    .ok (.ofList [0]) := by decide
  obtain ⟨classes, same, _, unique⟩ :=
    classesOf_total.2.1 .byte [smallLetters, frontSymbols] false true frontSymbols listed
  rw [found, Except.ok.injEq] at same
  exact ⟨listed, found, same ▸ unique⟩

end Partition

end Scangen
