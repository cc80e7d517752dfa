import Scangen.Proofs.Build.Options

/-!
The reports about the rules of a specification are exact, and errors among them stop a build before
there is a deterministic automaton.
-/

namespace Scangen

open Classical

/-- The names that a rule lists. -/
def RuleConditions.names : RuleConditions → List String
  | .named names => names
  | _ => []

theorem DiagnosticKind.severity_eq_warning_iff (kind : DiagnosticKind) :
    kind.severity = .warning ↔ kind = .matchesEmpty := by
  cases kind <;> simp [severity]

namespace Pattern

variable {charset : Charset} {p : Pattern}

/-- The pattern has a problem of this kind. -/
def Has (charset : Charset) (p : Pattern) : DiagnosticKind → Prop
  | .anchorWithContext => p.context.isSome ∧ p.lineEnd = true
  | .variableTrailingContext =>
    (∃ context ∈ p.context, context.fixedLength = none) ∧ p.lineEnd = false ∧
      p.body.fixedLength = none
  | .matchesEmpty => p.body.Matches charset []
  | .emptyLanguage => ¬∃ token following, p.Matches charset token following
  | _ => False

/-- The problems of a pattern in the order in which they are reported, each one once. -/
noncomputable def faults (charset : Charset) (p : Pattern) : List DiagnosticKind :=
  [.anchorWithContext, .variableTrailingContext, .matchesEmpty, .emptyLanguage].filter
    (p.Has charset ·)

/-- The token cannot be cut out exactly where one of the two problems with contexts is there. -/
theorem trailing_problems (charset : Charset) (p : Pattern) :
    (match p.trailing with
      | .ok _ => []
      | .error kind => [kind]) =
      [DiagnosticKind.anchorWithContext, .variableTrailingContext].filter (p.Has charset ·) := by
  unfold trailing
  cases given : p.context with
  | none => simp [Has, given]
  | some context =>
    cases asked : p.lineEnd with
    | true => simp [Has, given, asked]
    | false =>
      cases head : p.body.fixedLength with
      | some n => simp [Has, given, asked, head]
      | none => cases tail : context.fixedLength <;> simp [Has, given, asked, head, tail]

theorem defects_eq_faults (inOrder : p.CountsOrdered) : p.defects charset = p.faults charset := by
  have silent : (if p.body.ordered.Matches charset [] then [DiagnosticKind.matchesEmpty] else []) =
      [DiagnosticKind.matchesEmpty].filter (p.Has charset ·) := by
    rw [p.body.ordered_eq_self inOrder.1, List.filter_singleton, Bool.cond_decide]
    rfl
  have wordless : (if ∃ token following, p.ordered.Matches charset token following then []
      else [DiagnosticKind.emptyLanguage]) =
      [DiagnosticKind.emptyLanguage].filter (p.Has charset ·) := by
    rw [ordered_eq_self inOrder, List.filter_singleton, Bool.cond_decide, Has]
    by_cases spelled : ∃ token following, p.Matches charset token following
    · rw [if_pos spelled, if_neg (not_not.mpr spelled)]
    · rw [if_neg spelled, if_pos spelled]
  have parts := congrArg₂ (· ++ ·)
    (congrArg₂ (· ++ ·) (trailing_problems charset p) silent) wordless
  refine parts.trans ?_
  rw [← List.filter_append, ← List.filter_append]
  rfl

end Pattern

namespace Spec

variable {spec : Spec} {charset : Charset}

/-- The names that a rule lists and the specification does not declare. -/
def undeclared (spec : Spec) (rule : Rule) : List String :=
  rule.conditions.names.filter (· ∉ spec.conditions.map StartCondition.name)

/-- The problems of a rule: undeclared names, then those of its pattern. -/
noncomputable def ruleFaults (spec : Spec) (charset : Charset) (rule : Rule) :
    List DiagnosticKind :=
  (spec.undeclared rule).map .unknownStartCondition ++
    match rule.pattern with
    | .endOfInput => []
    | .matching pattern => pattern.faults charset

/-- Reports of all problems, rule by rule. -/
noncomputable def faults (spec : Spec) (charset : Charset) : Diagnostics :=
  spec.rules.zipIdx.flatMap fun (rule, id) =>
    (spec.ruleFaults charset rule).map fun kind => kind.report rule id

theorem conditionId_isNone_iff {name : String} :
    (spec.conditionId name).isNone = true ↔ name ∉ spec.conditions.map StartCondition.name := by
  rw [conditionId, Option.isNone_iff_eq_none, List.findIdx?_eq_none_iff, List.mem_map]
  simp

theorem unknownConditions_eq (spec : Spec) (rule : Rule) :
    spec.unknownConditions rule.conditions = spec.undeclared rule := by
  unfold unknownConditions undeclared
  cases rule.conditions with
  | inclusive => rfl
  | all => rfl
  | named names =>
    apply List.filter_congr
    intro name _
    rw [Bool.eq_iff_iff, conditionId_isNone_iff, decide_eq_true_iff]

theorem defects_eq_faults (inOrder : ∀ pattern ∈ spec.patterns, pattern.CountsOrdered) :
    spec.defects charset = spec.faults charset := by
  unfold defects faults
  rw [List.flatMap_congr]
  intro entry listed
  obtain ⟨rule, id⟩ := entry
  dsimp only
  rw [ruleDefects, ruleFaults, unknownConditions_eq]
  cases kind : rule.pattern with
  | endOfInput => rfl
  | matching pattern =>
    have member := mem_patterns (List.mem_zipIdx_iff_getElem?.mp listed) kind
    dsimp only
    rw [Pattern.defects_eq_faults (inOrder pattern member)]

/-- Errors about the rules, and nothing else, keep a build from the deterministic automaton. -/
theorem build_beforeSubsets_iff (spec : Spec) (config : Config) (log : Diagnostics) :
    (spec.build config log).2 = .error .beforeSubsets ↔
      (log ++ spec.defects config.charset).hasErrors = true := by
  rw [build_eq]
  dsimp only
  split
  next errors => exact iff_of_true rfl errors
  next fine =>
    refine iff_of_false ?_ fine
    split <;> simp

/-- The problems that are found while the automaton is built are those of the rules, each one reported
once, in the order of the rules and for one rule in the order of `ruleFaults`. Only matching the empty
word is a warning, and everything else stops the build. -/
theorem reports_exact (spec : Spec) (config : Config)
    (inOrder : ∀ pattern ∈ spec.patterns, pattern.CountsOrdered) :
    (Nfa.ofSpec spec (Partition.ofSpec spec config) config.charset).2 =
        spec.faults config.charset ∧
      (∀ d ∈ spec.faults config.charset, d.severity = .warning ↔ d.kind = .matchesEmpty) ∧
      ((spec.build config []).2 = .error .beforeSubsets ↔
        ∃ d ∈ spec.faults config.charset, d.severity = .error) := by
  have exact_log : spec.defects config.charset = spec.faults config.charset :=
    defects_eq_faults inOrder
  refine ⟨(log_ofSpec spec config).trans exact_log, fun d listed => ?_, ?_⟩
  · obtain ⟨⟨rule, id⟩, _, reported⟩ := List.mem_flatMap.mp listed
    obtain ⟨kind, _, rfl⟩ := List.mem_map.mp reported
    exact kind.severity_eq_warning_iff
  · rw [build_beforeSubsets_iff, List.nil_append, exact_log, Diagnostics.hasErrors, List.any_eq_true]
    simp only [decide_eq_true_eq]

/-- Any letters before any other letters, a letter before another at the end of a line, a symbol that is
not a byte, and what happens at the end of the input, two of them in conditions that nobody declared. -/
def troubled : Spec :=
  ⟨[⟨initialName, false⟩],
    [⟨none, .matching ⟨false, .star (.symbol 97), some (.star (.symbol 98)), false⟩,
        .named [initialName, "LOST"], ⟨1, 1⟩⟩,
      ⟨none, .matching ⟨false, .symbol 97, some (.symbol 98), true⟩, .inclusive, ⟨2, 1⟩⟩,
      ⟨none, .matching ⟨false, .symbol 300, none, false⟩, .all, ⟨3, 1⟩⟩,
      ⟨none, .endOfInput, .named ["GONE"], ⟨4, 1⟩⟩]⟩

/-- Each kind of problem is reported, and the build does not get to the deterministic automaton. -/
theorem troubled_reports :
    (∀ pattern ∈ troubled.patterns, pattern.CountsOrdered) ∧
      (Nfa.ofSpec troubled (Partition.ofSpec troubled byteConfig) byteConfig.charset).2 =
        troubled.faults byteConfig.charset ∧
      ((troubled.faults byteConfig.charset).map fun d => (d.rule, d.kind)) =
        [(some 0, .unknownStartCondition "LOST"), (some 0, .variableTrailingContext),
          (some 0, .matchesEmpty), (some 1, .anchorWithContext), (some 2, .emptyLanguage),
          (some 3, .unknownStartCondition "GONE")] ∧
      (troubled.build byteConfig []).2 = .error .beforeSubsets := by
  have inOrder : ∀ pattern ∈ troubled.patterns, pattern.CountsOrdered := by
    intro pattern member
    simp only [patterns, troubled, List.filterMap_cons, List.filterMap_nil, List.mem_cons,
      List.not_mem_nil, or_false] at member
    rcases member with rfl | rfl | rfl <;> simp [Pattern.CountsOrdered, Regex.CountsOrdered]
  obtain ⟨log, _, halts⟩ := reports_exact troubled byteConfig inOrder
  have found : ((troubled.faults byteConfig.charset).map fun d => (d.rule, d.kind)) =
      [(some 0, .unknownStartCondition "LOST"), (some 0, .variableTrailingContext),
        (some 0, .matchesEmpty), (some 1, .anchorWithContext), (some 2, .emptyLanguage),
        (some 3, .unknownStartCondition "GONE")] := by
    rw [← log]
    decide +kernel
  refine ⟨inOrder, log, found, halts.mpr ?_⟩
  rw [← log]
  decide +kernel

end Spec

end Scangen
