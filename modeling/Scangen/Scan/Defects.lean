import Scangen.Scan.Meaning

/-!
What is wrong with a specification, said without automata: the words of a pattern tell whether it can
match at all and whether it matches nothing, and a rule is of no use where it never leads.
-/

namespace Scangen

open Classical

/-- The problems of a pattern in the order in which they are reported. -/
noncomputable def Pattern.defects (charset : Charset) (p : Pattern) : List DiagnosticKind :=
  (match p.trailing with
    | .ok _ => []
    | .error kind => [kind]) ++
  (if p.body.ordered.Matches charset [] then [.matchesEmpty] else []) ++
  (if ∃ token following, p.ordered.Matches charset token following then [] else [.emptyLanguage])

namespace Spec

/-- The problems of a rule: first its conditions, then its pattern. -/
noncomputable def ruleDefects (spec : Spec) (charset : Charset) (rule : Rule) (id : Nat) :
    Diagnostics :=
  let unknown := (spec.unknownConditions rule.conditions).map .unknownStartCondition
  let found :=
    match rule.pattern with
    | .endOfInput => []
    | .matching pattern => pattern.defects charset
  (unknown ++ found).map fun kind => kind.report rule id

/-- The problems of all rules in order. -/
noncomputable def defects (spec : Spec) (charset : Charset) : Diagnostics :=
  spec.rules.zipIdx.flatMap fun (rule, id) => spec.ruleDefects charset rule id

/-- The rule is the first one of its kind somewhere. -/
def Wins (spec : Spec) (charset : Charset) (id : Nat) : Prop :=
  ∃ condition < spec.conditions.length, ∃ atLineStart input matched pattern,
    spec.Leads charset condition atLineStart input matched id pattern

/-- The rules with patterns that win nowhere. -/
noncomputable def uselessRules (spec : Spec) (charset : Charset) : Diagnostics :=
  spec.rules.zipIdx.filterMap fun (rule, id) =>
    match rule.pattern with
    | .endOfInput => none
    | .matching _ =>
      if spec.Wins charset id then none else some (DiagnosticKind.unreachableRule.report rule id)

end Spec

end Scangen
