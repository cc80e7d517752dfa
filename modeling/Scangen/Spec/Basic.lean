import Scangen.Finite.Distinct
import Scangen.Pattern.Basic

/-!
Lexical specifications: start conditions, and rules in the order in which they were declared. Conditions
and rules are referred to by their positions.
-/

namespace Scangen

/-- A place in a definition text, counted from one. -/
structure Position where
  line : Nat
  column : Nat
deriving DecidableEq

def Position.describe (p : Position) : String := s!"{p.line}:{p.column}"

inductive RulePattern where
  | matching (pattern : Pattern)
  /-- The rule tells what happens at the end of the input. -/
  | endOfInput

inductive RuleConditions where
  /-- The initial condition and every other inclusive one. -/
  | inclusive
  | all
  | named (names : List String)
deriving DecidableEq

structure Rule where
  name : Option String
  pattern : RulePattern
  conditions : RuleConditions
  position : Position

def Rule.displayName (rule : Rule) (id : Nat) : String :=
  match rule.name with
  | some name => s!"rule {id} ({name})"
  | none => s!"rule {id}"

structure StartCondition where
  name : String
  /-- Rules without a list of conditions are not active here. -/
  exclusive : Bool
deriving DecidableEq

structure Spec where
  conditions : List StartCondition
  rules : List Rule

namespace Spec

/-- The name of the condition that a scanner starts in. -/
def initialName : String := "INITIAL"

def initial : Spec := ⟨[⟨initialName, false⟩], []⟩

def conditionId (spec : Spec) (name : String) : Option Nat :=
  spec.conditions.findIdx? fun condition => condition.name = name

/-- Declares a condition. A name that is declared already keeps its place and its kind. -/
def declare (spec : Spec) (name : String) (exclusive : Bool) : Spec :=
  match spec.conditionId name with
  | some _ => spec
  | none => { spec with conditions := spec.conditions ++ [⟨name, exclusive⟩] }

def addRule (spec : Spec) (rule : Rule) : Spec := { spec with rules := spec.rules ++ [rule] }

/-- The conditions in which a rule with these conditions is active, each one once. -/
def activeConditions (spec : Spec) (conditions : RuleConditions) : List Nat :=
  match conditions with
  | .inclusive =>
    (spec.conditions.zipIdx.filter fun (condition, _) => !condition.exclusive).map Prod.snd
  | .all => List.range spec.conditions.length
  | .named names => distinct (names.filterMap spec.conditionId)

/-- The listed names that were never declared. -/
def unknownConditions (spec : Spec) (conditions : RuleConditions) : List String :=
  match conditions with
  | .named names => names.filter fun name => (spec.conditionId name).isNone
  | _ => []

/-- The patterns of the rules that have one. -/
def patterns (spec : Spec) : List Pattern :=
  spec.rules.filterMap fun rule =>
    match rule.pattern with
    | .matching pattern => some pattern
    | .endOfInput => none

def usesLineStart (spec : Spec) : Bool := spec.patterns.any Pattern.lineStart

def usesLineEnd (spec : Spec) : Bool := spec.patterns.any Pattern.lineEnd

/-- For each condition, the first end-of-input rule that is active in it. -/
def endActions (spec : Spec) : List (Option Nat) :=
  (List.range spec.conditions.length).map fun condition =>
    spec.rules.findIdx? fun rule =>
      match rule.pattern with
      | .matching _ => false
      | .endOfInput => (spec.activeConditions rule.conditions).contains condition

end Spec

end Scangen
