import Scangen.Spec.Basic

/-!
Problems of a specification, collected in the order in which they are found.
-/

namespace Scangen

inductive Severity where
  | warning
  | error
deriving DecidableEq

def Severity.describe : Severity → String
  | warning => "warning"
  | error => "error"

inductive DiagnosticKind where
  /-- No input can satisfy the rule. -/
  | emptyLanguage
  | matchesEmpty
  /-- Earlier rules take everything that the rule matches. -/
  | unreachableRule
  /-- Neither the body nor the context has a fixed length. -/
  | variableTrailingContext
  /-- The end of a line and a context are asked for at once. -/
  | anchorWithContext
  | unknownStartCondition (name : String)
deriving DecidableEq

structure Diagnostic where
  severity : Severity
  kind : DiagnosticKind
  rule : Option Nat
  position : Position
  message : String
deriving DecidableEq

def Diagnostic.describe (d : Diagnostic) : String :=
  d.position.describe ++ ": " ++ d.severity.describe ++ ": " ++ d.message

namespace DiagnosticKind

/-- Only matching the empty word can be intended. -/
def severity : DiagnosticKind → Severity
  | matchesEmpty => .warning
  | _ => .error

/-- What the kind says about a rule. -/
def message (kind : DiagnosticKind) (rule : String) : String :=
  match kind with
  | emptyLanguage => rule ++ " can never match"
  | matchesEmpty => rule ++ " matches the empty string"
  | unreachableRule => rule ++ " is never matched: earlier rules match everything it does"
  | variableTrailingContext =>
    rule ++ " needs a fixed-length pattern or fixed-length trailing context"
  | anchorWithContext => rule ++ " combines `$` with a trailing context"
  | unknownStartCondition name => rule ++ " uses undeclared start condition `" ++ name ++ "`"

/-- The diagnostic that a rule has this problem. -/
def report (kind : DiagnosticKind) (rule : Rule) (id : Nat) : Diagnostic :=
  ⟨kind.severity, kind, some id, rule.position, kind.message (rule.displayName id)⟩

end DiagnosticKind

/-- All diagnostics so far. -/
abbrev Diagnostics := List Diagnostic

namespace Diagnostics

def errors (log : Diagnostics) : Diagnostics := log.filter fun d => d.severity = .error

def warnings (log : Diagnostics) : Diagnostics := log.filter fun d => d.severity = .warning

def hasErrors (log : Diagnostics) : Bool := log.any fun d => d.severity = .error

end Diagnostics

end Scangen
