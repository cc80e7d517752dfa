import Scangen.Automaton.Thompson
import Scangen.Diagnostic

/-!
The automaton of a whole specification. Each rule adds a fragment that ends in an accepting state,
and the start states of its conditions lead to it. What is wrong with a rule is reported, and the
rule is built as well as possible all the same.
-/

namespace Scangen

/-- How the token is cut out of a match: either the body or the context needs a fixed length. -/
def Pattern.trailing (p : Pattern) : Except DiagnosticKind Trailing :=
  match p.context with
  | none => .ok .whole
  | some context =>
    if p.lineEnd then .error .anchorWithContext
    else
      match p.body.fixedLength, context.fixedLength with
      | some head, _ => .ok (.head head.toNat)
      | none, some tail => .ok (.tail tail.toNat)
      | none, none => .error .variableTrailingContext

/-- How the token is cut out of a match; where it cannot be, all of the match counts. -/
def Pattern.cut (p : Pattern) : Trailing :=
  match p.trailing with
  | .ok trailing => trailing
  | .error _ => .whole

def Pattern.tag (p : Pattern) (id : Nat) : Tag := ⟨id, id, p.cut⟩

/-- The states of a pattern: where it starts, where its body ends and where all of it ends. -/
structure PatternFragment where
  entry : Nat
  bodyExit : Nat
  exit : Nat

/-- What reads the end of a line; nothing does where no rule asks for it. -/
def Partition.lineEndLabel (partition : Partition) : IndexSet :=
  match partition.lineEnd with
  | some classId => IndexSet.ofList [classId]
  | none => ∅

/-- Body, context and end of the line in a row. -/
def Pattern.fragment (partition : Partition) (charset : Charset) (p : Pattern) (arena : Arena) :
    Arena × PatternFragment :=
  let (arena, body) := p.body.fragment partition charset arena
  let (arena, exit) :=
    match p.context with
    | none => (arena, body.exit)
    | some context =>
      let (arena, following) := context.fragment partition charset arena
      (arena.epsilon body.exit following.entry, following.exit)
  if p.lineEnd then
    let anchored := arena.size
    (arena.newState.edge exit partition.lineEndLabel anchored, ⟨body.entry, body.exit, anchored⟩)
  else (arena, ⟨body.entry, body.exit, exit⟩)

namespace Nfa

/-- Lets a condition start with a pattern. The scanner reads the start of a line first where there
is one, so every pattern has to accept it; only those that do not ask for it can do without. -/
def addEntry (partition : Partition) (lineStart : Bool) (entry : Nat)
    (arena : Arena) (condition : Nat) :
    Arena :=
  let arena := if lineStart then arena else arena.epsilon condition entry
  match partition.lineStart with
  | some classId => arena.edge condition (IndexSet.ofList [classId]) entry
  | none => arena

/-- The problems of a pattern whose states have been built. -/
def problems (p : Pattern) (arena : Arena) (fragment : PatternFragment) : List DiagnosticKind :=
  (match p.trailing with
    | .ok _ => []
    | .error kind => [kind]) ++
  (if arena.reachesSilently fragment.entry fragment.bodyExit then [.matchesEmpty] else []) ++
  (if arena.reaches fragment.entry fragment.exit then [] else [.emptyLanguage])

/-- Adds the states of a rule. What happens at the end of the input is no matter of the
automaton. -/
def addRule (spec : Spec) (partition : Partition) (charset : Charset) (built : Arena × Diagnostics)
    (rule : Rule) (id : Nat) : Arena × Diagnostics :=
  let (arena, log) := built
  let unknown := (spec.unknownConditions rule.conditions).map .unknownStartCondition
  let report (kinds : List DiagnosticKind) : Diagnostics :=
    kinds.map fun kind => kind.report rule id
  match rule.pattern with
  | .endOfInput => (arena, log ++ report unknown)
  | .matching pattern =>
    let (arena, fragment) := pattern.fragment partition charset arena
    let accepting := arena.accept fragment.exit (pattern.tag id)
    ((spec.activeConditions rule.conditions).foldl
        (addEntry partition pattern.lineStart fragment.entry) accepting,
      log ++ report unknown ++ report (problems pattern arena fragment))

/-- One start state for each condition and a fragment for each rule, with all problems found. -/
def ofSpec (spec : Spec) (partition : Partition) (charset : Charset) : Nfa × Diagnostics :=
  let count := spec.conditions.length
  let (arena, log) := spec.rules.zipIdx.foldl (fun built (rule, id) =>
    addRule spec partition charset built rule id) (Array.replicate count State.blank, [])
  ({ states := arena, starts := List.range count, numClasses := partition.numClasses
     lineStart := partition.lineStart, lineEnd := partition.lineEnd }, log)

end Nfa

end Scangen
