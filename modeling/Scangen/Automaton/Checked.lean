import Scangen.Automaton.Rules

/-!
Building the automaton of a specification over any classes. Where a literal or class of a rule is not made
of whole classes, the construction stops.
-/

namespace Scangen

/-- Adds the states of a fragment to an arena, if all sets that it reads are made of whole classes. -/
abbrev CheckedBuilder := Arena → Except SplitClass (Arena × Fragment)

namespace CheckedBuilder

def ofSet (partition : Partition) (s : SymbolSet) : CheckedBuilder := fun arena => do
  let classes ← partition.classesOf s
  let entry := arena.size
  let exit := arena.size + 1
  return (arena.newState.newState.edge entry classes exit, ⟨entry, exit⟩)

def empty : CheckedBuilder := fun arena => .ok (Builder.empty arena)

def append (first second : CheckedBuilder) : CheckedBuilder := fun arena => do
  let (arena, a) ← first arena
  let (arena, b) ← second arena
  return (arena.epsilon a.exit b.entry, ⟨a.entry, b.exit⟩)

def around (loops skips : Bool) (inner : CheckedBuilder) : CheckedBuilder := fun arena => do
  let built ← inner arena
  return Builder.around loops skips (fun _ => built) arena

def copies (inner : CheckedBuilder) : Nat → Arena → Nat → Except SplitClass (Arena × Nat)
  | 0, arena, cursor => .ok (arena, cursor)
  | count + 1, arena, cursor => do
    let (arena, fragment) ← inner arena
    copies inner count (arena.epsilon cursor fragment.entry) fragment.exit

def optionalCopies (inner : CheckedBuilder) (exit : Nat) :
    Nat → Arena → Nat → Except SplitClass (Arena × Nat)
  | 0, arena, cursor => .ok (arena, cursor)
  | count + 1, arena, cursor => do
    let (arena, fragment) ← inner arena
    optionalCopies inner exit count ((arena.epsilon cursor fragment.entry).epsilon cursor exit)
      fragment.exit

/-- What is repeated no times is not looked at. -/
def repetition (inner : CheckedBuilder) (least : Nat) (most : Option Nat) : CheckedBuilder :=
  fun arena => do
    let entry := arena.size
    let (arena, cursor) ← copies inner least arena.newState entry
    let exit := arena.size
    let arena := arena.newState
    match most with
    | none =>
      let (arena, fragment) ← around true true inner arena
      return ((arena.epsilon cursor fragment.entry).epsilon fragment.exit exit, ⟨entry, exit⟩)
    | some most =>
      let (arena, cursor) ← optionalCopies inner exit (most - least) arena cursor
      return (arena.epsilon cursor exit, ⟨entry, exit⟩)

def alternate (inner : CheckedBuilder) (entry exit : Nat) (arena : Arena) :
    Except SplitClass Arena := do
  let built ← inner arena
  return Builder.alternate (fun _ => built) entry exit arena

end CheckedBuilder

namespace Regex

mutual

def checkedFragment (partition : Partition) (charset : Charset) : Regex → CheckedBuilder
  | alternation alternates => fun arena => do
    let entry := arena.size
    let exit := arena.size + 1
    let arena ← checkedAlternates partition charset alternates entry exit arena.newState.newState
    return (arena, ⟨entry, exit⟩)
  | concatenation factors => checkedSequence partition charset factors
  | star inner => .around true true (checkedFragment partition charset inner)
  | plus inner => .around true false (checkedFragment partition charset inner)
  | optional inner => .around false true (checkedFragment partition charset inner)
  | repetition inner least most => .repetition (checkedFragment partition charset inner) least most
  | symbol c => .ofSet partition (literalSet c charset)
  | symbolClass c => .ofSet partition (c.resolve charset)
  | empty => .empty

def checkedAlternates (partition : Partition) (charset : Charset) :
    List Regex → Nat → Nat → Arena → Except SplitClass Arena
  | [], _, _, arena => .ok arena
  | first :: rest, entry, exit, arena => do
    let arena ← CheckedBuilder.alternate (checkedFragment partition charset first) entry exit arena
    checkedAlternates partition charset rest entry exit arena

def checkedSequence (partition : Partition) (charset : Charset) : List Regex → CheckedBuilder
  | [] => .empty
  | [only] => checkedFragment partition charset only
  | first :: second :: rest =>
    .append (checkedFragment partition charset first)
      (checkedSequence partition charset (second :: rest))

end

end Regex

/-- A context behind the state where the body ends, if there is one. -/
def Pattern.checkedContext (partition : Partition) (charset : Charset) :
    Option Regex → Arena → Nat → Except SplitClass (Arena × Nat)
  | none, arena, exit => .ok (arena, exit)
  | some context, arena, exit => do
    let (arena, following) ← context.checkedFragment partition charset arena
    return (arena.epsilon exit following.entry, following.exit)

def Pattern.checkedFragment (partition : Partition) (charset : Charset) (p : Pattern)
    (arena : Arena) : Except SplitClass (Arena × PatternFragment) := do
  let (arena, body) ← p.body.checkedFragment partition charset arena
  let (arena, exit) ← checkedContext partition charset p.context arena body.exit
  if p.lineEnd then
    let anchored := arena.size
    return (arena.newState.edge exit partition.lineEndLabel anchored,
      ⟨body.entry, body.exit, anchored⟩)
  else return (arena, ⟨body.entry, body.exit, exit⟩)

namespace Nfa

def checkedAddRule (spec : Spec) (partition : Partition) (charset : Charset)
    (built : Arena × Diagnostics) (rule : Rule) (id : Nat) :
    Except SplitClass (Arena × Diagnostics) := do
  let (arena, log) := built
  let unknown := (spec.unknownConditions rule.conditions).map .unknownStartCondition
  let report (kinds : List DiagnosticKind) : Diagnostics :=
    kinds.map fun kind => kind.report rule id
  match rule.pattern with
  | .endOfInput => return (arena, log ++ report unknown)
  | .matching pattern =>
    let (arena, fragment) ← pattern.checkedFragment partition charset arena
    let accepting := arena.accept fragment.exit (pattern.tag id)
    return ((spec.activeConditions rule.conditions).foldl
        (addEntry partition pattern.lineStart fragment.entry) accepting,
      log ++ report unknown ++ report (problems pattern arena fragment))

/-- The automaton of all rules with all problems found, or the first set that is not made of whole
classes. -/
def checkedOfSpec (spec : Spec) (partition : Partition) (charset : Charset) :
    Except SplitClass (Nfa × Diagnostics) := do
  let count := spec.conditions.length
  let (arena, log) ← spec.rules.zipIdx.foldlM (fun built (rule, id) =>
    checkedAddRule spec partition charset built rule id) (Array.replicate count State.blank, [])
  return ({ states := arena, starts := List.range count, numClasses := partition.numClasses
            lineStart := partition.lineStart, lineEnd := partition.lineEnd }, log)

end Nfa

end Scangen
