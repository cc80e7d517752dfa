import Scangen.Build
import Scangen.Text.Digraph

/-!
The graph of a deterministic automaton: a node for each state, and an edge to each successor that says on
which classes of symbols it is taken.
-/

namespace Scangen

/-- A visible symbol is shown as it is, any other one by its number. -/
def describeCharacter (c : Nat) : String :=
  if c ≤ 0x20 ∨ 0x7F ≤ c ∧ c ≤ 0x9F ∨ ¬c.isValidChar then "\\x" ++ Text.hex c
  else String.singleton (Char.ofNat c)

def SymbolRange.describeBriefly (r : SymbolRange) : String :=
  if r.low = r.high then describeCharacter r.low
  else describeCharacter r.low ++ "-" ++ describeCharacter r.high

/-- The symbols of a class; the ends of a line look as in patterns. -/
def Partition.describeClass (p : Partition) (classId : Nat) : String :=
  if p.lineStart = some classId then "^"
  else if p.lineEnd = some classId then "$"
  else
    match p.classSets[classId]? with
    | some symbols => String.join (symbols.ranges.map SymbolRange.describeBriefly)
    | none => ""

namespace Automaton

def stateLabel (a : Automaton) (spec : Spec) (state : Nat) : String :=
  match (a.dfa.accept state).bind fun tag => spec.rules[tag.rule]?.map (·.displayName tag.rule) with
  | some name => s!"{state} [{name}]"
  | none => toString state

/-- The edges of a state, in the order of the first class that leads to each target. -/
def edgesFrom (a : Automaton) (state : Nat) : List Text.Edge :=
  let successors := a.dfa.row state
  (distinct (successors.filterMap id)).map fun target =>
    let classes := (successors.zipIdx.filter fun (next, _) => next = some target).map Prod.snd
    ⟨state, target, " ".intercalate (classes.map a.partition.describeClass)⟩

def graph (a : Automaton) (spec : Spec) : Text.Digraph :=
  let states := List.range a.dfa.states.size
  ⟨states.map (a.stateLabel spec), states.flatMap a.edgesFrom⟩

end Automaton

end Scangen
