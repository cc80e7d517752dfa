import Scangen.Spec.Basic

/-!
Calls that put a specification together. Each one answers with a number: the id of the condition that it
declares, or the id of the rule that it adds.
-/

namespace Scangen

inductive Call where
  | declare (name : String) (exclusive : Bool)
  | addRule (rule : Rule)

/-- The rule that a call adds. -/
def Call.rule? : Call → Option Rule
  | .declare _ _ => none
  | .addRule rule => some rule

/-- The condition that a call declares. -/
def Call.condition? : Call → Option StartCondition
  | .declare name exclusive => some ⟨name, exclusive⟩
  | .addRule _ => none

namespace Spec

/-- A name that is declared already is answered with its id, a new one with the next id. -/
def declaredId (spec : Spec) (name : String) : Nat :=
  (spec.conditionId name).getD spec.conditions.length

/-- The answer to a call, and the specification behind it. -/
def call (spec : Spec) : Call → Nat × Spec
  | .declare name exclusive => (spec.declaredId name, spec.declare name exclusive)
  | .addRule rule => (spec.rules.length, spec.addRule rule)

/-- The specification behind calls in a row. -/
def behind (calls : List Call) : Spec := calls.foldl (fun spec call => (spec.call call).2) initial

end Spec

end Scangen
