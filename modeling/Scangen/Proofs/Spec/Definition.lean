import Scangen.Proofs.Pattern.Read
import Scangen.Spec.Definition

/-!
What a definition text declares.
-/

namespace Scangen

namespace Definition

theorem isIdentifier_of_splitName {line name : List Char}
    (found : (splitName line).1 = some name) : isIdentifier name := by
  unfold splitName at found
  split at found
  next first rest _ =>
    split at found
    next named =>
      obtain rfl : Text.trim first = name := by simpa using found
      simpa using (Bool.and_eq_true_iff.mp named).1
    next => cases found
  next => cases found

theorem isIdentifier_of_readLine {number : Nat} {raw : List Char} {rule : Rule} {name : String}
    (made : readLine number raw = .ok (.rule rule)) (named : rule.name = some name) :
    isIdentifier name.toList := by
  unfold readLine at made
  dsimp only at made
  split at made
  next => cases made
  next =>
    split at made
    next =>
      split at made
      next => cases made
      next => cases made
    next =>
      have known : ∀ letters, (splitName (Text.trim raw)).1 = some letters →
          isIdentifier letters := fun letters => isIdentifier_of_splitName
      have naming : ∀ found : Option (List Char), (∀ letters, found = some letters →
          isIdentifier letters) → found.map String.ofList = some name → isIdentifier name.toList := by
        intro found known made
        obtain ⟨letters, there, rfl⟩ := Option.map_eq_some_iff.mp made
        simpa using known letters there
      split at made
      next =>
        cases made
        exact naming _ known named
      next =>
        split at made
        next => cases made
        next =>
          cases made
          exact naming _ known named

end Definition

namespace Spec

theorem rules_declare (spec : Spec) (name : String) (exclusive : Bool) :
    (spec.declare name exclusive).rules = spec.rules := by
  unfold declare
  split
  next => rfl
  next => rfl

theorem rules_declarations (spec : Spec) (names : List String) (exclusive : Bool) :
    (names.foldl (fun spec name => spec.declare name exclusive) spec).rules = spec.rules := by
  induction names generalizing spec with
  | nil => rfl
  | cons name rest ih => rw [List.foldl_cons, ih, rules_declare]

/-- The rules of a definition text have no names but identifiers. -/
theorem isIdentifier_of_ofText {text : List Char} {spec : Spec} (made : Spec.ofText text = .ok spec) :
    ∀ rule ∈ spec.rules, ∀ name ∈ rule.name, Definition.isIdentifier name.toList := by
  refine holds_of_foldlM (P := fun spec => ∀ rule ∈ spec.rules, ∀ name ∈ rule.name,
    Definition.isIdentifier name.toList) ?_ (by simp [initial]) made
  rintro before ⟨raw, index⟩ after stepped known
  obtain ⟨line, made, rfl⟩ := exists_of_map stepped
  cases line with
  | blank => exact known
  | declaration exclusive names =>
    rw [Definition.addLine, rules_declarations]
    exact known
  | rule added =>
    intro rule member name named
    rcases List.mem_append.mp member with old | new
    · exact known rule old name named
    · obtain rfl := List.mem_singleton.mp new
      exact Definition.isIdentifier_of_readLine made named

end Spec

end Scangen
