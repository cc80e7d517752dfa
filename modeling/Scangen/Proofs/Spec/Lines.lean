import Mathlib.Data.List.Forall2
import Scangen.Proofs.Finite.Numbering
import Scangen.Proofs.Spec.Reading

/-!
Definition texts are read line by line: the rules are those of the lines that have one, and the first
line that has something wrong decides the error.
-/

namespace Scangen

section Steps

variable {ε α β : Type} {P : List α → β → Prop} {f : β → α → Except ε β} {front l : List α}
  {start : β}

/-- What each step keeps holds at the end, or else in front of the step that fails. -/
theorem prefix_of_foldlM
    (kept : ∀ front before a after, P front before → f before a = .ok after →
      P (front ++ [a]) after) (known : P front start) :
    (∀ done, l.foldlM f start = .ok done → P (front ++ l) done) ∧
    ∀ e, l.foldlM f start = .error e → ∃ before a after reached, l = before ++ a :: after ∧
      P (front ++ before) reached ∧ f reached a = .error e := by
  induction l generalizing front start with
  | nil =>
    refine ⟨fun done made => ?_, fun e failed => by cases failed⟩
    cases made
    rwa [List.append_nil]
  | cons a rest ih =>
    rw [List.foldlM_cons]
    cases stepped : f start a with
    | error e =>
      refine ⟨fun done made => (by cases made), fun _ failed => ?_⟩
      cases failed
      exact ⟨[], a, rest, start, rfl, by rwa [List.append_nil], stepped⟩
    | ok next =>
      obtain ⟨done, failed⟩ := ih (kept front start a next known stepped)
      rw [List.append_assoc, List.singleton_append] at done
      refine ⟨done, fun e found => ?_⟩
      obtain ⟨before, b, after, reached, rfl, held, step⟩ := failed e found
      rw [List.append_assoc, List.singleton_append] at held
      exact ⟨a :: before, b, after, reached, rfl, held, step⟩

end Steps

namespace Spec

variable {spec : Spec} {declared : List StartCondition} {front : List (List Char × Nat)}
  {line : List Char × Nat}

/-- Of several declarations of a name, the first one counts. -/
structure Declares (declared conditions : List StartCondition) : Prop where
  names : conditions.map StartCondition.name = distinct (declared.map StartCondition.name)
  first : ∀ condition ∈ conditions,
    declared.find? (fun other => other.name = condition.name) = some condition

theorem Declares.declare (declares : Declares declared spec.conditions) (name : String)
    (exclusive : Bool) :
    Declares (declared ++ [⟨name, exclusive⟩]) (spec.declare name exclusive).conditions := by
  have names (added : StartCondition) : distinct ((declared ++ [added]).map StartCondition.name) =
      addNew (spec.conditions.map StartCondition.name) [added.name] := by
    rw [List.map_append, distinct_append, ← declares.names]
    rfl
  have old (added : StartCondition) : ∀ condition ∈ spec.conditions, (declared ++ [added]).find?
      (fun other => other.name = condition.name) = some condition := by
    intro condition member
    rw [List.find?_append, declares.first condition member]
    rfl
  unfold Spec.declare
  split
  next position found =>
    obtain ⟨inside, there, -⟩ := List.findIdx?_eq_some_iff_getElem.mp found
    have known : name ∈ spec.conditions.map StartCondition.name :=
      List.mem_map.mpr ⟨_, List.getElem_mem inside, of_decide_eq_true there⟩
    exact ⟨by rw [names, addNew, if_pos known, addNew], old _⟩
  next nothing =>
    have fresh : name ∉ spec.conditions.map StartCondition.name := by
      rw [List.mem_map]
      rintro ⟨condition, member, same⟩
      have different := List.findIdx?_eq_none_iff.mp nothing condition member
      exact of_decide_eq_false different same
    refine ⟨by rw [names, addNew, if_neg fresh, addNew, List.map_append]; rfl, ?_⟩
    intro condition member
    rcases List.mem_append.mp member with known | added
    · exact old _ condition known
    · obtain rfl := List.mem_singleton.mp added
      have absent : declared.find? (fun other => other.name = name) = none := by
        rw [List.find?_eq_none]
        intro other there same
        rw [declares.names, mem_distinct] at fresh
        exact fresh (List.mem_map.mpr ⟨other, there, of_decide_eq_true same⟩)
      rw [List.find?_append, absent]
      simp

theorem Declares.declarations (declares : Declares declared spec.conditions) (names : List String)
    (exclusive : Bool) :
    Declares (declared ++ names.map fun name => ⟨name, exclusive⟩)
      (names.foldl (fun spec name => spec.declare name exclusive) spec).conditions := by
  induction names generalizing spec declared with
  | nil => rwa [List.map_nil, List.append_nil]
  | cons name rest ih =>
    have more := ih (declares.declare name exclusive)
    rwa [List.append_assoc] at more

/-- The lines with their numbers, from one on. -/
def numberedLines (text : List Char) : List (List Char × Nat) := (Text.lines text).zipIdx 1

/-- The specification says what these lines say. -/
structure OfLines (lines : List (List Char × Nat)) (spec : Spec) : Prop where
  rules : List.Forall₂ Definition.States (lines.filter fun line => Definition.isRule line.1)
    spec.rules
  conditions : Declares
    (⟨initialName, false⟩ :: lines.flatMap fun line => Definition.declared line.1) spec.conditions
  sound : ∀ line ∈ lines, ∀ e, ¬Definition.Fails line e

theorem OfLines.initial : OfLines [] Spec.initial :=
  ⟨.nil, ⟨rfl, by simp [Spec.initial]⟩, by simp⟩

/-- One more line adds what it says. -/
theorem OfLines.addLine {said : Definition.Line} (known : OfLines front spec)
    (read : Definition.readLine line.2 line.1 = .ok said) :
    OfLines (front ++ [line]) (Definition.addLine spec said) := by
  have sound : ∀ other ∈ front ++ [line], ∀ e, ¬Definition.Fails other e := by
    intro other member
    rcases List.mem_append.mp member with old | new
    · exact known.sound other old
    · rw [List.mem_singleton.mp new]
      exact Definition.not_fails_of_readLine read
  have reads := Definition.readLine_reads line.1 line.2
  rw [read] at reads
  cases reads with
  | silent plain nothing =>
    refine ⟨?_, ?_, sound⟩
    · simpa [Definition.addLine, plain] using known.rules
    · simpa [Definition.addLine, nothing] using known.conditions
  | declaration plain made =>
    refine ⟨?_, ?_, sound⟩
    · rw [Definition.addLine, rules_declarations]
      simpa [plain] using known.rules
    · simpa [Definition.addLine, made] using known.conditions.declarations _ _
  | rule made nothing states =>
    refine ⟨?_, ?_, sound⟩
    · have single : [line].filter (fun line => Definition.isRule line.1) = [line] := by simp [made]
      rw [List.filter_append, single]
      exact List.rel_append known.rules (.cons states .nil)
    · simpa [Definition.addLine, addRule, nothing] using known.conditions

theorem ofText_eq_foldlM (text : List Char) :
    Spec.ofText text = (numberedLines text).foldlM (fun spec line =>
      (Definition.readLine line.2 line.1).map (Definition.addLine spec)) Spec.initial := by
  rw [numberedLines, ← Nat.add_zero 1, ← List.map_snd_add_zipIdx_eq_zipIdx, List.foldlM_map]
  rfl

/-- All lines have been read, or the first one that has something wrong stops the reader. -/
theorem ofLines_or_fails (text : List Char) :
    (∀ spec, Spec.ofText text = .ok spec → OfLines (numberedLines text) spec) ∧
    ∀ e, Spec.ofText text = .error e → ∃ before line after,
      numberedLines text = before ++ line :: after ∧
      (∀ line ∈ before, ∀ e, ¬Definition.Fails line e) ∧ Definition.Fails line e := by
  have kept : ∀ front before line after, OfLines front before →
      (Definition.readLine line.2 line.1).map (Definition.addLine before) = .ok after →
      OfLines (front ++ [line]) after := by
    intro front before line after known stepped
    obtain ⟨said, read, rfl⟩ := exists_of_map stepped
    exact known.addLine read
  obtain ⟨done, failed⟩ := prefix_of_foldlM (l := numberedLines text) kept OfLines.initial
  rw [← ofText_eq_foldlM] at done failed
  refine ⟨done, fun e made => ?_⟩
  obtain ⟨before, line, after, reached, split, known, stopped⟩ := failed e made
  refine ⟨before, line, after, split, known.sound, ?_⟩
  have reads := Definition.readLine_reads line.1 line.2
  cases read : Definition.readLine line.2 line.1 with
  | ok said =>
    rw [read] at stopped
    cases stopped
  | error cause =>
    rw [read] at stopped reads
    cases stopped
    cases reads with
    | error fails => exact fails

/-- What a text is read as. -/
inductive Reading (text : List Char) : Except DefinitionError Spec → Prop where
  | ok {spec : Spec} (made : OfLines (numberedLines text) spec) : Reading text (.ok spec)
  /-- The lines in front of the one that fails have nothing wrong with them. -/
  | error {before after : List (List Char × Nat)} {line : List Char × Nat} {e : DefinitionError}
      (split : numberedLines text = before ++ line :: after)
      (sound : ∀ line ∈ before, ∀ e, ¬Definition.Fails line e) (fails : Definition.Fails line e) :
      Reading text (.error e)

end Spec

end Scangen
