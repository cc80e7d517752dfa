import Scangen.Proofs.Spec.Lines
import Scangen.Spec.Writer

/-!
Reading back definitions that are written in full. A pattern may hold all that stands between names,
conditions and patterns elsewhere: the first colon and the first bracket are those in front of it.
-/

namespace Scangen

namespace Text

/-- A carriage return in front of the line feed would be lost. -/
theorem lines_append_newline {line : List Char} (single : '\n' ∉ line)
    (ended : line.getLast? ≠ some '\r') (rest : List Char) :
    lines (line ++ '\n' :: rest) = line :: lines rest := by
  induction line with
  | nil => rfl
  | cons c line ih =>
    obtain ⟨first, later⟩ := not_or.mp (mt List.mem_cons.mpr single)
    rw [List.cons_append, lines]
    · cases line with
      | nil => rfl
      | cons d line =>
        rw [ih later (by simpa using ended)]
    · exact fun same => first same.symm
    · rintro behind rfl same
      cases line with
      | nil => exact ended rfl
      | cons d line =>
        cases same
        exact later List.mem_cons_self

end Text

namespace WrittenLine

variable {name pattern : List Char} {conditions : Option (List (List Char))}
  {names : List (List Char)} {line : WrittenLine} {lines : List WrittenLine}

/-- Names of conditions are words, all other names are identifiers. A pattern may hold anything but
the end of a line. -/
def WellFormed : WrittenLine → Prop
  | declaration _ names =>
    names ≠ [] ∧ ∀ name ∈ names, name ≠ [] ∧ ∀ c ∈ name, Text.isBlank c = false
  | rule name conditions pattern =>
    Definition.isIdentifier name ∧
      (∀ names ∈ conditions, names ≠ [] ∧ ∀ name ∈ names, Definition.isIdentifier name) ∧
      pattern ≠ [] ∧ '\n' ∉ pattern ∧ (∀ c ∈ pattern.getLast?, Text.isBlank c = false) ∧
      (pattern = Definition.endOfInput ∨ ∃ p, Pattern.ofText pattern = .ok p)

def ruleConditions (conditions : Option (List (List Char))) : RuleConditions :=
  conditions.elim .all fun names => .named (names.map String.ofList)

theorem not_mem_conditionText {c : Char}
    (listed : ∀ names ∈ conditions, ∀ name ∈ names, Definition.isIdentifier name)
    (foreign : Generated.isIdentifierCharacter c = false) (other : c ≠ '*') (comma : c ≠ ',') :
    c ∉ conditionText conditions := by
  cases conditions with
  | none => simpa [conditionText] using other
  | some names =>
    intro member
    rcases Text.mem_intercalate member with same | ⟨name, inside, found⟩
    · exact comma same
    · exact Definition.not_mem_of_isIdentifier (listed names rfl name inside) foreign found

/-- The first colon is the one behind the name. -/
theorem nameSplit_written (identifier : Definition.isIdentifier name) (behind : List Char) :
    Definition.NameSplit (name ++ ':' :: ' ' :: '<' :: behind) (some name) ('<' :: behind) := by
  have split : Definition.NameSplit (name ++ [] ++ ':' :: ' ' :: ([] ++ '<' :: behind)) (some name)
      ('<' :: behind) :=
    .present identifier (by simp) (by simp) (List.dropWhile_cons_of_neg (by decide))
  rwa [List.append_nil, List.nil_append] at split

/-- The first closing bracket is the one behind the conditions. -/
theorem conditionSplit_written
    (listed : ∀ names ∈ conditions, names ≠ [] ∧ ∀ name ∈ names, Definition.isIdentifier name)
    (nonempty : pattern ≠ []) :
    Definition.ConditionSplit ('<' :: (conditionText conditions ++ '>' :: pattern))
      (ruleConditions conditions) pattern := by
  have single : '>' ∉ conditionText conditions :=
    not_mem_conditionText (fun names member => (listed names member).2) (by decide) (by decide)
      (by decide)
  refine .present single ?_ nonempty
  cases conditions with
  | none => exact .all
  | some names =>
    obtain ⟨some_name, identifiers⟩ := listed names rfl
    have parts : Text.pieces (· = ',') (conditionText (some names)) = names :=
      Text.pieces_intercalate (by decide) some_name fun name member c inside =>
        decide_eq_false fun comma => Definition.not_mem_of_isIdentifier (identifiers name member)
          (by decide) (comma ▸ inside)
    have trimmed : names.map Text.trim = names := (List.map_congr_left fun name member =>
      Text.trim_eq_self (Definition.isBlank_of_isIdentifier (identifiers name member))).trans
        (List.map_id names)
    exact .named (by rw [parts, trimmed]) identifiers

theorem directive_declaration (exclusive : Bool) (nonempty : names ≠ []) :
    Definition.directive (declaration exclusive names).text =
      some (if exclusive then 'x' else 's', names.flatMap (' ' :: ·)) := by
  cases names with
  | nil => exact absurd rfl nonempty
  | cons name rest => cases exclusive <;> rfl

theorem text_rule (name pattern : List Char) (conditions : Option (List (List Char))) :
    (rule name conditions pattern).text =
      name ++ ':' :: ' ' :: ('<' :: conditionText conditions ++ '>' :: pattern) := by
  simp [text]

/-- A rule begins with a letter. -/
theorem exists_head_text (identifier : Definition.isIdentifier name)
    (conditions : Option (List (List Char))) (pattern : List Char) :
    ∃ first rest, (rule name conditions pattern).text = first :: rest ∧
      Generated.isIdentifierCharacter first := by
  have allowed := Generated.isIdentifierCharacter_of_isIdentifier identifier
  rw [text_rule]
  cases name with
  | nil => cases identifier
  | cons first rest => exact ⟨first, _, rfl, allowed first List.mem_cons_self⟩

theorem trim_text (wellFormed : line.WellFormed) : Text.trim line.text = line.text := by
  cases line with
  | declaration exclusive names =>
    obtain ⟨some_name, words⟩ := wellFormed
    rcases List.eq_nil_or_concat names with rfl | ⟨others, last, rfl⟩
    · exact absurd rfl some_name
    · obtain ⟨nonempty, visible⟩ := words last (by simp)
      have parts : (declaration exclusive (others.concat last)).text =
          ('%' :: (if exclusive then 'x' else 's') :: others.flatMap (' ' :: ·) ++ [' ']) ++
            last := by
        simp [text]
      refine Text.trim_of_ends parts ?_ nonempty fun c ends => visible c (List.mem_of_getLast? ends)
      rintro c ⟨⟩
      rfl
  | rule name conditions pattern =>
    obtain ⟨identifier, -, nonempty, -, visible, -⟩ := wellFormed
    obtain ⟨first, rest, begins, letter⟩ := exists_head_text identifier conditions pattern
    have parts : (rule name conditions pattern).text =
        (name ++ [':', ' ', '<'] ++ conditionText conditions ++ ['>']) ++ pattern := by
      simp [text]
    refine Text.trim_of_ends parts ?_ nonempty visible
    rw [begins]
    rintro c ⟨⟩
    exact Definition.isBlank_of_isIdentifierCharacter letter

theorem newline_not_mem_text (wellFormed : line.WellFormed) : '\n' ∉ line.text := by
  cases line with
  | declaration exclusive names =>
    obtain ⟨-, words⟩ := wellFormed
    have plain : ∀ name ∈ names, '\n' ∉ name := fun name member inside =>
      absurd ((words name member).2 _ inside) (by decide)
    cases exclusive <;> simpa [text] using plain
  | rule name conditions pattern =>
    obtain ⟨identifier, listed, -, single, -⟩ := wellFormed
    have first := Definition.not_mem_of_isIdentifier identifier (c := '\n') (by decide)
    have second : '\n' ∉ conditionText conditions :=
      not_mem_conditionText (fun names member => (listed names member).2) (by decide) (by decide)
        (by decide)
    simp [text, first, second, single]

theorem lines_writeDefinition (wellFormed : ∀ line ∈ lines, line.WellFormed) :
    Text.lines (writeDefinition lines) = lines.map text := by
  unfold writeDefinition
  induction lines with
  | nil => rfl
  | cons line rest ih =>
    obtain ⟨first, later⟩ := List.forall_mem_cons.mp wellFormed
    have ended : line.text.getLast? ≠ some '\r' := by
      intro last
      have trimmed : Text.trimEnd line.text = line.text := by
        rw [← trim_text first, Text.trim, Text.trimEnd_trimEnd]
      exact absurd (Text.trimEnd_eq_self_iff.mp trimmed '\r' last) (by decide)
    rw [List.flatMap_cons, List.append_assoc, List.singleton_append,
      Text.lines_append_newline (newline_not_mem_text first) ended, ih later, List.map_cons]

/-- The line is that of a rule. -/
def isRule : WrittenLine → Bool
  | declaration _ _ => false
  | rule _ _ _ => true

/-- The conditions that a line declares. -/
def declared : WrittenLine → List StartCondition
  | declaration exclusive names => names.map fun name => ⟨String.ofList name, exclusive⟩
  | rule _ _ _ => []

theorem directive_rule (identifier : Definition.isIdentifier name)
    (conditions : Option (List (List Char))) (pattern : List Char) :
    Definition.directive (rule name conditions pattern).text = none := by
  obtain ⟨first, rest, begins, letter⟩ := exists_head_text identifier conditions pattern
  cases found : Definition.directive (rule name conditions pattern).text with
  | none => rfl
  | some declaration =>
    have percent := (Definition.directive_eq_some_iff.mp found).1
    rw [begins] at percent
    cases percent
    exact absurd letter (by decide)

theorem isRule_text (wellFormed : line.WellFormed) : Definition.isRule line.text = line.isRule := by
  rw [Definition.isRule, Definition.isSilent, trim_text wellFormed]
  cases line with
  | declaration exclusive names =>
    rw [directive_declaration exclusive wellFormed.1, Option.isNone_some, Bool.and_false]
    rfl
  | rule name conditions pattern =>
    obtain ⟨first, rest, begins, letter⟩ := exists_head_text wellFormed.1 conditions pattern
    have other : first ≠ '#' := by
      rintro rfl
      exact absurd letter (by decide)
    rw [directive_rule wellFormed.1, begins]
    simp [other, isRule]

theorem declared_text (wellFormed : line.WellFormed) :
    Definition.declared line.text = line.declared := by
  rw [Definition.declared, trim_text wellFormed]
  cases line with
  | declaration exclusive names =>
    obtain ⟨some_name, words⟩ := wellFormed
    have parts := Text.words_flatMap (fun name member => (words name member).2)
      fun name member => (words name member).1
    rw [directive_declaration exclusive some_name, Option.elim_some, parts]
    cases exclusive <;> rfl
  | rule name conditions pattern => rw [directive_rule wellFormed.1]; rfl

/-- A line that is well-formed is taken apart as it was put together. -/
theorem eq_of_parts {column : Nat} {found : Option (List Char)} {active : RuleConditions}
    {behind : List Char} (wellFormed : (rule name conditions pattern).WellFormed)
    (parts : Definition.Parts (rule name conditions pattern).text column found active behind) :
    found = some name ∧ active = ruleConditions conditions ∧ behind = pattern := by
  have trimmed := trim_text wellFormed
  obtain ⟨identifier, listed, nonempty, -⟩ := wellFormed
  have named := nameSplit_written identifier (conditionText conditions ++ '>' :: pattern)
  rw [← List.cons_append, ← text_rule, ← trimmed] at named
  obtain ⟨first, second⟩ := parts.splits
  rw [named.splitName_eq (Text.trimStart_trim _)] at first second
  rw [List.cons_append, (conditionSplit_written listed nonempty).splitConditions_eq] at second
  cases second
  exact ⟨first.symm, rfl, rfl⟩

/-- Nothing is wrong with a line that is well-formed. -/
theorem not_fails_text (wellFormed : line.WellFormed) (number : Nat) (e : DefinitionError) :
    ¬Definition.Fails (line.text, number) e := by
  cases line with
  | declaration exclusive names =>
    have trimmed := trim_text wellFormed
    have plain := isRule_text wellFormed
    obtain ⟨some_name, words⟩ := wellFormed
    rintro (⟨found, nothing⟩ | ⟨made⟩)
    · rw [trimmed, directive_declaration exclusive some_name] at found
      cases found
      rw [Text.words_flatMap (fun name member => (words name member).2) fun name member =>
        (words name member).1] at nothing
      exact some_name nothing
    · rw [plain] at made
      cases made
  | rule name conditions pattern =>
    rintro (⟨found⟩ | ⟨made, parts, other, failed⟩)
    · rw [trim_text wellFormed, directive_rule wellFormed.1] at found
      cases found
    · obtain ⟨-, -, rfl⟩ := eq_of_parts wellFormed parts
      rcases wellFormed.2.2.2.2.2 with eof | ⟨p, read⟩
      · exact other eof
      · rw [read] at failed
        cases failed

/-- The rule is the one that is written on a line. -/
inductive Restores : WrittenLine × Nat → Rule → Prop where
  | intro {name text : List Char} {conditions : Option (List (List Char))} {number column : Nat}
      {pattern : RulePattern} (read : Definition.PatternOf text pattern) :
      Restores (rule name conditions text, number)
        ⟨some (String.ofList name), pattern, ruleConditions conditions, ⟨number, column⟩⟩

theorem restores_of_states {number : Nat} {made : Rule} (wellFormed : line.WellFormed)
    (stated : line.isRule) (states : Definition.States (line.text, number) made) :
    Restores (line, number) made := by
  cases line with
  | declaration exclusive names => cases stated
  | rule name conditions pattern =>
    cases states with
    | intro parts read =>
      obtain ⟨rfl, rfl, rfl⟩ := eq_of_parts wellFormed parts
      exact .intro read

/-- What is read from lines that are well-formed is what is written on them. -/
theorem restores_of_ofLines {spec : Spec} (wellFormed : ∀ line ∈ lines, line.WellFormed)
    (read : Spec.OfLines ((lines.zipIdx 1).map (Prod.map text id)) spec) :
    List.Forall₂ Restores ((lines.zipIdx 1).filter fun line => line.1.isRule) spec.rules ∧
      Spec.Declares (⟨Spec.initialName, false⟩ :: lines.flatMap declared) spec.conditions := by
  have member : ∀ line ∈ lines.zipIdx 1, line.1.WellFormed := fun line inside =>
    wellFormed line.1 (List.fst_mem_of_mem_zipIdx inside)
  have chosen : ((lines.zipIdx 1).map (Prod.map text id)).filter
      (fun line => Definition.isRule line.1) =
      ((lines.zipIdx 1).filter fun line => line.1.isRule).map (Prod.map text id) := by
    rw [List.filter_map]
    exact congrArg _ (List.filter_congr fun line inside => isRule_text (member line inside))
  have known : ∀ line ∈ (lines.zipIdx 1).filter (fun line => line.1.isRule),
      line.1.WellFormed ∧ line.1.isRule := by
    intro line inside
    obtain ⟨listed, stated⟩ := List.mem_filter.mp inside
    exact ⟨member line listed, stated⟩
  have same : ((lines.zipIdx 1).map (Prod.map text id)).flatMap
      (fun line => Definition.declared line.1) = lines.flatMap declared := by
    have numbered : lines.flatMap declared =
        (lines.zipIdx 1).flatMap fun line => line.1.declared := by
      conv_lhs => rw [← List.zipIdx_map_fst 1 lines]
      rw [List.flatMap_map]
    rw [numbered, List.flatMap_map]
    exact List.flatMap_congr fun line inside => declared_text (member line inside)
  obtain ⟨rules, conditions, -⟩ := read
  rw [chosen, List.forall₂_map_left_iff] at rules
  rw [same] at conditions
  refine ⟨List.Forall₂.imp (fun line made both => ?_)
    ((List.forall₂_and_left _ _).mpr ⟨known, rules⟩), conditions⟩
  exact restores_of_states both.1.1 both.1.2 both.2

end WrittenLine

/-- A definition that is written in full is read as it was written: every rule has its name, its
conditions, its pattern and the number of its line, and the conditions come in the order in which
they are declared. -/
theorem ofText_writeDefinition {lines : List WrittenLine}
    (wellFormed : ∀ line ∈ lines, line.WellFormed) :
    ∃ spec, Spec.ofText (writeDefinition lines) = .ok spec ∧
      List.Forall₂ WrittenLine.Restores ((lines.zipIdx 1).filter fun line => line.1.isRule)
        spec.rules ∧
      Spec.Declares (⟨Spec.initialName, false⟩ :: lines.flatMap WrittenLine.declared)
        spec.conditions := by
  have numbered : Spec.numberedLines (writeDefinition lines) =
      (lines.zipIdx 1).map (Prod.map WrittenLine.text id) := by
    rw [Spec.numberedLines, WrittenLine.lines_writeDefinition wellFormed, List.zipIdx_map]
  obtain ⟨read, failed⟩ := Spec.ofLines_or_fails (writeDefinition lines)
  rw [numbered] at read failed
  cases made : Spec.ofText (writeDefinition lines) with
  | error e =>
    obtain ⟨before, line, after, parts, -, fails⟩ := failed e made
    have inside : line ∈ (lines.zipIdx 1).map (Prod.map WrittenLine.text id) := by simp [parts]
    obtain ⟨written, listed, rfl⟩ := List.mem_map.mp inside
    have known := wellFormed written.1 (List.fst_mem_of_mem_zipIdx listed)
    exact absurd fails (WrittenLine.not_fails_text known _ e)
  | ok spec => exact ⟨spec, rfl, WrittenLine.restores_of_ofLines wellFormed (read spec made)⟩

/-- A pattern with all that names and conditions are told by, and a condition that no rule can
name. -/
def deceptiveLines : List WrittenLine :=
  [.declaration true ["STRING".toList, "a,b>".toList],
    .rule "text".toList (some ["STRING".toList, "STRING".toList]) " <A>b: \"#\",%s>".toList,
    .declaration false ["STRING".toList],
    .rule "_end".toList none Definition.endOfInput]

theorem deceptiveLines_read :
    (∀ line ∈ deceptiveLines, line.WellFormed) ∧
    ∃ spec, Spec.ofText (writeDefinition deceptiveLines) = .ok spec ∧
      List.Forall₂ WrittenLine.Restores
        ((deceptiveLines.zipIdx 1).filter fun line => line.1.isRule) spec.rules ∧
      Spec.Declares (⟨Spec.initialName, false⟩ :: deceptiveLines.flatMap WrittenLine.declared)
        spec.conditions := by
  have wellFormed : ∀ line ∈ deceptiveLines, line.WellFormed := by
    simp only [deceptiveLines, List.forall_mem_cons, List.not_mem_nil, false_implies, implies_true,
      and_true]
    refine ⟨⟨by simp, by simp [Text.isBlank]⟩, ?_, ⟨by simp, by simp [Text.isBlank]⟩, ?_⟩
    · exact ⟨rfl, by simp; decide, by simp, by decide, by simp [Text.isBlank], Or.inr ⟨_, rfl⟩⟩
    · exact ⟨rfl, by simp, by decide, by decide, by simp [Text.isBlank, Definition.endOfInput],
        Or.inl rfl⟩
  exact ⟨wellFormed, ofText_writeDefinition wellFormed⟩

end Scangen
