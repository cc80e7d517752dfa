import Scangen.Proofs.Generated.Keywords
import Scangen.Proofs.Text.Blank

/-!
What one line of a definition says, and where its pattern stands in it. In front of the pattern there
are blanks, and perhaps a name and a list of conditions; a column counts their bytes.
-/

namespace Scangen.Definition

variable {raw line text front rest : List Char} {number column : Nat} {c : Char}
  {name : Option (List Char)} {conditions : RuleConditions}

/-- A rule has a name if it begins with an identifier, a colon and a blank. -/
inductive NameSplit : List Char → Option (List Char) → List Char → Prop where
  | present {name gap space rest : List Char} (identifier : isIdentifier name)
      (before : ∀ c ∈ gap, Text.isBlank c) (behind : ∀ c ∈ space, Text.isBlank c)
      (starts : Text.trimStart rest = rest) :
      NameSplit (name ++ gap ++ ':' :: ' ' :: (space ++ rest)) (some name) rest
  | absent {line : List Char} (other : ∀ name gap behind, isIdentifier name →
      (∀ c ∈ gap, Text.isBlank c) → line ≠ name ++ gap ++ ':' :: ' ' :: behind) :
      NameSplit line none line

/-- What may stand in angle brackets: a star, or identifiers with commas between them. -/
inductive ConditionList : List Char → RuleConditions → Prop where
  | all : ConditionList ['*'] .all
  | named {list : List Char} {names : List (List Char)}
      (listed : (Text.pieces (· = ',') list).map Text.trim = names)
      (identifiers : ∀ name ∈ names, isIdentifier name) :
      ConditionList list (.named (names.map String.ofList))

/-- A rule lists its conditions if such a list is followed by something. -/
inductive ConditionSplit : List Char → RuleConditions → List Char → Prop where
  | present {list rest : List Char} {conditions : RuleConditions} (single : '>' ∉ list)
      (listed : ConditionList list conditions) (nonempty : rest ≠ []) :
      ConditionSplit ('<' :: (list ++ '>' :: rest)) conditions rest
  | absent {text : List Char} (other : ∀ list rest conditions, '>' ∉ list →
      ConditionList list conditions → rest ≠ [] → text ≠ '<' :: (list ++ '>' :: rest)) :
      ConditionSplit text .inclusive text

/-- Identifiers have only letters, digits and underscores. -/
theorem not_mem_of_isIdentifier (identifier : isIdentifier text)
    (foreign : Generated.isIdentifierCharacter c = false) : c ∉ text := by
  intro member
  rw [Generated.isIdentifierCharacter_of_isIdentifier identifier c member] at foreign
  cases foreign

theorem isBlank_of_isIdentifierCharacter (allowed : Generated.isIdentifierCharacter c) :
    Text.isBlank c = false := by
  obtain ⟨low, high⟩ := Generated.isIdentifierCharacter_printable allowed
  have other : c.toNat ≠ 0x20 := by
    intro blank
    obtain rfl : c = ' ' := Char.toNat_inj.mp blank
    exact absurd allowed (by decide)
  simp only [Text.isBlank, Bool.or_eq_false_iff, Bool.and_eq_false_iff, decide_eq_false_iff_not]
  omega

theorem isBlank_of_isIdentifier (identifier : isIdentifier text) :
    ∀ c ∈ text, Text.isBlank c = false := fun c member =>
  isBlank_of_isIdentifierCharacter
    (Generated.isIdentifierCharacter_of_isIdentifier identifier c member)

theorem splitFirst_name {name gap : List Char} (identifier : isIdentifier name)
    (gaps : ∀ c ∈ gap, Text.isBlank c) (behind : List Char) :
    Text.splitFirst ':' (name ++ gap ++ ':' :: behind) = some (name ++ gap, behind) := by
  apply Text.splitFirst_append
  intro member
  rcases List.mem_append.mp member with inside | between
  · exact not_mem_of_isIdentifier identifier (by decide) inside
  · exact absurd (gaps ':' between) (by decide)

theorem trim_name {name gap : List Char} (identifier : isIdentifier name)
    (gaps : ∀ c ∈ gap, Text.isBlank c) : Text.trim (name ++ gap) = name :=
  Text.trim_append_blanks (isBlank_of_isIdentifier identifier) gaps

theorem nameSplit_splitName (trimmed : Text.trimStart line = line) :
    NameSplit line (splitName line).1 (splitName line).2 := by
  unfold splitName
  split
  next before rest found =>
    split
    next named =>
      obtain ⟨whole, -⟩ := Text.append_of_splitFirst found
      obtain ⟨identifier, blank⟩ := Bool.and_eq_true_iff.mp named
      -- the line does not begin with blanks, so the name does not either
      have name : Text.trim before = Text.trimEnd before := by
        rw [whole] at trimmed
        rw [Text.trim, Text.trimStart_of_append trimmed]
      obtain ⟨gap, parts, gaps⟩ := Text.trimEnd_append before
      obtain ⟨behind, rfl⟩ := List.head?_eq_some_iff.mp (of_decide_eq_true blank)
      obtain ⟨space, after, spaces⟩ := Text.trimStart_append behind
      have start : Text.trimStart (' ' :: behind) = Text.trimStart behind :=
        List.dropWhile_cons_of_pos rfl
      have split := NameSplit.present identifier gaps spaces (Text.trimStart_trimStart behind)
      rw [name, ← parts, ← after, ← whole] at split
      rw [name, start]
      exact split
    next unnamed =>
      refine .absent fun name gap behind identifier gaps same => unnamed ?_
      rw [same, splitFirst_name identifier gaps] at found
      cases found
      simp [trim_name identifier gaps, identifier]
  next found =>
    refine .absent fun name gap behind identifier gaps same => ?_
    rw [same, splitFirst_name identifier gaps] at found
    cases found

/-- There is only one way to split off a name. -/
theorem NameSplit.splitName_eq (trimmed : Text.trimStart line = line)
    (split : NameSplit line name rest) : splitName line = (name, rest) := by
  cases split with
  | @present name gap space rest identifier gaps spaces starts =>
    have start : Text.trimStart (' ' :: (space ++ rest)) = rest := by
      refine (List.dropWhile_cons_of_pos rfl).trans ?_
      exact (Text.trimStart_append_blanks spaces).trans starts
    unfold splitName
    rw [splitFirst_name identifier gaps]
    dsimp only
    rw [trim_name identifier gaps, if_pos (by simp [identifier]), start]
  | absent other =>
    have found := nameSplit_splitName trimmed
    generalize splitName line = result at found
    obtain ⟨name, rest⟩ := result
    cases found with
    | present identifier gaps => exact absurd rfl (other _ _ _ identifier gaps)
    | absent => rfl

theorem conditionList_ne_star {list : List Char} {names : List (List Char)}
    (listed : (Text.pieces (· = ',') list).map Text.trim = names)
    (identifiers : ∀ name ∈ names, isIdentifier name) : list ≠ ['*'] := by
  rintro rfl
  subst listed
  exact absurd (identifiers ['*'] (by decide)) (by decide)

theorem conditionSplit_splitConditions (text : List Char) :
    ConditionSplit text (splitConditions text).1 (splitConditions text).2 := by
  unfold splitConditions
  split
  next inside =>
    split
    next nothing =>
      refine .absent fun list rest conditions single listed nonempty same => ?_
      rw [List.cons.inj same |>.2, Text.splitFirst_append single] at nothing
      cases nothing
    next list rest found =>
      obtain ⟨rfl, single⟩ := Text.append_of_splitFirst found
      have only : ∀ list' rest', '>' ∉ list' →
          '<' :: (list ++ '>' :: rest) = '<' :: (list' ++ '>' :: rest') →
          list = list' ∧ rest = rest' := by
        intro list' rest' single' same
        rw [List.cons.inj same |>.2, Text.splitFirst_append single'] at found
        cases found
        exact ⟨rfl, rfl⟩
      split
      next empty =>
        refine .absent fun list' rest' conditions single' listed nonempty same => nonempty ?_
        rw [← (only list' rest' single' same).2]
        exact List.isEmpty_iff.mp empty
      next some_rest =>
        have nonempty : rest ≠ [] := by simpa using some_rest
        split
        next star =>
          subst star
          exact .present single .all nonempty
        next other =>
          dsimp only
          split
          next identifiers =>
            exact .present single (.named rfl (by simpa using identifiers)) nonempty
          next foreign =>
            refine .absent fun list' rest' conditions single' listed _ same => ?_
            obtain ⟨rfl, -⟩ := only list' rest' single' same
            cases listed with
            | all => exact other rfl
            | named listed identifiers =>
              subst listed
              exact foreign (by simpa using identifiers)
  next plain =>
    exact .absent fun list rest conditions single listed nonempty same => plain _ same

/-- There is only one way to split off conditions. -/
theorem ConditionSplit.splitConditions_eq (split : ConditionSplit text conditions rest) :
    splitConditions text = (conditions, rest) := by
  cases split with
  | @present list rest conditions single listed nonempty =>
    have some_rest : ¬rest.isEmpty = true := by simpa using nonempty
    rw [splitConditions, Text.splitFirst_append single]
    dsimp only
    rw [if_neg some_rest]
    cases listed with
    | all => exact if_pos rfl
    | named listed identifiers =>
      rw [if_neg (conditionList_ne_star listed identifiers), listed,
        if_pos (by simpa using identifiers)]
  | absent other =>
    have found := conditionSplit_splitConditions text
    generalize splitConditions text = result at found
    obtain ⟨conditions, rest⟩ := result
    cases found with
    | present single listed nonempty => exact absurd rfl (other _ _ _ single listed nonempty)
    | absent => rfl

theorem NameSplit.exists_append (split : NameSplit line name rest) :
    ∃ front, line = front ++ rest := by
  cases split with
  | @present name gap space rest =>
    exact ⟨name ++ gap ++ ':' :: ' ' :: space, by simp⟩
  | absent => exact ⟨[], rfl⟩

theorem ConditionSplit.exists_append (split : ConditionSplit line conditions rest) :
    ∃ front, line = front ++ rest := by
  cases split with
  | @present list => exact ⟨'<' :: (list ++ ['>']), by simp⟩
  | absent => exact ⟨[], rfl⟩

/-- The parts of a line, and the column of its pattern: the pattern reaches from there to the blanks
at the end. -/
inductive Parts (raw : List Char) :
    Nat → Option (List Char) → RuleConditions → List Char → Prop where
  | intro {front behind middle text : List Char} {name : Option (List Char)}
      {conditions : RuleConditions} (named : NameSplit (Text.trim raw) name middle)
      (listed : ConditionSplit middle conditions text) (whole : raw = front ++ behind)
      (ends : Text.trimEnd behind = text) :
      Parts raw (Text.byteLength front + 1) name conditions text

/-- The text of a pattern, behind the name and the conditions. -/
def patternText (raw : List Char) : List Char :=
  (splitConditions (splitName (Text.trim raw)).2).2

/-- The bytes in front of the text of a line. -/
def indent (raw : List Char) : Nat :=
  Text.byteLength raw - Text.byteLength (Text.trimStart raw)

def patternColumn (raw : List Char) : Nat :=
  indent raw + (Text.byteLength (Text.trim raw) - Text.byteLength (patternText raw)) + 1

theorem indent_append (blank : ∀ c ∈ front, Text.isBlank c) (trimmed : Text.trimStart line = line) :
    indent (front ++ line) = Text.byteLength front := by
  rw [indent, Text.trimStart_append_blanks blank, trimmed, Text.byteLength_append,
    Nat.add_sub_cancel]

theorem parts_patternColumn (raw : List Char) :
    Parts raw (patternColumn raw) (splitName (Text.trim raw)).1
      (splitConditions (splitName (Text.trim raw)).2).1 (patternText raw) := by
  obtain ⟨blanks, start, blank⟩ := Text.trimStart_append raw
  obtain ⟨space, finish, spaces⟩ := Text.trimEnd_append (Text.trimStart raw)
  have named := nameSplit_splitName (Text.trimStart_trim raw)
  have listed := conditionSplit_splitConditions (splitName (Text.trim raw)).2
  obtain ⟨nameText, first⟩ := named.exists_append
  obtain ⟨conditionText, second⟩ := listed.exists_append
  have line : Text.trim raw = nameText ++ conditionText ++ patternText raw := by
    rw [List.append_assoc, patternText, ← second, ← first]
  have whole : raw = blanks ++ nameText ++ conditionText ++ (patternText raw ++ space) := by
    calc raw = blanks ++ (Text.trim raw ++ space) := by rw [Text.trim, ← finish, ← start]
      _ = _ := by rw [line]; simp only [List.append_assoc]
  have ends : Text.trimEnd (patternText raw ++ space) = patternText raw := by
    -- the pattern ends where the trimmed line ends
    have trimmed : Text.trimEnd (Text.trim raw) = Text.trim raw := Text.trimEnd_trimEnd _
    rw [line] at trimmed
    rw [Text.trimEnd_append_blanks spaces, Text.trimEnd_of_append trimmed]
  have inner : indent raw = Text.byteLength blanks := by
    have place := indent_append blank (Text.trimStart_trimStart raw)
    rwa [← start] at place
  have column : patternColumn raw = Text.byteLength (blanks ++ nameText ++ conditionText) + 1 := by
    rw [patternColumn, inner, line]
    simp only [Text.byteLength_append]
    omega
  rw [column]
  exact .intro named listed whole ends

/-- There is only one way to take a line apart. -/
theorem Parts.splits (parts : Parts raw column name conditions text) :
    (splitName (Text.trim raw)).1 = name ∧
      splitConditions (splitName (Text.trim raw)).2 = (conditions, text) := by
  cases parts with
  | intro named listed =>
    rw [named.splitName_eq (Text.trimStart_trim raw)]
    exact ⟨rfl, listed.splitConditions_eq⟩

/-- The line is empty or a comment. -/
def isSilent (raw : List Char) : Bool :=
  (Text.trim raw).isEmpty || (Text.trim raw).head? = some '#'

/-- The line says something, and is not a declaration. -/
def isRule (raw : List Char) : Bool := !isSilent raw && (directive (Text.trim raw)).isNone

/-- The conditions that a line declares. -/
def declared (raw : List Char) : List StartCondition :=
  (directive (Text.trim raw)).elim [] fun found =>
    (Text.words found.2).map fun name => ⟨String.ofList name, found.1 = 'x'⟩

/-- The rule of a line with this pattern. -/
def ruleOf (number : Nat) (raw : List Char) (pattern : RulePattern) : Rule :=
  let split := splitName (Text.trim raw)
  ⟨split.1.map String.ofList, pattern, (splitConditions split.2).1, ⟨number, patternColumn raw⟩⟩

theorem readLine_silent (silent : isSilent raw) : readLine number raw = .ok .blank :=
  if_pos silent

/-- A declaration begins with a percent sign and the letter of its kind, and nothing but a blank may
follow. -/
theorem directive_eq_some_iff {kind : Char} : directive line = some (kind, rest) ↔
    line = '%' :: kind :: rest ∧ (kind = 's' ∨ kind = 'x') ∧ ∀ c ∈ rest.head?, Text.isBlank c := by
  unfold directive
  split
  next kind' rest' =>
    constructor
    · intro found
      split at found
      next known =>
        cases found
        simpa [Option.all_eq_true] using known
      next => cases found
    · rintro ⟨same, known⟩
      cases same
      exact if_pos (by simpa [Option.all_eq_true] using known)
  next other =>
    refine ⟨fun found => (by cases found), ?_⟩
    rintro ⟨rfl, -⟩
    exact absurd rfl (other kind rest)

theorem not_isSilent_of_directive {kind : Char}
    (found : directive (Text.trim raw) = some (kind, rest)) : ¬isSilent raw := by
  simp [isSilent, (directive_eq_some_iff.mp found).1]

theorem readLine_directive {kind : Char} (found : directive (Text.trim raw) = some (kind, rest)) :
    readLine number raw =
      if Text.words rest = [] then .error (.emptyDeclaration ⟨number, indent raw + 1⟩ kind)
      else .ok (.declaration (kind = 'x') ((Text.words rest).map String.ofList)) := by
  refine (if_neg (not_isSilent_of_directive found)).trans ?_
  rw [found]
  dsimp only
  cases Text.words rest <;> rfl

theorem readLine_rule (rule : isRule raw) :
    readLine number raw =
      if patternText raw = endOfInput then .ok (.rule (ruleOf number raw .endOfInput))
      else ((Pattern.ofText (patternText raw)).map fun pattern =>
        Line.rule (ruleOf number raw (.matching pattern))).mapError
          (.pattern ⟨number, patternColumn raw⟩) := by
  simp only [isRule, Bool.and_eq_true, Bool.not_eq_true', ← Bool.not_eq_true] at rule
  obtain ⟨speaks, plain⟩ := rule
  have speaks : ¬((Text.trim raw).isEmpty || (Text.trim raw).head? = some '#') = true := speaks
  unfold readLine
  dsimp only
  rw [if_neg speaks, Option.isNone_iff_eq_none.mp plain]
  unfold patternText
  dsimp only
  split
  next => rfl
  next =>
    cases Pattern.ofText (splitConditions (splitName (Text.trim raw)).2).2 <;> rfl

/-- The pattern that a text stands for. -/
inductive PatternOf : List Char → RulePattern → Prop where
  | endOfInput : PatternOf endOfInput .endOfInput
  | matching {text : List Char} {pattern : Pattern} (other : text ≠ endOfInput)
      (made : Pattern.ofText text = .ok pattern) : PatternOf text (.matching pattern)

/-- The rule on a line, and its place. -/
inductive States : List Char × Nat → Rule → Prop where
  | intro {raw text : List Char} {number column : Nat} {name : Option (List Char)}
      {conditions : RuleConditions} {pattern : RulePattern}
      (parts : Parts raw column name conditions text) (made : PatternOf text pattern) :
      States (raw, number) ⟨name.map String.ofList, pattern, conditions, ⟨number, column⟩⟩

theorem states_ruleOf {pattern : RulePattern} (made : PatternOf (patternText raw) pattern) :
    States (raw, number) (ruleOf number raw pattern) :=
  .intro (parts_patternColumn raw) made

/-- What is wrong with a line: a declaration has no names, or a pattern cannot be read. -/
inductive Fails (line : List Char × Nat) : DefinitionError → Prop where
  | nameless {kind : Char} {rest front behind : List Char}
      (found : directive (Text.trim line.1) = some (kind, rest)) (nothing : Text.words rest = [])
      (whole : line.1 = front ++ behind) (blank : ∀ c ∈ front, Text.isBlank c)
      (trimmed : Text.trimStart behind = behind) :
      Fails line (.emptyDeclaration ⟨line.2, Text.byteLength front + 1⟩ kind)
  | pattern {column : Nat} {name : Option (List Char)} {conditions : RuleConditions}
      {text : List Char} {cause : PatternError} (rule : isRule line.1)
      (parts : Parts line.1 column name conditions text) (other : text ≠ endOfInput)
      (failed : Pattern.ofText text = .error cause) :
      Fails line (.pattern ⟨line.2, column⟩ cause)

/-- What is read from a line. -/
inductive Reads (line : List Char × Nat) : Except DefinitionError Line → Prop where
  | silent (plain : isRule line.1 = false) (nothing : declared line.1 = []) :
      Reads line (.ok .blank)
  | declaration {exclusive : Bool} {names : List String} (plain : isRule line.1 = false)
      (made : declared line.1 = names.map fun name => ⟨name, exclusive⟩) :
      Reads line (.ok (.declaration exclusive names))
  | rule {rule : Rule} (made : isRule line.1) (nothing : declared line.1 = [])
      (states : States line rule) : Reads line (.ok (.rule rule))
  | error {e : DefinitionError} (fails : Fails line e) : Reads line (.error e)

theorem readLine_reads (raw : List Char) (number : Nat) :
    Reads (raw, number) (readLine number raw) := by
  cases found : directive (Text.trim raw) with
  | some declaration =>
    have plain : isRule raw = false := by simp [isRule, found]
    rw [readLine_directive found]
    split
    next nothing =>
      obtain ⟨front, whole, blank⟩ := Text.trimStart_append raw
      have place := indent_append blank (Text.trimStart_trimStart raw)
      rw [← whole] at place
      rw [place]
      exact .error (.nameless found nothing whole blank (Text.trimStart_trimStart raw))
    next => exact .declaration plain (by simp [declared, found])
  | none =>
    have nothing : declared raw = [] := by rw [declared, found, Option.elim_none]
    cases silent : isSilent raw with
    | true =>
      rw [readLine_silent silent]
      exact .silent (by simp [isRule, silent]) nothing
    | false =>
      have rule : isRule raw := by simp [isRule, silent, found]
      rw [readLine_rule rule]
      split
      next eof => exact .rule rule nothing (states_ruleOf (eof ▸ .endOfInput))
      next other =>
        cases made : Pattern.ofText (patternText raw) with
        | ok pattern => exact .rule rule nothing (states_ruleOf (.matching other made))
        | error cause => exact .error (.pattern rule (parts_patternColumn raw) other made)

/-- A line that is read has nothing wrong with it. -/
theorem not_fails_of_readLine {said : Line} (read : readLine number raw = .ok said)
    (e : DefinitionError) : ¬Fails (raw, number) e := by
  rintro (⟨found, nothing⟩ | ⟨rule, parts, other, failed⟩)
  · rw [readLine_directive found, if_pos nothing] at read
    cases read
  · rw [readLine_rule rule, patternText, parts.splits.2, if_neg other, failed] at read
    cases read

end Scangen.Definition
