import Scangen.Proofs.Build.Best
import Scangen.Proofs.Build.Offers

/-!
A start condition only sees the rules that are active in it. Other rules change the classes of symbols
and the states of all automata, but no match and no end-of-input rule of the condition.
-/

namespace Scangen

namespace Spec

variable {spec spec' : Spec} {condition : Nat}

/-- The specifications declare the same conditions and as many rules. Each rule either is active in this
condition and the same in both, or is active there in neither. -/
structure AlikeIn (condition : Nat) (spec spec' : Spec) : Prop where
  conditions : spec.conditions = spec'.conditions
  count : spec.rules.length = spec'.rules.length
  rules : ∀ (id : Nat) (rule rule' : Rule),
    spec.rules[id]? = some rule → spec'.rules[id]? = some rule' →
      (rule = rule' ∧ condition ∈ spec.activeConditions rule.conditions) ∨
        (condition ∉ spec.activeConditions rule.conditions ∧
          condition ∉ spec'.activeConditions rule'.conditions)

theorem activeConditions_congr (same : spec.conditions = spec'.conditions)
    (conditions : RuleConditions) :
    spec.activeConditions conditions = spec'.activeConditions conditions := by
  have ids : spec.conditionId = spec'.conditionId := by
    funext name
    rw [conditionId, conditionId, same]
  cases conditions with
  | inclusive => rw [activeConditions, activeConditions, same]
  | all => rw [activeConditions, activeConditions, same]
  | named names => rw [activeConditions, activeConditions, ids]

/-- In a condition where a rule is not active it can be replaced by any other one that is not. -/
theorem alikeIn_set {id : Nat} {rule rule' : Rule} (found : spec.rules[id]? = some rule)
    (idle : condition ∉ spec.activeConditions rule.conditions)
    (idle' : condition ∉ spec.activeConditions rule'.conditions) :
    AlikeIn condition spec { spec with rules := spec.rules.set id rule' } := by
  have kept : ∀ conditions, { spec with rules := spec.rules.set id rule' }.activeConditions
      conditions = spec.activeConditions conditions := activeConditions_congr rfl
  refine ⟨rfl, List.length_set.symm, ?_⟩
  intro id' old new foundOld foundNew
  rw [kept]
  by_cases same : id = id'
  · subst same
    have inside := (List.getElem?_eq_some_iff.mp found).1
    rw [List.getElem?_set_self inside] at foundNew
    rw [found] at foundOld
    cases foundNew
    cases foundOld
    exact Or.inr ⟨idle, idle'⟩
  · rw [List.getElem?_set_ne same, foundOld] at foundNew
    cases foundNew
    by_cases active : condition ∈ spec.activeConditions old.conditions
    · exact Or.inl ⟨rfl, active⟩
    · exact Or.inr ⟨active, active⟩

namespace AlikeIn

variable (alike : AlikeIn condition spec spec')

include alike

theorem symm : AlikeIn condition spec' spec := by
  refine ⟨alike.conditions.symm, alike.count.symm, ?_⟩
  intro id rule rule' found found'
  cases alike.rules id rule' rule found' found with
  | inl both =>
    have member := both.2
    rw [activeConditions_congr alike.conditions, both.1] at member
    exact Or.inl ⟨both.1.symm, member⟩
  | inr neither => exact Or.inr ⟨neither.2, neither.1⟩

/-- A rule that is active in one specification is the same rule in the other. -/
theorem rule {id : Nat} {rule : Rule} (found : spec.rules[id]? = some rule)
    (active : condition ∈ spec.activeConditions rule.conditions) :
    spec'.rules[id]? = some rule := by
  have inside : id < spec'.rules.length := by
    rw [← alike.count]
    exact (List.getElem?_eq_some_iff.mp found).1
  have found' := List.getElem?_eq_getElem inside
  cases alike.rules id rule _ found found' with
  | inl both => rw [found', both.1]
  | inr neither => exact absurd active neither.1

theorem active {id : Nat} {pattern : RulePattern} (active : spec.HasActive condition id pattern) :
    spec'.HasActive condition id pattern := by
  obtain ⟨rule, found, same, member⟩ := active
  have found' := alike.rule found member
  rw [activeConditions_congr alike.conditions] at member
  exact ⟨rule, found', same, member⟩

theorem offers {charset : Charset} {atLineStart : Bool} {input : List Nat} {found : Candidate}
    (offers : spec.Offers charset condition atLineStart input found) :
    spec'.Offers charset condition atLineStart input found := by
  cases offers with
  | intro leads token =>
    refine .intro ⟨leads.fronts.transfer (alike.active leads.fronts.fits.hasActive), ?_⟩ token
    intro id' pattern' fronts' kind
    exact leads.first (fronts'.transfer (alike.symm.active fronts'.fits.hasActive)) kind

end AlikeIn

/-- The rule tells what happens when the input ends in this condition. -/
def endsIn (spec : Spec) (condition : Nat) (rule : Rule) : Bool :=
  match rule.pattern with
  | .matching _ => false
  | .endOfInput => (spec.activeConditions rule.conditions).contains condition

theorem endActions_eq (spec : Spec) : spec.endActions =
    (List.range spec.conditions.length).map fun condition =>
      spec.rules.findIdx? (spec.endsIn condition) := rfl

theorem endsIn_eq_false {rule : Rule}
    (idle : condition ∉ spec.activeConditions rule.conditions) :
    spec.endsIn condition rule = false := by
  unfold endsIn
  split
  · rfl
  · simpa using idle

theorem AlikeIn.endsIn (alike : AlikeIn condition spec spec') :
    spec.rules.map (spec.endsIn condition) = spec'.rules.map (spec'.endsIn condition) := by
  apply List.ext_getElem
  · rw [List.length_map, List.length_map, alike.count]
  · intro id inside inside'
    rw [List.getElem_map, List.getElem_map]
    rw [List.length_map] at inside inside'
    have rules := alike.rules id _ _ (List.getElem?_eq_getElem inside)
      (List.getElem?_eq_getElem inside')
    cases rules with
    | inl both =>
      rw [← both.1, Spec.endsIn, Spec.endsIn, activeConditions_congr alike.conditions]
    | inr neither => rw [endsIn_eq_false neither.1, endsIn_eq_false neither.2]

/-- The first end-of-input rule of a condition is the first of the rules that are active there. -/
theorem AlikeIn.endAction (alike : AlikeIn condition spec spec') :
    spec.endActions[condition]? = spec'.endActions[condition]? := by
  have first : spec.rules.findIdx? (spec.endsIn condition) =
      spec'.rules.findIdx? (spec'.endsIn condition) := by
    calc spec.rules.findIdx? (spec.endsIn condition)
        = (spec.rules.map (spec.endsIn condition)).findIdx? id := by rw [List.findIdx?_map]; rfl
      _ = (spec'.rules.map (spec'.endsIn condition)).findIdx? id := by rw [alike.endsIn]
      _ = spec'.rules.findIdx? (spec'.endsIn condition) := by rw [List.findIdx?_map]; rfl
  rw [endActions_eq, endActions_eq, List.getElem?_map, List.getElem?_map, alike.conditions]
  by_cases declared : condition < spec'.conditions.length
  · rw [List.getElem?_range declared, Option.map_some, Option.map_some, first]
  · rw [List.getElem?_eq_none (by simpa using declared), Option.map_none, Option.map_none]

/-- What a condition matches and what it does at the end of the input depends on the rules that are
active in it and on their numbers, whatever stages and options the two scanners come from. Tables have
to be addressable for this. -/
theorem longestMatch_alike {config config' : Config} (alike : AlikeIn condition spec spec')
    (same : config.charset = config'.charset) :
    (∀ stage stage', spec.AddressableAt config stage → spec'.AddressableAt config' stage' →
      ∀ input atLineStart, spec.longestMatchAt config stage condition input atLineStart =
        spec'.longestMatchAt config' stage' condition input atLineStart) ∧
    spec.endActions[condition]? = spec'.endActions[condition]? ∧
    ∀ minimal minimal' layout layout',
      (spec.tables config minimal layout).endAction condition =
        (spec'.tables config' minimal' layout').endAction condition := by
  refine ⟨?_, alike.endAction, ?_⟩
  · intro stage stage' room room' input atLineStart
    refine longestMatchAt_congr (fun found => ?_) room room'
    rw [← same]
    exact ⟨alike.offers, alike.symm.offers⟩
  · intro minimal minimal' layout layout'
    have ends := alike.endAction
    simp only [tables, Tables.ofDfa, Tables.endAction, List.getElem?_toArray, ends]

/-- A rule of comments in front of the rules for everything else. -/
def comments : Spec :=
  ⟨[⟨initialName, false⟩, ⟨"COMMENT", true⟩],
    [⟨none, .matching (.ofRegex (.symbol 97)), .named ["COMMENT"], ⟨1, 1⟩⟩,
      ⟨none, .matching (.ofRegex (.plus (.symbol 98))), .inclusive, ⟨2, 1⟩⟩,
      ⟨none, .endOfInput, .inclusive, ⟨3, 1⟩⟩]⟩

/-- The same with comments that are lines of their own. -/
def commentLines : Spec :=
  { comments with
    rules := comments.rules.set 0
      ⟨none, .matching ⟨true, .symbol 98, none, true⟩, .named ["COMMENT"], ⟨1, 1⟩⟩ }

/-- The specifications differ in what their scanners read, and the initial condition does not see it. -/
theorem comments_commentLines :
    AlikeIn 0 comments commentLines ∧
    comments.usesLineStart = false ∧ commentLines.usesLineStart = true ∧
    (∀ input atLineStart,
      comments.longestMatchAt byteConfig (.tables true ⟨.dense, true⟩) 0 input atLineStart =
        commentLines.longestMatchAt ⟨⟨.byte, false⟩, false, false, ⟨.dense, false⟩⟩
          (.tables false ⟨.squeezed, false⟩) 0 input atLineStart) ∧
    comments.endActions[0]? = commentLines.endActions[0]? ∧
    ∀ minimal minimal' layout layout',
      (comments.tables byteConfig minimal layout).endAction 0 =
        (commentLines.tables ⟨⟨.byte, false⟩, false, false, ⟨.dense, false⟩⟩ minimal'
          layout').endAction 0 := by
  have alike : AlikeIn 0 comments commentLines := by
    apply alikeIn_set rfl
    · decide
    · decide
  have charset : byteConfig.charset = Config.charset ⟨⟨.byte, false⟩, false, false, ⟨.dense, false⟩⟩ := rfl
  have same := longestMatch_alike alike charset
  have room : comments.AddressableAt byteConfig (.tables true ⟨.dense, true⟩) := by
    show Tables.Addressable _
    decide +kernel
  exact ⟨alike, rfl, rfl, same.1 _ _ room True.intro, same.2⟩

end Spec

end Scangen
