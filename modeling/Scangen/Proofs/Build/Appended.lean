import Scangen.Proofs.Build.Offers

/-!
A rule that is added at the end of a specification. It leads only where no other rule of its kind does,
so it never takes a match from the rules before it unless it reads more symbols.
-/

namespace Scangen

namespace Spec

variable {spec : Spec} {rule : Rule} {condition id : Nat}

theorem rules_addRule (spec : Spec) (rule : Rule) :
    (spec.addRule rule).rules = spec.rules ++ [rule] := rfl

/-- The conditions stay, and so does what is active in them. -/
theorem activeConditions_addRule (spec : Spec) (rule : Rule) (conditions : RuleConditions) :
    (spec.addRule rule).activeConditions conditions = spec.activeConditions conditions := by
  cases conditions <;> rfl

theorem HasActive.addRule {pattern : RulePattern} (active : spec.HasActive condition id pattern)
    (rule : Rule) : (spec.addRule rule).HasActive condition id pattern := by
  have inside := active.lt
  obtain ⟨old, found, same, member⟩ := active
  refine ⟨old, ?_, same, ?_⟩
  · rw [rules_addRule, List.getElem?_append_left inside]
    exact found
  · rwa [activeConditions_addRule]

/-- An active rule is an old one or stands at the end. -/
theorem HasActive.of_addRule {pattern : RulePattern}
    (active : (spec.addRule rule).HasActive condition id pattern) :
    spec.HasActive condition id pattern ∨ id = spec.rules.length := by
  have inside := active.lt
  rw [rules_addRule, List.length_append, List.length_singleton] at inside
  obtain ⟨old, found, same, member⟩ := active
  by_cases last : id = spec.rules.length
  · exact Or.inr last
  · rw [rules_addRule, List.getElem?_append_left (by omega)] at found
    rw [activeConditions_addRule] at member
    exact Or.inl ⟨old, found, same, member⟩

namespace Offers

variable {charset : Charset} {atLineStart : Bool} {input : List Nat} {found : Candidate}

/-- An offer is that of a rule of the specification. -/
theorem exists_tag (offers : spec.Offers charset condition atLineStart input found) :
    ∃ id < spec.rules.length, ∃ pattern : Pattern, found.tag = pattern.tag id := by
  cases offers with
  | @intro matched id pattern leads token =>
    exact ⟨id, leads.fronts.fits.hasActive.lt, pattern, rfl⟩

/-- All rules still offer what they did. -/
theorem addRule (offers : spec.Offers charset condition atLineStart input found) (rule : Rule) :
    (spec.addRule rule).Offers charset condition atLineStart input found := by
  cases offers with
  | @intro matched id pattern leads token =>
    have active := leads.fronts.fits.hasActive
    refine .intro ⟨leads.fronts.transfer (active.addRule rule), ?_⟩ token
    intro id' pattern' fronts' kind
    cases fronts'.fits.hasActive.of_addRule with
    | inl old => exact leads.first (fronts'.transfer old) kind
    | inr last =>
      rw [last]
      exact active.lt.le

/-- What is offered is an old offer or one of the rule at the end. -/
theorem of_addRule (offers : (spec.addRule rule).Offers charset condition atLineStart input found) :
    spec.Offers charset condition atLineStart input found ∨
      ∃ pattern : Pattern, found.tag = pattern.tag spec.rules.length := by
  cases offers with
  | @intro matched id pattern leads token =>
    cases leads.fronts.fits.hasActive.of_addRule with
    | inl old =>
      refine Or.inl (.intro ⟨leads.fronts.transfer old, ?_⟩ token)
      intro id' pattern' fronts' kind
      exact leads.first (fronts'.transfer (fronts'.fits.hasActive.addRule rule)) kind
    | inr last =>
      subst last
      exact Or.inr ⟨pattern, rfl⟩

/-- What the rule at the end offers takes more symbols than an old offer that does not beat it. -/
theorem lt_of_not_beats {old new : Candidate} {pattern : Pattern}
    (offers : spec.Offers charset condition atLineStart input old)
    (last : new.tag = pattern.tag spec.rules.length) (unbeaten : ¬old.Beats new) :
    old.matched < new.matched := by
  obtain ⟨id, earlier, pattern', same⟩ := offers.exists_tag
  have before : old.tag.Before new.tag := by
    rw [same, last]
    exact before_tag_iff.mpr (Or.inl earlier)
  have shorter : ¬new.matched < old.matched := fun longer => unbeaten (Or.inl longer)
  have different : old.matched ≠ new.matched := fun equal => unbeaten (Or.inr ⟨equal, before⟩)
  omega

end Offers

/-- Where a rule is added at the end, nothing else changes: every match is found as before, or the new
rule is found and takes more symbols than what was found before. This is said of all automata and of
addressable tables. -/
theorem longestMatch_addRule (spec : Spec) (rule : Rule) (config : Config) {stage stage' : Stage}
    (room : spec.AddressableAt config stage) (room' : (spec.addRule rule).AddressableAt config stage')
    (condition : Nat) (input : List Nat) (atLineStart : Bool) :
    let before := spec.longestMatchAt config stage condition input atLineStart
    let after := (spec.addRule rule).longestMatchAt config stage' condition input atLineStart
    after = before ∨
      ∃ new, after = some new ∧ new.rule = spec.rules.length ∧
        ∀ old, before = some old → old.matched < new.matched := by
  obtain ⟨best, chosen, found⟩ :=
    longestMatchAt_chosen room condition input atLineStart
  obtain ⟨best', chosen', found'⟩ :=
    longestMatchAt_chosen room' condition input atLineStart
  dsimp only
  rw [found, found']
  by_cases kept : ∀ new ∈ best', spec.Offers config.charset condition atLineStart input new
  · have still := chosen'.restrict (fun _ offers => offers.addRule rule) kept
    rw [chosen.unique Candidate.eq_of_not_beats still]
    exact Or.inl rfl
  · push Not at kept
    obtain ⟨new, rfl, foreign⟩ := kept
    obtain ⟨pattern, last⟩ := chosen'.1.of_addRule.resolve_left foreign
    refine Or.inr ⟨new.toMatch, rfl, ?_, ?_⟩
    · rw [Candidate.toMatch, last]
      rfl
    · intro old same
      obtain ⟨old, rfl, rfl⟩ := Option.map_eq_some_iff.mp same
      exact chosen.1.lt_of_not_beats last (chosen'.2 old (chosen.1.addRule rule))

/-- The letters in front of the end of a line. -/
def lettersOfLine : Rule :=
  ⟨none, .matching ⟨false, .plus (.symbol 97), none, true⟩, .inclusive, ⟨2, 1⟩⟩

/-- The rule at the end is the first one that asks for the end of a line. -/
theorem oneLetter_addRule :
    oneLetter.usesLineEnd = false ∧ (oneLetter.addRule lettersOfLine).usesLineEnd = true ∧
    oneLetter.AddressableAt byteConfig (.tables true ⟨.dense, true⟩) ∧
    (oneLetter.addRule lettersOfLine).AddressableAt byteConfig (.tables true ⟨.dense, false⟩) ∧
    let before := oneLetter.longestMatchAt byteConfig (.tables true ⟨.dense, true⟩) 0 [97, 97] false
    let after := (oneLetter.addRule lettersOfLine).longestMatchAt byteConfig
      (.tables true ⟨.dense, false⟩) 0 [97, 97] false
    after = before ∨
      ∃ new, after = some new ∧ new.rule = 1 ∧ ∀ old, before = some old → old.matched < new.matched := by
  have room : oneLetter.AddressableAt byteConfig (.tables true ⟨.dense, true⟩) := by
    show Tables.Addressable _
    decide +kernel
  have room' : (oneLetter.addRule lettersOfLine).AddressableAt byteConfig
      (.tables true ⟨.dense, false⟩) := by
    show Tables.Addressable _
    decide +kernel
  exact ⟨rfl, rfl, room, room',
    longestMatch_addRule oneLetter lettersOfLine byteConfig room room' 0 [97, 97] false⟩

end Spec

end Scangen
