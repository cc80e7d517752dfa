import Scangen.Proofs.Build.Tokens

/-!
Empty tokens. A scanner skips a match without a token, but the automaton has chosen the rule of that
match before, and with it the rules behind it are skipped.
-/

namespace Scangen

namespace Spec

variable {spec : Spec} {config : Config} {condition matched id : Nat}
    {atLineStart : Bool} {input : List Nat}
  {pattern : Pattern}

section Offers

variable {charset : Charset} {best : Option Candidate}
  (chosen : Chosen Candidate.Beats (spec.Offers charset condition atLineStart input) best)

include chosen

/-- Something at least as long is found if some rule leads there with a token. -/
theorem found_iff_leads (matched : Nat) :
    (∃ m, best.map Candidate.toMatch = some m ∧ matched ≤ m.matched) ↔
    ∃ longer id pattern, matched ≤ longer ∧
      spec.Leads charset condition atLineStart input longer id pattern ∧
      pattern.cut.tokenLength longer ≠ 0 := by
  constructor
  · rintro ⟨m, found, enough⟩
    obtain ⟨found, rfl, rfl⟩ := Option.map_eq_some_iff.mp found
    cases chosen.1 with
    | @intro longer id pattern leads token => exact ⟨longer, id, pattern, enough, leads, token⟩
  · rintro ⟨longer, id, pattern, enough, leads, token⟩
    have offer : spec.Offers charset condition atLineStart input ⟨longer, pattern.tag id⟩ :=
      .intro leads token
    cases best with
    | none => exact absurd offer (chosen _)
    | some found =>
      have most : ¬found.matched < longer := fun more => chosen.2 _ offer (Or.inl more)
      refine ⟨found.toMatch, rfl, ?_⟩
      show matched ≤ found.matched
      omega

/-- The rule that is due is found if it leads the rules of its kind. -/
theorem found_iff_due_leads (due : spec.Due charset condition atLineStart input matched id pattern)
    (longest : ∀ longer id' pattern', matched < longer →
      spec.Fronts charset condition atLineStart input longer id' pattern' →
        pattern'.cut.tokenLength longer = 0) :
    best.map Candidate.toMatch = some ⟨id, pattern.cut.tokenLength matched, matched⟩ ↔
      spec.Leads charset condition atLineStart input matched id pattern := by
  constructor
  · intro found
    obtain ⟨found, rfl, same⟩ := Option.map_eq_some_iff.mp found
    cases chosen.1 with
    | @intro matched' id' pattern' leads _ =>
      have rules : id' = id := congrArg Match.rule same
      have counts : matched' = matched := congrArg Match.matched same
      subst rules counts
      rwa [due.fronts.fits.pattern_unique leads.fronts.fits]
  · intro leads
    have unbeaten : Chosen Candidate.Beats (spec.Offers charset condition atLineStart input)
        (some ⟨matched, pattern.tag id⟩) := by
      refine ⟨.intro leads due.token, ?_⟩
      rintro _ ⟨leads', token⟩ (more | ⟨rfl, before⟩)
      · exact token (longest _ _ _ more leads'.fronts)
      · rcases before_tag_iff.mp before with earlier | ⟨rfl, earlier⟩
        · exact token (due.earlier leads'.fronts earlier)
        · cases leads'.fronts.fits.pattern_unique leads.fronts.fits
          omega
    rw [chosen.unique Candidate.eq_of_not_beats unbeaten]
    rfl

end Offers

/-- When an empty token hides no other rule. Something at least as long as the match of a rule that
is due is found if and only if there is a rule with a token that is the first of all that match as
much, among those that ask for the end of the line or among the others. If no token follows behind
more symbols, the rule that is due is found if and only if it is the first one in that sense, with
the rules of empty tokens before it counted as well. The tables are addressable. -/
theorem due_found_iff {log : Diagnostics} {automaton : Automaton}
    (built : (spec.build config log).2 = .ok automaton)
    (declared : condition < spec.conditions.length) {layout : Layout}
    (room : (automaton.tables layout).Addressable)
    (due : spec.Due config.charset condition atLineStart input matched id pattern) :
    ((∃ m, (automaton.tables layout).recognizer.longestMatch condition input atLineStart = some m ∧
      matched ≤ m.matched) ↔
      ∃ longer id' pattern', matched ≤ longer ∧
        spec.Leads config.charset condition atLineStart input longer id' pattern' ∧
        pattern'.cut.tokenLength longer ≠ 0) ∧
      ((∀ longer id' pattern', matched < longer →
          spec.Fronts config.charset condition atLineStart input longer id' pattern' →
          pattern'.cut.tokenLength longer = 0) →
        ((automaton.tables layout).recognizer.longestMatch condition input atLineStart =
            some ⟨id, pattern.cut.tokenLength matched, matched⟩ ↔
          spec.Leads config.charset condition atLineStart input matched id pattern)) := by
  obtain ⟨best, chosen, same⟩ := longestMatch_offers built declared room input atLineStart
  rw [same]
  exact ⟨found_iff_leads chosen matched, found_iff_due_leads chosen due⟩

/-- An empty token in front of a letter, and a rule for this letter and the next one. -/
def emptyFirst : Spec :=
  ⟨[⟨initialName, false⟩],
    [⟨none, .matching ⟨false, .empty, some (.symbol 97), false⟩, .inclusive, ⟨1, 1⟩⟩,
      ⟨none, .matching ⟨false, .symbolClass ⟨.ofRanges [⟨97, 98, by decide⟩], false⟩, none, false⟩,
        .inclusive, ⟨2, 1⟩⟩]⟩

theorem emptyFirst_built : (emptyFirst.build byteConfig []).2 =
    .ok ⟨Partition.ofSpec emptyFirst byteConfig, emptyFirst.dfa byteConfig true,
      emptyFirst.endActions⟩ :=
  build_of_no_errors (by decide +kernel)

/-- The second rule is due at each of its letters. -/
theorem emptyFirst_due {c : Nat} (letter : c = 97 ∨ c = 98) :
    emptyFirst.Due byteConfig.charset 0 true [c] 1 1
      ⟨false, .symbolClass ⟨.ofRanges [⟨97, 98, by decide⟩], false⟩, none, false⟩ := by
  have inside : c ∈ SymbolClass.resolve ⟨.ofRanges [⟨97, 98, by decide⟩], false⟩
    byteConfig.charset := by
    rw [← SymbolSet.contains_iff]
    rcases letter with rfl | rfl <;> decide
  refine ⟨⟨Nat.le_refl 1, ⟨⟨_, rfl, rfl, by decide⟩, fun asked =>
    absurd asked Bool.false_ne_true, ?_⟩,
    fun asked => absurd asked Bool.false_ne_true⟩, Nat.one_ne_zero, ?_⟩
  · refine ⟨[c], [], rfl, ?_, rfl⟩
    rw [Pattern.ordered, Regex.ordered, Regex.MatchesBy]
    exact ⟨c, inside, rfl⟩
  · intro id' pattern' fronts' earlier
    obtain ⟨rule, found, matching, _⟩ := fronts'.fits.active
    have first : id' = 0 := by omega
    subst first
    cases found
    cases matching
    decide

/-- At its second letter the rule is the first one of its kind, because it is found there. -/
theorem emptyFirst_leads :
    emptyFirst.Due byteConfig.charset 0 true [98] 1 1
        ⟨false, .symbolClass ⟨.ofRanges [⟨97, 98, by decide⟩], false⟩, none, false⟩ ∧
      emptyFirst.Leads byteConfig.charset 0 true [98] 1 1
        ⟨false, .symbolClass ⟨.ofRanges [⟨97, 98, by decide⟩], false⟩, none, false⟩ := by
  have due := emptyFirst_due (Or.inr (rfl : 98 = 98))
  have nothing_longer : ∀ longer id' pattern', 1 < longer →
      emptyFirst.Fronts byteConfig.charset 0 true [98] longer id' pattern' →
        pattern'.cut.tokenLength longer = 0 := by
    intro longer id' pattern' more fronts
    have inside : longer ≤ 1 := fronts.inside
    omega
  have room : (Automaton.tables ⟨Partition.ofSpec emptyFirst byteConfig,
      emptyFirst.dfa byteConfig true, emptyFirst.endActions⟩ ⟨.dense, true⟩).Addressable := by
    decide +kernel
  refine ⟨due, ((due_found_iff emptyFirst_built Nat.zero_lt_one room due).2 nothing_longer).mp ?_⟩
  rw [longestMatch_built emptyFirst_built room]
  decide +kernel

/-- The empty token of the first rule hides the second one, which is due there. -/
theorem emptyFirst_hides :
    emptyFirst.Due byteConfig.charset 0 true [97] 1 1
        ⟨false, .symbolClass ⟨.ofRanges [⟨97, 98, by decide⟩], false⟩, none, false⟩ ∧
      ∀ automaton layout, (emptyFirst.build byteConfig []).2 = .ok automaton →
        (automaton.tables layout).recognizer.longestMatch 0 [97] true = none := by
  refine ⟨emptyFirst_due (Or.inl rfl), fun automaton layout built => ?_⟩
  cases build_ok built
  rw [longestMatch_built built (Tables.addressable_ofDfa.mpr fun _ => by decide +kernel)]
  decide +kernel

end Spec

end Scangen
