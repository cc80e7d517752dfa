import Scangen.Proofs.Pattern.Related
import Scangen.Proofs.Symbol.CaseChains
import Scangen.Scan.Meaning

/-!
Words in other spellings, where the case of letters does not count. A rule takes all spellings of what it
takes if its sets hold all forms of their letters. Over bytes they do; over all code points a few letters
have a form with a further form, and one folding does not get there.
-/

namespace Scangen

variable {alphabet : Alphabet} {c d : Nat}

theorem SymbolSet.Folded.mem_of_forms {s : SymbolSet} (folded : s.Folded alphabet)
    (forms : Relation.ReflTransGen (CaseForm alphabet) c d) (member : c ∈ s) : d ∈ s := by
  induction forms with
  | refl => exact member
  | tail _ form ih => exact folded _ ih _ form

theorem CaseForm.ne_lineFeed (form : CaseForm alphabet c d) : c ≠ lineFeed := by
  obtain ⟨run, listed, member⟩ := mem_casePairs_iff.mp (caseForm_iff.mp form).1
  exact Nat.ne_of_gt (Nat.lt_of_lt_of_le (caseRuns_filled run listed).1
    (CaseRun.bounds_of_mem_pairs member).1)

theorem eq_lineFeed_of_forms (forms : Relation.ReflTransGen (CaseForm alphabet) c d)
    (start : c = lineFeed) : d = lineFeed := by
  induction forms with
  | refl => exact start
  | tail _ form ih => exact absurd ih form.ne_lineFeed

theorem EndsLine.respelled {rest rest' : List Nat} (ends : EndsLine rest)
    (spelled : Respelled alphabet rest rest') : EndsLine rest' := by
  cases spelled with
  | nil => exact ends
  | cons first _ =>
    refine Or.inr ?_
    rw [List.head?_cons, eq_lineFeed_of_forms first (by simpa [EndsLine] using ends)]

namespace Spec

variable {spec : Spec} {condition : Nat} {atLineStart : Bool} {input input' : List Nat} {m : Match}

/-- Where the case of letters does not count, the sets of a rule hold all forms of their letters. -/
def RuleFolded (spec : Spec) (alphabet : Alphabet) (id : Nat) : Prop :=
  ∀ rule pattern, spec.rules[id]? = some rule → rule.pattern = .matching pattern →
    ∀ k : SymbolClass, k.resolve ⟨alphabet, true⟩ ∈ pattern.symbolSets ⟨alphabet, true⟩ →
      (k.resolve ⟨alphabet, true⟩).Folded alphabet

/-- Such a rule takes as much of an input in every spelling. -/
theorem Takes.respelled (folded : spec.RuleFolded alphabet m.rule)
    (spelled : Respelled alphabet input input')
    (takes : spec.Takes ⟨alphabet, true⟩ condition atLineStart input m) :
    spec.Takes ⟨alphabet, true⟩ condition atLineStart input' m := by
  cases takes with
  | @intro id rule pattern token following rest listed matching active lineStart words lineEnd =>
    obtain ⟨read, rest', rfl, fronts, rests⟩ := exists_partners spelled
    obtain ⟨token', following', rfl, tokens, behind⟩ := exists_partners fronts
    have carries : Regex.Carries ⟨alphabet, true⟩ (Relation.ReflTransGen (CaseForm alphabet))
        (fun k x => x ∈ k.resolve ⟨alphabet, true⟩) (fun k x => x ∈ k.resolve ⟨alphabet, true⟩)
        (pattern.symbolSets ⟨alphabet, true⟩) :=
      fun k member _ _ forms => (folded rule pattern listed matching k member).mem_of_forms forms
    have words' := Pattern.matchesBy_related carries tokens behind words
    have taken := Takes.intro listed matching active lineStart words'
      fun asked => (lineEnd asked).respelled rests
    rwa [← tokens.length_eq, ← fronts.length_eq] at taken

end Spec

/-- A scanner with one rule, for a single letter. -/
def Spec.ofLetter (c : Nat) : Spec :=
  ⟨[⟨initialName, false⟩], [⟨none, .matching (.ofRegex (.symbol c)), .inclusive, ⟨1, 1⟩⟩]⟩

theorem Spec.ofLetter_takes_iff {charset : Charset} {x : Nat} :
    (ofLetter c).Takes charset 0 true [x] ⟨0, 1, 1⟩ ↔
      x ∈ (⟨.single c, false⟩ : SymbolClass).resolve charset := by
  constructor
  · intro takes
    generalize whole : [x] = input at takes
    generalize same : (⟨0, 1, 1⟩ : Match) = m at takes
    cases takes with
    | @intro id _ _ _ _ _ listed matching _ _ words _ =>
      obtain rfl : id = 0 := congrArg Match.rule same.symm
      cases listed
      cases matching
      obtain ⟨y, read, rfl⟩ := words.1
      exact (List.cons.inj whole).1 ▸ read
  · intro read
    have active : 0 ∈ (ofLetter c).activeConditions .inclusive := List.mem_cons_self
    have takes : (ofLetter c).Takes charset 0 true ([x] ++ [] ++ []) ⟨0, 1, 1⟩ :=
      .intro rfl rfl active nofun ⟨⟨x, read, rfl⟩, rfl⟩ nofun
    exact takes

/-- One folding is enough if no chain of forms leads out of what it gives; otherwise a second one adds the
ends of the chains, and that is always enough. A class holds all forms of its letters under just this
condition, or, if it is negated, if its folded ranges hold every letter with a form among them; over
bytes every class does. And a rule with such sets takes all spellings of what it takes. -/
theorem caseFold_closed_iff (alphabet : Alphabet) (s : SymbolSet) :
    ((s.caseFold alphabet).caseFold alphabet = s.caseFold alphabet ↔ s.Settled alphabet) ∧
    (∀ x, x ∈ (s.caseFold alphabet).caseFold alphabet ↔ x ∈ s.caseFold alphabet ∨
      ∃ chain ∈ caseChains, chain.Within alphabet ∧ chain.letter ∈ s ∧ chain.further = x) ∧
    ((s.caseFold alphabet).caseFold alphabet).caseFold alphabet =
      (s.caseFold alphabet).caseFold alphabet ∧
    (∀ k : SymbolClass, (k.resolve ⟨alphabet, true⟩).Folded alphabet ↔
      if k.negated then ∀ c d, CaseForm alphabet c d →
        d ∈ (k.ranges.restrict alphabet).caseFold alphabet →
          c ∈ (k.ranges.restrict alphabet).caseFold alphabet
      else (k.ranges.restrict alphabet).Settled alphabet) ∧
    (alphabet = .byte → s.Settled alphabet ∧
      ∀ k : SymbolClass, (k.resolve ⟨alphabet, true⟩).Folded alphabet) ∧
    ∀ (spec : Spec) (condition : Nat) (atLineStart : Bool) (input input' : List Nat) (m : Match),
      spec.RuleFolded alphabet m.rule → Respelled alphabet input input' →
        spec.Takes ⟨alphabet, true⟩ condition atLineStart input m →
          spec.Takes ⟨alphabet, true⟩ condition atLineStart input' m := by
  refine ⟨SymbolSet.caseFold_caseFold_eq_iff, fun x => SymbolSet.mem_caseFold_caseFold,
    SymbolSet.folded_iff.mp SymbolSet.folded_caseFold_caseFold,
    fun k => k.folded_resolve_iff alphabet, ?_, ?_⟩
  · rintro rfl
    exact ⟨s.settled_byte, SymbolClass.folded_resolve_byte⟩
  · exact fun spec condition atLineStart input input' m folded spelled =>
      Spec.Takes.respelled folded spelled

/-- No chain starts at the small I, so a rule for it takes the capital as well. -/
theorem ofLetter_respelled :
    ((SymbolSet.single 0x69).caseFold .unicode).caseFold .unicode =
      (SymbolSet.single 0x69).caseFold .unicode ∧
    (Spec.ofLetter 0x69).RuleFolded .unicode 0 ∧ Respelled .unicode [0x69] [0x49] ∧
    (Spec.ofLetter 0x69).Takes ⟨.unicode, true⟩ 0 true [0x69] ⟨0, 1, 1⟩ ∧
    (Spec.ofLetter 0x69).Takes ⟨.unicode, true⟩ 0 true [0x49] ⟨0, 1, 1⟩ := by
  obtain ⟨closed_iff, -, -, classes, -, rules⟩ := caseFold_closed_iff .unicode (.single 0x69)
  have settled : (SymbolSet.single 0x69).Settled .unicode := by
    intro chain listed _ own
    have elsewhere : ∀ chain ∈ caseChains, chain.letter ≠ 0x69 := by decide
    rw [SymbolSet.single, SymbolSet.mem_ofRange, SymbolRange.mem_single] at own
    exact absurd own (elsewhere chain listed)
  have folded : ((⟨.single 0x69, false⟩ : SymbolClass).resolve ⟨.unicode, true⟩).Folded .unicode := by
    have inside : (SymbolSet.single 0x69).restrict .unicode = .single 0x69 := by decide
    refine (classes ⟨.single 0x69, false⟩).mpr ?_
    rw [if_neg (by decide), inside]
    exact settled
  have rule : (Spec.ofLetter 0x69).RuleFolded .unicode 0 := by
    intro rule pattern listed matching k member
    cases listed
    cases matching
    rw [Pattern.symbolSets, Pattern.ofRegex, Regex.symbolSets, List.append_nil] at member
    exact List.mem_singleton.mp member ▸ folded
  have capital : IsByteCapital 0x49 := by decide
  have form : CaseForm .unicode 0x69 0x49 :=
    caseForm_iff.mpr ⟨capital.mem_casePairs.2, by decide, by decide⟩
  have spelled : Respelled .unicode [0x69] [0x49] := .cons (.single form) .nil
  have takes : (Spec.ofLetter 0x69).Takes ⟨.unicode, true⟩ 0 true [0x69] ⟨0, 1, 1⟩ :=
    Spec.ofLetter_takes_iff.mpr (SymbolClass.mem_resolve_single.mpr ⟨by decide, Or.inl rfl⟩)
  exact ⟨closed_iff.mpr settled, rule, spelled, takes, rules _ 0 true _ _ _ rule spelled takes⟩

/-- The capital of the long S is the usual one, and the small letter of that is not added. -/
theorem longS_not_closed :
    (∀ c ∈ SymbolSet.single 0x17F, c ≤ Alphabet.unicode.maxSymbol) ∧
    ((SymbolSet.single 0x17F).caseFold .unicode).caseFold .unicode ≠
      (SymbolSet.single 0x17F).caseFold .unicode ∧
    ¬((⟨.single 0x17F, false⟩ : SymbolClass).resolve ⟨.unicode, true⟩).Folded .unicode ∧
    Respelled .unicode [0x53] [0x73] ∧
    (Spec.ofLetter 0x17F).Takes ⟨.unicode, true⟩ 0 true [0x53] ⟨0, 1, 1⟩ ∧
    ¬(Spec.ofLetter 0x17F).Takes ⟨.unicode, true⟩ 0 true [0x73] ⟨0, 1, 1⟩ := by
  obtain ⟨first, second⟩ := linked_of_mem (by decide : ⟨0x17F, 0x53, 0x73⟩ ∈ caseChains)
  have form : CaseForm .unicode 0x53 0x73 := caseForm_iff.mpr ⟨second, by decide, by decide⟩
  have held : 0x53 ∈ (⟨.single 0x17F, false⟩ : SymbolClass).resolve ⟨.unicode, true⟩ :=
    SymbolClass.mem_resolve_single.mpr
      ⟨by decide, Or.inr (caseForm_iff.mpr ⟨first, by decide, by decide⟩)⟩
  have missing : 0x73 ∉ (⟨.single 0x17F, false⟩ : SymbolClass).resolve ⟨.unicode, true⟩ := by
    have unlisted : CaseRun.listsIn caseRuns 0x17F 0x73 = false := by decide +kernel
    rw [SymbolClass.mem_resolve_single, caseForm_iff, ← listsIn_caseRuns_iff, unlisted]
    decide
  have not_closed : ¬((⟨.single 0x17F, false⟩ : SymbolClass).resolve ⟨.unicode, true⟩).Folded .unicode :=
    fun closed => missing (closed _ held _ form)
  have folded : (⟨.single 0x17F, false⟩ : SymbolClass).resolve ⟨.unicode, true⟩ =
      (SymbolSet.single 0x17F).caseFold .unicode := by
    have inside : (SymbolSet.single 0x17F).restrict .unicode = .single 0x17F := by decide
    exact congrArg (SymbolSet.caseFold · .unicode) inside
  refine ⟨?_, ?_, not_closed, .cons (.single form) .nil, Spec.ofLetter_takes_iff.mpr held, ?_⟩
  · intro c member
    rw [SymbolSet.single, SymbolSet.mem_ofRange, SymbolRange.mem_single] at member
    exact member ▸ (by decide)
  · rw [← folded]
    exact fun same => not_closed (SymbolSet.folded_iff.mpr same)
  · exact fun takes => missing (Spec.ofLetter_takes_iff.mp takes)

end Scangen
