import Scangen.Proofs.Build.Binary
import Scangen.Proofs.Build.Options
import Scangen.Proofs.Partition.Canonical

/-!
A specification with a rule for each of many letters. It can be built, however many there are, and a
letter that another one follows is a token. Each letter has a class, in the order of the letters.
-/

namespace Scangen

namespace Spec

/-! Letters beyond the bytes, and rules for them. -/

def letterAt (i : Nat) : Nat := 0x10000 + i

theorem letterAt_injective : Function.Injective letterAt := fun _ _ same => Nat.add_left_cancel same

def letterPattern (i : Nat) : Pattern := .ofRegex (.symbol (letterAt i))

/-- The first letter twice, perhaps in front of itself. -/
def doubledPattern : Pattern :=
  ⟨false, .concatenation [.symbol (letterAt 0), .symbol (letterAt 0)],
    some (.optional (.symbol (letterAt 0))), false⟩

/-- The first two letters at the start of a line. -/
def openingPattern : Pattern :=
  ⟨true, .concatenation [.symbol (letterAt 0), .symbol (letterAt 1)], none, false⟩

def letterRule (id : Nat) (pattern : Pattern) : Rule :=
  ⟨none, .matching pattern, .inclusive, ⟨id + 1, 1⟩⟩

/-- A rule for each letter, and two more. -/
def manyLetters (count : Nat) : Spec where
  conditions := [⟨initialName, false⟩]
  rules := ((List.range count).map fun i => letterRule i (letterPattern i)) ++
    [letterRule count doubledPattern, letterRule (count + 1) openingPattern]

/-- Code points in classes, a minimal automaton, and a place for each state and class. -/
def denseConfig : Config := ⟨⟨.unicode, false⟩, true, true, ⟨.dense, false⟩⟩

variable {count : Nat}

theorem getElem?_manyLetters {id : Nat} {rule : Rule} :
    (manyLetters count).rules[id]? = some rule ↔
      (id < count ∧ rule = letterRule id (letterPattern id)) ∨
        (id = count ∧ rule = letterRule count doubledPattern) ∨
        (id = count + 1 ∧ rule = letterRule (count + 1) openingPattern) := by
  have length : ((List.range count).map fun i => letterRule i (letterPattern i)).length = count := by
    rw [List.length_map, List.length_range]
  by_cases early : id < count
  · rw [manyLetters, List.getElem?_append_left (by rwa [length]), List.getElem?_map,
      List.getElem?_range early, Option.map_some, Option.some_inj, eq_comm]
    constructor
    · exact fun same => Or.inl ⟨early, same⟩
    · rintro (⟨_, same⟩ | ⟨late, _⟩ | ⟨late, _⟩)
      · exact same
      · omega
      · omega
  · rw [manyLetters, List.getElem?_append_right (by omega), length]
    obtain ⟨more, rfl⟩ : ∃ more, id = count + more := ⟨id - count, by omega⟩
    rw [Nat.add_sub_cancel_left]
    match more with
    | 0 => simp [eq_comm]
    | 1 => simp [eq_comm]
    | more + 2 => simp

theorem hasActive_manyLetters {id : Nat} {pattern : Pattern} :
    (manyLetters count).HasActive 0 id (.matching pattern) ↔
      (id < count ∧ pattern = letterPattern id) ∨ (id = count ∧ pattern = doubledPattern) ∨
        (id = count + 1 ∧ pattern = openingPattern) := by
  simp only [HasActive, getElem?_manyLetters]
  constructor
  · rintro ⟨rule, ⟨early, rfl⟩ | ⟨rfl, rfl⟩ | ⟨rfl, rfl⟩, matching, -⟩
    · cases matching
      exact Or.inl ⟨early, rfl⟩
    · cases matching
      exact Or.inr (Or.inl ⟨rfl, rfl⟩)
    · cases matching
      exact Or.inr (Or.inr ⟨rfl, rfl⟩)
  · rintro (⟨early, rfl⟩ | ⟨rfl, rfl⟩ | ⟨rfl, rfl⟩)
    · exact ⟨_, Or.inl ⟨early, rfl⟩, rfl, List.mem_singleton_self 0⟩
    · exact ⟨_, Or.inr (Or.inl ⟨rfl, rfl⟩), rfl, List.mem_singleton_self 0⟩
    · exact ⟨_, Or.inr (Or.inr ⟨rfl, rfl⟩), rfl, List.mem_singleton_self 0⟩

theorem mem_patterns_manyLetters {pattern : Pattern} :
    pattern ∈ (manyLetters count).patterns ↔
      (∃ i < count, pattern = letterPattern i) ∨ pattern = doubledPattern ∨
        pattern = openingPattern := by
  simp only [patterns, manyLetters, letterRule, List.filterMap_append, List.mem_append,
    List.filterMap_map, List.mem_filterMap, List.mem_range, Function.comp_apply, Option.some_inj,
    List.filterMap_cons, List.filterMap_nil, List.mem_cons, List.not_mem_nil, or_false]
  simp only [eq_comm]

theorem countsOrdered_manyLetters :
    ∀ pattern ∈ (manyLetters count).patterns, pattern.CountsOrdered := by
  intro pattern member
  rcases mem_patterns_manyLetters.mp member with ⟨i, _, rfl⟩ | rfl | rfl <;>
    simp [Pattern.CountsOrdered, letterPattern, Pattern.ofRegex, doubledPattern, openingPattern,
      Regex.CountsOrdered, Regex.AllCountsOrdered]

/-- Only one rule has a context, and this is short. -/
theorem lengthsFit_manyLetters : ∀ pattern ∈ (manyLetters count).patterns,
    ∀ context ∈ pattern.context, pattern.body.LengthsFit ∧ context.LengthsFit := by
  intro pattern member context found
  rcases mem_patterns_manyLetters.mp member with ⟨i, _, rfl⟩ | rfl | rfl
  · cases found
  · cases found
    constructor <;> intro part listed n length
    · simp only [doubledPattern, Regex.parts, Regex.partsOfAll, List.append_nil, List.cons_append,
        List.nil_append, List.mem_cons, List.not_mem_nil, or_false] at listed
      rcases listed with rfl | rfl | rfl <;> cases length <;> decide
    · simp only [Regex.parts, List.mem_cons, List.not_mem_nil, or_false] at listed
      rcases listed with rfl | rfl <;> cases length
      decide
  · cases found

theorem usesLineStart_manyLetters : (manyLetters count).usesLineStart = true :=
  List.any_eq_true.mpr ⟨openingPattern, mem_patterns_manyLetters.mpr (Or.inr (Or.inr rfl)), rfl⟩

theorem usesLineEnd_manyLetters : (manyLetters count).usesLineEnd = false := by
  rw [usesLineEnd, List.any_eq_false]
  intro pattern member
  rcases mem_patterns_manyLetters.mp member with ⟨i, _, rfl⟩ | rfl | rfl <;> nofun

/-! What the rules match. -/

/-- The words of the rules, with numbers for letters. -/
inductive LetterWord (count : Nat) : Bool → List Nat → Nat → Pattern → Prop
  | letter {i : Nat} (atLineStart : Bool) : i < count →
      LetterWord count atLineStart [i] i (letterPattern i)
  | doubled (atLineStart : Bool) : LetterWord count atLineStart [0, 0] count doubledPattern
  | followed (atLineStart : Bool) : LetterWord count atLineStart [0, 0, 0] count doubledPattern
  | opening : LetterWord count true [0, 1] (count + 1) openingPattern

namespace LetterWord

variable {atLineStart : Bool} {letters : List Nat} {id : Nat} {pattern : Pattern}

theorem lineEnd (reads : LetterWord count atLineStart letters id pattern) :
    pattern.lineEnd = false := by
  cases reads <;> rfl

/-- A word belongs to one rule. -/
theorem unique {id' : Nat} {pattern' : Pattern}
    (reads : LetterWord count atLineStart letters id pattern)
    (reads' : LetterWord count atLineStart letters id' pattern') : id = id' := by
  cases reads <;> cases reads' <;> rfl

theorem lt (two : 2 ≤ count) (reads : LetterWord count atLineStart letters id pattern) :
    ∀ i ∈ letters, i < count := by
  cases reads with
  | letter _ early => simpa using early
  | doubled | followed | opening =>
    simp
    omega

end LetterWord

/-- A literal stands for itself. -/
theorem mem_literal {c x : Nat} (small : c ≤ 0x10FFFF) :
    x ∈ SymbolClass.resolve ⟨.single c, false⟩ denseConfig.charset ↔ x = c := by
  have listed : x ∈ SymbolClass.listed ⟨.single c, false⟩ denseConfig.charset ↔
      x = c ∧ x ≤ 0x10FFFF := by
    show x ∈ (SymbolSet.single c).restrict .unicode ↔ _
    rw [SymbolSet.mem_restrict, SymbolSet.single, SymbolSet.mem_ofRange, SymbolRange.mem_single]
    rfl
  rw [SymbolClass.mem_resolve, listed]
  show x ≤ 0x10FFFF ∧ _ ↔ _
  simp only [iff_true]
  omega

theorem matches_symbol {c : Nat} {word : List Nat} (small : c ≤ 0x10FFFF) :
    (Regex.symbol c).Matches denseConfig.charset word ↔ word = [c] := by
  rw [Regex.Matches, Regex.MatchesBy]
  simp only [mem_literal small, exists_eq_left]

theorem matches_pair {c d : Nat} {word : List Nat} (c_small : c ≤ 0x10FFFF)
    (d_small : d ≤ 0x10FFFF) :
    (Regex.concatenation [.symbol c, .symbol d]).Matches denseConfig.charset word ↔
      word = [c, d] := by
  simp only [Regex.Matches, Regex.MatchesBy, Regex.MatchesEach, mem_literal c_small,
    mem_literal d_small, exists_eq_left]
  constructor
  · rintro ⟨_, _, rfl, rfl, _, _, rfl, rfl, rfl⟩
    rfl
  · rintro rfl
    exact ⟨[c], [d], rfl, rfl, [d], [], rfl, rfl, rfl⟩

theorem letterAt_le {i : Nat} (few : count ≤ 0x100000) (early : i < count) :
    letterAt i ≤ 0x10FFFF := by
  unfold letterAt
  omega

section Rules

variable (two : 2 ≤ count) (few : count ≤ 0x100000) {atLineStart : Bool} {letters : List Nat}
  {id : Nat} {pattern : Pattern}

include two few

/-- Each rule matches its words and no others. -/
theorem fits_manyLetters {read : List Nat} :
    (manyLetters count).Fits denseConfig.charset 0 atLineStart read id pattern ↔
      ∃ letters, LetterWord count atLineStart letters id pattern ∧ read = letters.map letterAt := by
  have first := letterAt_le few (by omega : 0 < count)
  have second := letterAt_le few (by omega : 1 < count)
  constructor
  · rintro ⟨active, lineStart, token, following, rfl, body, behind⟩
    have body : pattern.body.ordered.Matches denseConfig.charset token := body
    rcases hasActive_manyLetters.mp active with ⟨early, rfl⟩ | ⟨rfl, rfl⟩ | ⟨rfl, rfl⟩
    · have behind : following = [] := behind
      have body := (matches_symbol (letterAt_le few early)).mp body
      exact ⟨[id], .letter _ early, by rw [body, behind]; rfl⟩
    · have behind : following = [] ∨ _ := behind
      have body := (matches_pair first first).mp body
      rcases behind with rfl | behind
      · exact ⟨[0, 0], .doubled _, by rw [body]; rfl⟩
      · have behind := (matches_symbol first).mp behind
        exact ⟨[0, 0, 0], .followed _, by rw [body, behind]; rfl⟩
    · have behind : following = [] := behind
      have body := (matches_pair first second).mp body
      rw [lineStart rfl]
      exact ⟨[0, 1], .opening, by rw [body, behind]; rfl⟩
  · rintro ⟨letters, reads, rfl⟩
    cases reads with
    | letter _ early =>
      refine ⟨hasActive_manyLetters.mpr (Or.inl ⟨early, rfl⟩), nofun, [_], [], rfl, ?_, rfl⟩
      exact (matches_symbol (letterAt_le few early)).mpr rfl
    | doubled =>
      refine ⟨hasActive_manyLetters.mpr (Or.inr (Or.inl ⟨rfl, rfl⟩)), nofun, [_, _], [], rfl, ?_,
        Or.inl rfl⟩
      exact (matches_pair first first).mpr rfl
    | followed =>
      refine ⟨hasActive_manyLetters.mpr (Or.inr (Or.inl ⟨rfl, rfl⟩)), nofun, [_, _], [_], rfl, ?_,
        Or.inr ?_⟩
      · exact (matches_pair first first).mpr rfl
      · exact (matches_symbol first).mpr rfl
    | opening =>
      refine ⟨hasActive_manyLetters.mpr (Or.inr (Or.inr ⟨rfl, rfl⟩)), fun _ => rfl, [_, _], [],
        rfl, ?_, rfl⟩
      exact (matches_pair first second).mpr rfl

/-- A rule leads behind its words, whatever follows them. -/
theorem leads_manyLetters (reads : LetterWord count atLineStart letters id pattern)
    (rest : List Nat) :
    (manyLetters count).Leads denseConfig.charset 0 atLineStart (letters.map letterAt ++ rest)
      letters.length id pattern := by
  have front : (letters.map letterAt ++ rest).take letters.length = letters.map letterAt :=
    List.take_left' (List.length_map letterAt)
  refine ⟨⟨?_, ?_, ?_⟩, fun {id' pattern'} fronts _ => ?_⟩
  · rw [List.length_append, List.length_map]
    exact Nat.le_add_right _ _
  · rw [front]
    exact (fits_manyLetters two few).mpr ⟨letters, reads, rfl⟩
  · rw [reads.lineEnd]
    nofun
  · have fits := fronts.fits
    rw [front] at fits
    obtain ⟨letters', reads', same⟩ := (fits_manyLetters two few).mp fits
    rw [← letterAt_injective.list_map same] at reads'
    exact (reads.unique reads').le

/-- Of two letters the first one is a token, unless it is the first of all. -/
theorem chosen_manyLetters {i j : Nat} (early : i < count) (other : i ≠ 0) :
    Chosen Candidate.Beats ((manyLetters count).Offers denseConfig.charset 0 false
      [letterAt i, letterAt j]) (some ⟨1, ⟨i, i, .whole⟩⟩) := by
  constructor
  · exact .intro (leads_manyLetters two few (.letter false early) [letterAt j]) Nat.one_ne_zero
  · intro found offers
    cases offers with
    | @intro matched id pattern leads token =>
      have inside : matched ≤ 2 := leads.fronts.inside
      obtain ⟨letters, reads, same⟩ := (fits_manyLetters two few).mp leads.fronts.fits
      match matched with
      | 0 =>
        have none_read : letters = [] := letterAt_injective.list_map same.symm
        subst none_read
        cases reads
      | 1 =>
        have one_read : letters = [i] := letterAt_injective.list_map same.symm
        subst one_read
        cases reads
        exact Candidate.beats_irrefl _
      | 2 =>
        have two_read : letters = [i, j] := letterAt_injective.list_map same.symm
        subst two_read
        cases reads
        exact absurd rfl other

/-- That token is found at every stage that is asked for its own places only. -/
theorem longestMatch_manyLetters {i j : Nat} (early : i < count) (other : i ≠ 0) {config : Config}
    (same : config.charset = denseConfig.charset) {stage : Stage}
    (room : (manyLetters count).AddressableAt config stage) :
    (manyLetters count).longestMatchAt config stage 0 [letterAt i, letterAt j] false =
      some ⟨i, 1, 1⟩ := by
  obtain ⟨best, chosen, found⟩ :=
    longestMatchAt_chosen room 0 [letterAt i, letterAt j] false
  rw [same] at chosen
  rw [found, chosen.unique Candidate.eq_of_not_beats (chosen_manyLetters two few early other)]
  rfl

omit two few in
theorem exists_letterWord {rule : Rule} (listed : (manyLetters count).rules[id]? = some rule) :
    ∃ pattern atLineStart letters, rule = letterRule id pattern ∧
      LetterWord count atLineStart letters id pattern := by
  rcases getElem?_manyLetters.mp listed with ⟨early, rfl⟩ | ⟨rfl, rfl⟩ | ⟨rfl, rfl⟩
  · exact ⟨_, false, [id], rfl, .letter false early⟩
  · exact ⟨_, false, [0, 0], rfl, .doubled false⟩
  · exact ⟨_, true, [0, 1], rfl, .opening⟩

theorem not_matches_nil (reads : LetterWord count atLineStart letters id pattern) :
    ¬pattern.body.ordered.Matches denseConfig.charset [] := by
  have first := letterAt_le few (by omega : 0 < count)
  have second := letterAt_le few (by omega : 1 < count)
  intro nothing
  cases reads with
  | letter _ early => cases (matches_symbol (letterAt_le few early)).mp nothing
  | doubled | followed => cases (matches_pair first first).mp nothing
  | opening => cases (matches_pair first second).mp nothing

theorem nonempty_manyLetters : ∀ pattern ∈ (manyLetters count).patterns, pattern.context ≠ none →
    ¬pattern.body.Matches denseConfig.charset [] := by
  intro pattern member _
  obtain ⟨atLineStart, letters, id, reads⟩ : ∃ atLineStart letters id,
      LetterWord count atLineStart letters id pattern := by
    rcases mem_patterns_manyLetters.mp member with ⟨i, early, rfl⟩ | rfl | rfl
    · exact ⟨false, [i], i, .letter false early⟩
    · exact ⟨false, [0, 0], count, .doubled false⟩
    · exact ⟨true, [0, 1], count + 1, .opening⟩
  rw [← Regex.ordered_eq_self pattern.body (countsOrdered_manyLetters pattern member).1]
  exact not_matches_nil two few reads

theorem defects_manyLetters : (manyLetters count).defects denseConfig.charset = [] := by
  rw [defects, List.flatMap_eq_nil_iff]
  rintro ⟨rule, id⟩ member
  have listed : (manyLetters count).rules[id]? = some rule := List.mem_zipIdx_iff_getElem?.mp member
  obtain ⟨pattern, atLineStart, letters, rfl, reads⟩ := exists_letterWord listed
  obtain ⟨trailing, cut⟩ : ∃ trailing, pattern.trailing = .ok trailing := by
    cases reads <;> exact ⟨_, rfl⟩
  obtain ⟨token, following, _, matched⟩ :=
    ((fits_manyLetters two few).mpr ⟨letters, reads, rfl⟩).words
  have nothing_wrong : pattern.defects denseConfig.charset = [] := by
    rw [Pattern.defects, cut, if_neg (not_matches_nil two few reads),
      if_pos ⟨token, following, matched⟩]
    rfl
  simp only [ruleDefects, letterRule, nothing_wrong]
  rfl

theorem uselessRules_manyLetters : (manyLetters count).uselessRules denseConfig.charset = [] := by
  rw [uselessRules, List.filterMap_eq_nil_iff]
  rintro ⟨rule, id⟩ member
  have listed : (manyLetters count).rules[id]? = some rule := List.mem_zipIdx_iff_getElem?.mp member
  obtain ⟨pattern, atLineStart, letters, rfl, reads⟩ := exists_letterWord listed
  have wins : (manyLetters count).Wins denseConfig.charset id :=
    ⟨0, Nat.zero_lt_one, atLineStart, _, _, pattern, leads_manyLetters two few reads []⟩
  exact if_pos wins

/-- Nothing is wrong with the rules, and the build does not stop. -/
theorem build_manyLetters {config : Config} (same : config.charset = denseConfig.charset) :
    (manyLetters count).build config [] = ([], .ok ⟨Partition.ofSpec (manyLetters count) config,
      (manyLetters count).dfa config config.minimize, (manyLetters count).endActions⟩) := by
  rw [build_eq, same, defects_manyLetters two few, uselessRules_manyLetters two few]
  rfl

end Rules

/-! The classes: one for all symbols that are no letters, then those of the letters in order, and the
start of a line. -/

def letterClass (count c : Nat) : Option Nat :=
  if 0x10000 ≤ c ∧ c < 0x10000 + count then some (c - 0x10000 + 1)
  else if c ≤ 0x10FFFF then some 0
  else none

theorem letterClass_eq_none (few : count ≤ 0x100000) {c : Nat} :
    letterClass count c = none ↔ 0x10FFFF < c := by
  unfold letterClass
  grind

theorem letterClass_eq_succ {c i : Nat} :
    letterClass count c = some (i + 1) ↔ i < count ∧ c = letterAt i := by
  unfold letterClass letterAt
  grind

theorem letterClass_eq_zero {c : Nat} (small : c ≤ 0x10FFFF) :
    letterClass count c = some 0 ↔ ∀ i < count, c ≠ letterAt i := by
  constructor
  · intro other i early same
    have own := letterClass_eq_succ.mpr ⟨early, same⟩
    rw [other] at own
    cases own
  · intro other
    have outside : ¬(0x10000 ≤ c ∧ c < 0x10000 + count) := by
      rintro ⟨low, high⟩
      refine other (c - 0x10000) (by omega) ?_
      unfold letterAt
      omega
    rw [letterClass, if_neg outside, if_pos small]

theorem letterClass_eq_iff {a b : Nat} (a_small : a ≤ 0x10FFFF) (b_small : b ≤ 0x10FFFF) :
    letterClass count a = letterClass count b ↔
      ∀ i < count, (a = letterAt i ↔ b = letterAt i) := by
  constructor
  · intro same i early
    have first : _ ↔ i < count ∧ a = letterAt i := letterClass_eq_succ
    rw [same, letterClass_eq_succ] at first
    simpa [early] using first.symm
  · intro same
    refine Option.ext fun k => ?_
    cases k with
    | zero =>
      rw [letterClass_eq_zero a_small, letterClass_eq_zero b_small]
      exact forall₂_congr fun i early => not_congr (same i early)
    | succ i =>
      rw [letterClass_eq_succ, letterClass_eq_succ]
      exact and_congr_right (same i)

theorem letterClass_inOrder : InOrder (letterClass count) := by
  intro c k found smaller below
  unfold letterClass at found ⊢
  split at found
  · cases found
    match smaller with
    | 0 => exact ⟨0, by omega, by simp⟩
    | smaller + 1 => exact ⟨0x10000 + smaller, by omega, by grind⟩
  · split at found <;> cases found
    omega

section Classes

variable (two : 2 ≤ count) (few : count ≤ 0x100000)

include two few

theorem mem_setsOf_manyLetters {s : SymbolSet} :
    s ∈ Partition.setsOf (manyLetters count) denseConfig.charset ↔
      ∃ i < count, s = literalSet (letterAt i) denseConfig.charset := by
  have nonempty : ∀ i < count, !(literalSet (letterAt i) denseConfig.charset).isEmpty := by
    intro i early
    obtain ⟨range, part, _⟩ := (mem_literal (letterAt_le few early)).mpr rfl
    rw [SymbolSet.isEmpty, Bool.not_eq_true', List.isEmpty_eq_false_iff]
    exact List.ne_nil_of_mem part
  rw [Partition.setsOf, mem_distinct, List.mem_filter, List.mem_flatMap]
  constructor
  · rintro ⟨⟨pattern, member, listed⟩, -⟩
    rcases mem_patterns_manyLetters.mp member with ⟨i, early, rfl⟩ | rfl | rfl
    · exact ⟨i, early, List.mem_singleton.mp listed⟩
    · refine ⟨0, by omega, ?_⟩
      simpa [doubledPattern, Pattern.symbolSets, Regex.symbolSets, Regex.symbolSetsOfAll] using
        listed
    · have either : s = literalSet (letterAt 0) denseConfig.charset ∨
          s = literalSet (letterAt 1) denseConfig.charset := by
        simpa [openingPattern, Pattern.symbolSets, Regex.symbolSets, Regex.symbolSetsOfAll] using
          listed
      exact either.elim (fun same => ⟨0, by omega, same⟩) fun same => ⟨1, by omega, same⟩
  · rintro ⟨i, early, rfl⟩
    exact ⟨⟨letterPattern i, mem_patterns_manyLetters.mpr (Or.inl ⟨i, early, rfl⟩),
      List.mem_singleton_self _⟩, nonempty i early⟩

theorem classOf_manyLetters :
    (Partition.ofSpec (manyLetters count) denseConfig).classOf = letterClass count := by
  have canonical : (Partition.ofSpec (manyLetters count) denseConfig).Canonical
      (Partition.setsOf (manyLetters count) denseConfig.charset) := Partition.canonical_ofSets
  have alphabet : (Partition.ofSpec (manyLetters count) denseConfig).alphabet.maxSymbol =
    0x10FFFF := rfl
  refine canonical.classOf_eq letterClass_inOrder (fun c => ?_) fun a a_small b b_small => ?_
  · rw [letterClass_eq_none few, alphabet]
  · rw [alphabet] at a_small b_small
    rw [letterClass_eq_iff a_small b_small]
    constructor
    · intro same s listed
      obtain ⟨i, early, rfl⟩ := (mem_setsOf_manyLetters two few).mp listed
      have small := letterAt_le few early
      rw [literalSet, mem_literal small, mem_literal small]
      exact same i early
    · intro same i early
      have small := letterAt_le few early
      have apart := same _ ((mem_setsOf_manyLetters two few).mpr ⟨i, early, rfl⟩)
      rwa [literalSet, mem_literal small, mem_literal small] at apart

theorem numSymbolClasses_manyLetters :
    (Partition.ofSpec (manyLetters count) denseConfig).numSymbolClasses = count + 1 := by
  have sorts := Partition.ofSpec_sorts (manyLetters count) denseConfig
  apply Nat.le_antisymm
  · by_contra more
    obtain ⟨c, found⟩ := Partition.exists_symbol (manyLetters count) denseConfig
      (by omega : count + 1 < _)
    rw [classOf_manyLetters two few, letterClass_eq_succ] at found
    omega
  · have last : letterClass count (letterAt (count - 1)) = some (count - 1 + 1) :=
      letterClass_eq_succ.mpr ⟨by omega, rfl⟩
    rw [← classOf_manyLetters two few] at last
    have := sorts.small last
    omega

theorem lineStart_manyLetters :
    (Partition.ofSpec (manyLetters count) denseConfig).lineStart = some (count + 1) := by
  rw [Partition.lineStart_ofSpec, if_pos usesLineStart_manyLetters,
    numSymbolClasses_manyLetters two few]

omit two few in
theorem lineEnd_manyLetters :
    (Partition.ofSpec (manyLetters count) denseConfig).lineEnd = none := by
  rw [Partition.lineEnd_ofSpec, if_neg (by rw [usesLineEnd_manyLetters]; exact Bool.false_ne_true)]

theorem numClasses_manyLetters : ((manyLetters count).nfa denseConfig).numClasses = count + 2 := by
  show (Partition.ofSpec (manyLetters count) denseConfig).numClasses = _
  rw [numClasses_eq, numSymbolClasses_manyLetters two few, lineStart_manyLetters two few,
    lineEnd_manyLetters]
  rfl

end Classes

end Spec

end Scangen
