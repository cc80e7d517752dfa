import Scangen.Proofs.Symbol.CaseRuns
import Scangen.Proofs.Symbol.Combinations

/-!
Case folding adds just the forms of the letters of a set. The loop skips what is there already and stops
behind the last cased letter, and neither loses a form.
-/

namespace Scangen

open SymbolRange

namespace Passes

variable {mapping : CaseMapping} {alphabet : Alphabet} {max x : Nat} {r : SymbolRange}
  {ranges : List SymbolRange}

theorem mem_newForms : x ∈ newForms mapping alphabet max r ↔ x ≤ alphabet.maxSymbol ∧ x ∉ r ∧
    ∃ c ∈ r, c ≤ max ∧ c.isValidChar ∧ (mapping.lower c = some x ∨ mapping.upper c = some x) := by
  have listed : ∀ c, c ∈ List.range' r.low (min r.high max + 1 - r.low) ↔ c ∈ r ∧ c ≤ max := by
    intro c
    rw [List.mem_range'_1, mem_def]
    omega
  have form_iff : ∀ c, x ∈ mapping.forms c ↔ mapping.lower c = some x ∨ mapping.upper c = some x := by
    simp [CaseMapping.forms]
  simp only [newForms, List.mem_flatMap, listed]
  constructor
  · rintro ⟨c, ⟨inside, small⟩, member⟩
    split at member
    next letter =>
      obtain ⟨form, kept⟩ := List.mem_filter.mp member
      simp only [Bool.and_eq_true, decide_eq_true_eq, Bool.not_eq_true', ← Bool.not_eq_true,
        contains_iff] at kept
      exact ⟨kept.1.2, kept.2, c, inside, small, letter, (form_iff c).mp form⟩
    next => cases member
  · rintro ⟨symbol, outside, c, inside, small, letter, form⟩
    refine ⟨c, ⟨inside, small⟩, ?_⟩
    have different : x ≠ c := fun same => outside (same ▸ inside)
    have fresh : r.contains x = false := Bool.eq_false_iff.mpr (mt contains_iff.mp outside)
    rw [if_pos letter, List.mem_filter]
    exact ⟨(form_iff c).mpr form, by simp [different, symbol, fresh]⟩

/-- Ranges start later and later, so nothing is lost where the loop stops. -/
theorem mem_newFormsOfAll (separated : ranges.Pairwise Before) :
    x ∈ newFormsOfAll mapping alphabet max ranges ↔
      ∃ r ∈ ranges, x ∈ newForms mapping alphabet max r := by
  induction ranges with
  | nil => simp [newFormsOfAll]
  | cons r rest ih =>
    rw [newFormsOfAll]
    split
    next above =>
      refine iff_of_false List.not_mem_nil ?_
      rintro ⟨s, member, added⟩
      obtain ⟨-, -, c, inside, small, -⟩ := mem_newForms.mp added
      exact not_mem_of_lt separated (Nat.lt_of_le_of_lt small above) ⟨s, member, inside⟩
    next =>
      rw [List.mem_append, ih (List.pairwise_cons.mp separated).2, List.exists_mem_cons_iff]

/-- The loop over the ranges of a set adds the forms of its letters, whatever forms letters have. -/
theorem fold_covers {s : SymbolSet} (words : WordRanges s.ranges) (mapping : CaseMapping)
    (alphabet : Alphabet) :
    Covers (fold mapping alphabet s.ranges) fun x => x ∈ s ∨ mapping.Adds alphabet s x := by
  obtain ⟨added, collected⟩ : ∃ added,
      added = newFormsOfAll mapping alphabet (min alphabet.maxSymbol maxCased) s.ranges := ⟨_, rfl⟩
  have added_iff : ∀ x, x ∈ s ∨ x ∈ added ↔ x ∈ s ∨ mapping.Adds alphabet s x := by
    intro x
    rw [collected, mem_newFormsOfAll s.separated]
    simp only [mem_newForms]
    constructor
    · rintro (own | ⟨r, member, symbol, -, c, inside, small, letter, form⟩)
      · exact Or.inl own
      · exact Or.inr ⟨symbol, c, ⟨r, member, inside⟩, letter, small, form⟩
    · rintro (own | ⟨symbol, c, ⟨r, member, inside⟩, letter, small, form⟩)
      · exact Or.inl own
      · by_cases outside : x ∈ r
        · exact Or.inl ⟨r, member, outside⟩
        · exact Or.inr ⟨r, member, symbol, outside, c, inside, small, letter, form⟩
  unfold fold
  rw [← collected]
  dsimp only
  split
  next nothing =>
    rw [List.isEmpty_iff.mp nothing] at added_iff
    exact s.covers.congr fun x => by simpa using added_iff x
  next =>
    have added_words : WordRanges (added.map .single) := by
      intro r member
      obtain ⟨x, new, rfl⟩ := List.mem_map.mp member
      rw [collected, mem_newFormsOfAll s.separated] at new
      obtain ⟨r, -, new⟩ := new
      exact Nat.le_trans (mem_newForms.mp new).1 (maxSymbol_lt_maxWord alphabet).le
    refine (normalize_covers (List.forall_mem_append.mpr ⟨words, added_words⟩)).congr fun x => ?_
    rw [← added_iff]
    simp [or_and_right, exists_or, SymbolSet.mem_def]

theorem wordRanges_fold {s : SymbolSet} (words : WordRanges s.ranges) :
    WordRanges (fold mapping alphabet s.ranges) := by
  intro r member
  rcases ((fold_covers words mapping alphabet).members r.high).mp ⟨r, member, r.high_mem⟩ with
    own | added
  · exact SymbolSet.wordRanges_iff.mp words r.high own
  · exact Nat.le_trans added.1 (maxSymbol_lt_maxWord alphabet).le

end Passes

namespace SymbolSet

variable {s t : SymbolSet} {mapping : CaseMapping} {alphabet : Alphabet} {x : Nat}

theorem wordRanges_union (words : WordRanges s.ranges) (words' : WordRanges t.ranges) :
    WordRanges (s.union t).ranges := by
  rw [wordRanges_iff] at words words' ⊢
  exact fun c member => (mem_union.mp member).elim (words c) (words' c)

theorem adds_union : mapping.Adds alphabet (s.union t) x ↔
    mapping.Adds alphabet s x ∨ mapping.Adds alphabet t x := by
  constructor
  · rintro ⟨symbol, c, inside, form⟩
    exact (mem_union.mp inside).imp (fun first => ⟨symbol, c, first, form⟩)
      fun second => ⟨symbol, c, second, form⟩
  · rintro (⟨symbol, c, inside, form⟩ | ⟨symbol, c, inside, form⟩)
    · exact ⟨symbol, c, mem_union.mpr (Or.inl inside), form⟩
    · exact ⟨symbol, c, mem_union.mpr (Or.inr inside), form⟩

theorem folded_union : x ∈ s.union t ∨ mapping.Adds alphabet (s.union t) x ↔
    (x ∈ s ∨ mapping.Adds alphabet s x) ∨ x ∈ t ∨ mapping.Adds alphabet t x := by
  rw [mem_union, adds_union]
  exact or_or_or_comm

/-- Folding two sets and joining the outcomes is folding their union, whatever forms letters have. -/
theorem fold_union (words : WordRanges s.ranges) (words' : WordRanges t.ranges) :
    Passes.fold mapping alphabet (s.union t).ranges = Passes.normalize
      (Passes.fold mapping alphabet s.ranges ++ Passes.fold mapping alphabet t.ranges) := by
  have first := Passes.fold_covers words mapping alphabet
  have second := Passes.fold_covers words' mapping alphabet
  have both : WordRanges
      (Passes.fold mapping alphabet s.ranges ++ Passes.fold mapping alphabet t.ranges) :=
    List.forall_mem_append.mpr ⟨Passes.wordRanges_fold words, Passes.wordRanges_fold words'⟩
  refine (Passes.fold_covers (wordRanges_union words words') mapping alphabet).unique
    ((Passes.normalize_covers both).congr fun x => ?_)
  rw [folded_union, ← first.members, ← second.members]
  simp only [List.mem_append, or_and_right, exists_or]

/-- No letter behind the last cased one, and no number that is not a letter, has a form in the tables. -/
theorem mem_caseFold_iff :
    x ∈ s.caseFold alphabet ↔ x ∈ s ∨ CaseMapping.simple.Adds alphabet s x := by
  rw [mem_caseFold, mem_counterparts, or_comm]
  constructor
  · rintro (own | ⟨c, pair, c_symbol, symbol, inside⟩)
    · exact Or.inl own
    · have letters := casedLetters_of_mem pair
      have form := (CaseMapping.simple_iff letters.letter letters.different).mpr pair
      exact Or.inr ⟨symbol, c, inside, letters.letter, Nat.le_min.mpr ⟨c_symbol, letters.letter_le⟩, form⟩
  · rintro (own | ⟨symbol, c, inside, letter, small, form⟩)
    · exact Or.inl own
    · by_cases different : c = x
      · exact Or.inl (different ▸ inside)
      · have pair := (CaseMapping.simple_iff letter different).mp form
        exact Or.inr ⟨c, pair, (Nat.le_min.mp small).1, symbol, inside⟩

/-- Case folding adds just the single-character forms of the letters of a set, as far as they belong to the
alphabet. The loop over its ranges does so with any forms, and with those of the tables it ends with
the same ranges. They are in normal form, so the union of two sets can be folded one by one. -/
theorem caseFold_exact (words : WordRanges s.ranges) (words' : WordRanges t.ranges)
    (alphabet : Alphabet) :
    (∀ mapping, Covers (Passes.fold mapping alphabet s.ranges) fun x =>
      x ∈ s ∨ mapping.Adds alphabet s x) ∧
    Passes.fold .simple alphabet s.ranges = (s.caseFold alphabet).ranges ∧
    (s.caseFold alphabet).ranges.Pairwise SymbolRange.Before ∧
    (∀ x, (s.caseFold alphabet).contains x = true ↔
      s.contains x = true ∨ CaseMapping.simple.Adds alphabet s x) ∧
    (∀ mapping, Passes.fold mapping alphabet (s.union t).ranges =
      Passes.normalize (Passes.fold mapping alphabet s.ranges ++
        Passes.fold mapping alphabet t.ranges)) ∧
    (s.union t).caseFold alphabet = (s.caseFold alphabet).union (t.caseFold alphabet) := by
  refine ⟨fun mapping => Passes.fold_covers words mapping alphabet, ?_, separated _, fun x => ?_,
    fun mapping => fold_union words words', ext fun x => ?_⟩
  · refine ((Passes.fold_covers words .simple alphabet).congr fun x => ?_).eq_ranges
    exact mem_caseFold_iff.symm
  · rw [contains_iff, contains_iff]
    exact mem_caseFold_iff
  · rw [mem_union, mem_caseFold_iff, mem_caseFold_iff, mem_caseFold_iff]
    exact folded_union

/-- A letter with a longer upper-case form, one with a form that is no byte, a letter that is no byte, and
surrogates with all that follows them. -/
def mixedLetters : SymbolSet :=
  .ofRanges [⟨0xDF, 0xE0, by decide⟩, ⟨0xFF, 0xFF, by decide⟩, ⟨0x17F, 0x17F, by decide⟩,
    ⟨0xD800, 0xFFFFFFFF, by decide⟩]

theorem mixedLetters_exact :
    WordRanges mixedLetters.ranges ∧ WordRanges (single 0x61).ranges ∧
    (Passes.fold .simple .byte mixedLetters.ranges).map (fun r => (r.low, r.high)) =
      [(0xC0, 0xC0), (0xDF, 0xE0), (0xFF, 0xFF), (0x17F, 0x17F), (0xD800, 0xFFFFFFFF)] ∧
    (mixedLetters.union (single 0x61)).caseFold .byte =
      (mixedLetters.caseFold .byte).union ((single 0x61).caseFold .byte) := by
  have words : WordRanges mixedLetters.ranges := by
    unfold WordRanges
    decide
  have words' : WordRanges (single 0x61).ranges := by
    unfold WordRanges
    decide
  obtain ⟨-, folded, -, -, -, union⟩ := caseFold_exact words words' .byte
  refine ⟨words, words', ?_, union⟩
  rw [folded]
  decide +kernel

end SymbolSet

end Scangen
