import Scangen.Finite.IndexSet
import Scangen.Proofs.Symbol.Letters
import Scangen.Symbol.Forms

/-!
What the tables of letters say about the forms of a letter. Both tables list a letter once, none of the
letters in the second one has an upper-case form of several characters, and all of them are characters up
to the last cased one.
-/

namespace Scangen

namespace IndexSet

variable {l : List Nat}

/-- Each of the numbers is new when its turn comes. -/
def takesAll (seen : IndexSet) : List Nat → Bool
  | [] => true
  | i :: rest => !seen.contains i && takesAll (seen.insert i) rest

theorem nodup_of_takesAll {seen : IndexSet} (taken : takesAll seen l = true) :
    l.Nodup ∧ ∀ i ∈ l, i ∉ seen := by
  induction l generalizing seen with
  | nil => simp
  | cons first rest ih =>
    simp only [takesAll, Bool.and_eq_true, Bool.not_eq_true'] at taken
    obtain ⟨first_new, rest_taken⟩ := taken
    obtain ⟨rest_nodup, rest_new⟩ := ih rest_taken
    refine ⟨List.nodup_cons.mpr ⟨fun again => ?_, rest_nodup⟩, List.forall_mem_cons.mpr ⟨?_, ?_⟩⟩
    · exact rest_new first again (mem_insert.mpr (Or.inl rfl))
    · simp [mem_def, first_new]
    · exact fun i later old => rest_new i later (mem_insert.mpr (Or.inr old))

end IndexSet

namespace CaseRun

def last (run : CaseRun) : Nat := run.first + (run.count - 1) * run.step

def imageLast (run : CaseRun) : Nat := run.image + (run.count - 1) * run.step

/-- All letters of a run are at the same distance from their forms. -/
theorem bounds_of_mem_pairs {run : CaseRun} {c d : Nat} (member : (c, d) ∈ run.pairs) :
    run.first ≤ c ∧ c ≤ run.last ∧ run.image ≤ d ∧ d ≤ run.imageLast ∧
      d + run.first = c + run.image := by
  obtain ⟨i, inside, same⟩ := List.mem_map.mp member
  cases same
  have few : i ≤ run.count - 1 := Nat.le_pred_of_lt (List.mem_range.mp inside)
  have steps : i * run.step ≤ (run.count - 1) * run.step := Nat.mul_le_mul_right _ few
  simp only [last, imageLast]
  omega

end CaseRun

/-- Characters up to the last cased one. -/
def CasedSpan (first last : Nat) : Prop := last ≤ maxCased ∧ (last < 0xD800 ∨ 0xDFFF < first)

instance (first last : Nat) : Decidable (CasedSpan first last) := by
  unfold CasedSpan
  infer_instance

theorem CasedSpan.letter {first last c : Nat} (span : CasedSpan first last) (low : first ≤ c)
    (high : c ≤ last) : c.isValidChar ∧ c ≤ maxCased := by
  unfold CasedSpan maxCased at span
  unfold Nat.isValidChar maxCased
  omega

variable {c d : Nat}

/-- The runs of both tables. -/
def caseRuns : List CaseRun := lowerRuns ++ upperRuns

theorem casedSpans : ∀ run ∈ caseRuns, CasedSpan run.first run.last ∧
    CasedSpan run.image run.imageLast ∧ run.first ≠ run.image := by
  decide +kernel

theorem caseRuns_filled : ∀ run ∈ caseRuns, lineFeed < run.first ∧ 0 < run.count := by
  decide +kernel

theorem mem_casePairs_iff : (c, d) ∈ casePairs ↔ ∃ run ∈ caseRuns, (c, d) ∈ run.pairs := by
  rw [casePairs, lowerPairs, upperPairs, ← List.flatMap_append, List.mem_flatMap, caseRuns]

theorem lowerPairs_nodup : (lowerPairs.map Prod.fst).Nodup := by
  have taken : IndexSet.takesAll ∅ (lowerPairs.map Prod.fst) = true := by decide +kernel
  exact (IndexSet.nodup_of_takesAll taken).1

/-- No letter with an upper-case form of several characters is in the table of the others. -/
theorem upperKeys_nodup : (Text.expandedUpper.map Prod.fst ++ upperPairs.map Prod.fst).Nodup := by
  have taken : IndexSet.takesAll ∅ (Text.expandedUpper.map Prod.fst ++ upperPairs.map Prod.fst) = true := by
    decide +kernel
  exact (IndexSet.nodup_of_takesAll taken).1

/-- The dotted capital I is not in the table, since its lower-case form has two characters. -/
theorem lowerCase_dotted : lowerCase 0x130 = 0x130 := by
  decide +kernel

theorem onlyCharacter_expanded :
    ∀ entry ∈ Text.expandedUpper, CaseMapping.onlyCharacter (entry.2.map Char.ofNat) = none := by
  decide +kernel

/-- Two different characters, neither of them behind the last cased one. -/
structure CasedLetters (c d : Nat) : Prop where
  letter : c.isValidChar
  form : d.isValidChar
  letter_le : c ≤ maxCased
  form_le : d ≤ maxCased
  different : c ≠ d

theorem casedLetters_of_mem (pair : (c, d) ∈ casePairs) : CasedLetters c d := by
  obtain ⟨run, listed, member⟩ := mem_casePairs_iff.mp pair
  obtain ⟨letters, images, different⟩ := casedSpans run listed
  obtain ⟨low, high, image_low, image_high, distance⟩ := CaseRun.bounds_of_mem_pairs member
  obtain ⟨letter, letter_le⟩ := letters.letter low high
  obtain ⟨form, form_le⟩ := images.letter image_low image_high
  exact ⟨letter, form, letter_le, form_le, by omega⟩

theorem lookup_of_mem {pairs : List (Nat × Nat)} (unique : (pairs.map Prod.fst).Nodup)
    (member : (c, d) ∈ pairs) : pairs.lookup c = some d := by
  obtain ⟨before, after, rfl⟩ := List.append_of_mem member
  refine List.lookup_eq_some_iff.mpr ⟨before, after, rfl, fun pair earlier => ?_⟩
  rw [List.map_append, List.nodup_append] at unique
  exact bne_iff_ne.mpr (unique.2.2 _ (List.mem_map_of_mem earlier) c List.mem_cons_self).symm

theorem lookup_getD_iff {pairs : List (Nat × Nat)} (unique : (pairs.map Prod.fst).Nodup)
    (different : c ≠ d) : (pairs.lookup c).getD c = d ↔ (c, d) ∈ pairs := by
  constructor
  · exact fun form => (eq_or_mem_of_lookup form).resolve_left different
  · intro member
    rw [lookup_of_mem unique member]
    rfl

theorem lowerCase_eq_iff (different : c ≠ d) : lowerCase c = d ↔ (c, d) ∈ lowerPairs :=
  lookup_getD_iff lowerPairs_nodup different

theorem upperCase_eq_iff (different : c ≠ d) : upperCase c = d ↔ (c, d) ∈ upperPairs :=
  lookup_getD_iff (List.nodup_append.mp upperKeys_nodup).2.1 different

theorem not_expanded_of_mem (pair : (c, d) ∈ upperPairs) : Text.expandedUpper.lookup c = none := by
  rw [List.lookup_eq_none_iff]
  intro entry member
  refine bne_iff_ne.mpr fun same => ?_
  exact (List.nodup_append.mp upperKeys_nodup).2.2 entry.1 (List.mem_map_of_mem member) c
    (List.mem_map_of_mem pair) same.symm

theorem isValidChar_lowerCase (letter : c.isValidChar) : (lowerCase c).isValidChar := by
  by_cases same : c = lowerCase c
  · exact same ▸ letter
  · have pair := (lowerCase_eq_iff same).mp rfl
    exact (casedLetters_of_mem (List.mem_append_left _ pair)).form

theorem isValidChar_upperCase (letter : c.isValidChar) : (upperCase c).isValidChar := by
  by_cases same : c = upperCase c
  · exact same ▸ letter
  · have pair := (upperCase_eq_iff same).mp rfl
    exact (casedLetters_of_mem (List.mem_append_right _ pair)).form

namespace CaseMapping

theorem toNat_ofNat (letter : c.isValidChar) : (Char.ofNat c).toNat = c := by
  rw [Char.ofNat, dif_pos letter]
  rfl

theorem onlyCharacter_ofNat (letter : c.isValidChar) : onlyCharacter [Char.ofNat c] = some c :=
  congrArg some (toNat_ofNat letter)

theorem simple_lower_iff (letter : c.isValidChar) (different : c ≠ d) :
    simple.lower c = some d ↔ (c, d) ∈ lowerPairs := by
  rw [← lowerCase_eq_iff different]
  unfold simple Text.lower
  dsimp only
  split
  next dotted =>
    have code : c = 0x130 := by
      rw [← toNat_ofNat letter, dotted]
      rfl
    rw [code] at different ⊢
    rw [lowerCase_dotted]
    exact iff_of_false nofun different
  next =>
    rw [toNat_ofNat letter, onlyCharacter_ofNat (isValidChar_lowerCase letter), Option.some.injEq]

theorem simple_upper_iff (letter : c.isValidChar) (different : c ≠ d) :
    simple.upper c = some d ↔ (c, d) ∈ upperPairs := by
  unfold simple Text.upper
  dsimp only
  rw [toNat_ofNat letter]
  split
  next form expanded =>
    obtain ⟨before, after, split, -⟩ := List.lookup_eq_some_iff.mp expanded
    rw [onlyCharacter_expanded (c, form) (by simp [split])]
    refine iff_of_false nofun fun pair => ?_
    rw [not_expanded_of_mem pair] at expanded
    cases expanded
  next =>
    rw [onlyCharacter_ofNat (isValidChar_upperCase letter), Option.some.injEq,
      upperCase_eq_iff different]

/-- The forms of a letter are those in the tables. -/
theorem simple_iff (letter : c.isValidChar) (different : c ≠ d) :
    simple.lower c = some d ∨ simple.upper c = some d ↔ (c, d) ∈ casePairs := by
  rw [casePairs, List.mem_append, simple_lower_iff letter different,
    simple_upper_iff letter different]

end CaseMapping

end Scangen
