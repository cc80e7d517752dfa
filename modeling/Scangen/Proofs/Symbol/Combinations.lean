import Scangen.Proofs.Symbol.Passes

/-!
Sets that are put together by joining, negating and cutting off. However that is done, the ranges are in
their one normal form and the set holds just the symbols that it should.
-/

namespace Scangen

theorem SymbolSet.wordRanges_iff {s : SymbolSet} : WordRanges s.ranges ↔ ∀ c ∈ s, c ≤ maxWord := by
  constructor
  · rintro words c ⟨r, member, -, high⟩
    exact Nat.le_trans high (words r member)
  · exact fun small r member => small r.high ⟨r, member, r.high_mem⟩

theorem SymbolSet.ranges_inj {s t : SymbolSet} : s.ranges = t.ranges ↔ s = t := by
  constructor
  · intro same
    cases s
    cases t
    cases same
    rfl
  · exact congrArg ranges

namespace Combination

variable {e f : Combination} {alphabet : Alphabet} {c : Nat}

theorem mem_value : ∀ {e : Combination}, c ∈ e.value ↔ e.Holds c
  | ofRanges _ => SymbolSet.mem_ofRanges
  | single _ => SymbolSet.mem_ofRange.trans SymbolRange.mem_single
  | full _ => SymbolSet.mem_ofRange.trans (and_iff_right (Nat.zero_le c))
  | union _ _ => SymbolSet.mem_union.trans (or_congr mem_value mem_value)
  | negate _ _ => SymbolSet.mem_complement.trans (and_congr_right fun _ => not_congr mem_value)
  | clamp _ _ => SymbolSet.mem_restrict.trans (and_congr_left fun _ => mem_value)

/-- No operation leads out of the 32-bit numbers. -/
theorem le_of_holds (words : e.InWords) (holds : e.Holds c) : c ≤ maxWord := by
  induction e with
  | ofRanges ranges =>
    obtain ⟨r, member, -, high⟩ := holds
    exact Nat.le_trans high (words r member)
  | single a => exact holds ▸ words
  | full alphabet => exact Nat.le_trans holds (maxSymbol_lt_maxWord alphabet).le
  | union first second ih ih' => exact holds.elim (ih words.1) (ih' words.2)
  | negate inner alphabet _ => exact Nat.le_trans holds.1 (maxSymbol_lt_maxWord alphabet).le
  | clamp inner alphabet ih => exact ih words holds.1

theorem wordRanges_value (words : e.InWords) : WordRanges e.value.ranges :=
  SymbolSet.wordRanges_iff.mpr fun _ member => le_of_holds words (mem_value.mp member)

/-- The passes go through without an inverted range and end with the ranges of the set. -/
theorem passes_eq (words : e.InWords) : e.passes = .ok e.value.ranges := by
  induction e with
  | ofRanges ranges => exact congrArg _ (Passes.normalize_eq_ofRanges words)
  | single c => rfl
  | full alphabet => rfl
  | union first second ih ih' =>
    have both : WordRanges (first.value.ranges ++ second.value.ranges) :=
      List.forall_mem_append.mpr ⟨wordRanges_value words.1, wordRanges_value words.2⟩
    have joined : Passes.normalize (first.value.ranges ++ second.value.ranges) =
        (first.value.union second.value).ranges := by
      refine ((Passes.normalize_covers both).congr fun c => ?_).eq_ranges
      rw [SymbolSet.mem_union]
      simp only [List.mem_append, or_and_right, exists_or]
      rfl
    rw [passes, ih words.1, ih' words.2]
    exact congrArg _ joined
  | negate inner alphabet ih =>
    rw [passes, ih words]
    exact Passes.negate_eq alphabet inner.value
  | clamp inner alphabet ih =>
    rw [passes, ih words]
    exact Passes.clamp_eq alphabet inner.value

theorem value_eq_iff : e.value = f.value ↔ ∀ c, e.Holds c ↔ f.Holds c := by
  constructor
  · intro same c
    rw [← mem_value, ← mem_value, same]
  · intro same
    refine SymbolSet.ext fun c => ?_
    rw [mem_value, mem_value, same]

/-- Sets over the 32-bit numbers have one form. However they are put together, the passes end with sorted
ranges that neither overlap nor touch; the search finds just the symbols that should be there; and
sets are equal exactly if they hold the same symbols, so negating twice only cuts off what lies above
the alphabet. -/
theorem passes_canonical (words : e.InWords) :
    e.passes = .ok e.value.ranges ∧ e.value.ranges.Pairwise SymbolRange.Before ∧
    WordRanges e.value.ranges ∧
    (∀ c, (e.value.contains c = true ↔ e.Holds c) ∧
      (Passes.search e.value.ranges c = true ↔ e.Holds c)) ∧
    (∀ f : Combination, f.InWords → ((e.passes = f.passes ↔ e.value = f.value) ∧
      (e.value = f.value ↔ ∀ c ≤ maxWord, e.Holds c ↔ f.Holds c))) ∧
    ∀ alphabet, ((e.negate alphabet).negate alphabet).value = (e.clamp alphabet).value ∧
      ((e.negate alphabet).negate alphabet).passes = (e.clamp alphabet).passes := by
  have found : ∀ c, e.value.contains c = true ↔ e.Holds c :=
    fun c => SymbolSet.contains_iff.trans mem_value
  have twice : ∀ alphabet,
      ((e.negate alphabet).negate alphabet).value = (e.clamp alphabet).value := by
    refine fun alphabet => value_eq_iff.mpr fun c => ?_
    simp only [Holds]
    tauto
  refine ⟨passes_eq words, e.value.separated, wordRanges_value words, fun c => ⟨found c, ?_⟩, ?_, ?_⟩
  · rw [Passes.search_eq]
    exact found c
  · intro f words'
    refine ⟨?_, value_eq_iff.trans ⟨fun same c _ => same c, fun same c => ?_⟩⟩
    · rw [passes_eq words, passes_eq words', Except.ok.injEq, SymbolSet.ranges_inj]
    · by_cases small : c ≤ maxWord
      · exact same c small
      · exact iff_of_false (fun holds => small (le_of_holds words holds))
          fun holds => small (le_of_holds words' holds)
  · refine fun alphabet => ⟨twice alphabet, ?_⟩
    have words' : ((e.negate alphabet).negate alphabet).InWords := words
    rw [passes_eq words', twice, passes_eq (e := e.clamp alphabet) words]

/-- Ranges that touch, out of order, and some up to the greatest number. -/
def upToGreatest : Combination :=
  .union (.ofRanges [⟨58, 64, by decide⟩, ⟨0xFFFFFFF0, 0xFFFFFFFF, by decide⟩, ⟨50, 57, by decide⟩,
    ⟨0xFFFFFFFF, 0xFFFFFFFF, by decide⟩]) (.single 65)

theorem upToGreatest_canonical : upToGreatest.InWords ∧
    upToGreatest.passes = .ok [⟨50, 65, by decide⟩, ⟨0xFFFFFFF0, 0xFFFFFFFF, by decide⟩] ∧
    Passes.search upToGreatest.value.ranges 0xFFFFFFFF = true ∧
    ((upToGreatest.negate .byte).negate .byte).passes = .ok [⟨50, 65, by decide⟩] := by
  have words : upToGreatest.InWords := by
    refine ⟨fun r member => ?_, (by decide : 65 ≤ maxWord)⟩
    revert r
    decide
  obtain ⟨made, -, -, found, -, twice⟩ := passes_canonical words
  have ranges : upToGreatest.value.ranges =
      [⟨50, 65, by decide⟩, ⟨0xFFFFFFF0, 0xFFFFFFFF, by decide⟩] := by
    decide
  refine ⟨words, ranges ▸ made, (found 0xFFFFFFFF).2.mpr (Or.inl ?_), ?_⟩
  · exact ⟨_, List.mem_cons_of_mem _ List.mem_cons_self, by decide⟩
  · rw [(twice .byte).2, passes, made, ranges]
    rfl

end Combination

end Scangen
