import Scangen.Symbol.Charset

/-!
What a class stands for. It holds symbols of the alphabet only: those that are listed, in the other
case as well where the case of letters does not count, or all that are not listed if it is negated.
-/

namespace Scangen

namespace SymbolSet

variable {s : SymbolSet} {alphabet : Alphabet} {x : Nat}

theorem mem_cut_iff {max : Nat} {l : List SymbolRange} :
    (∃ r ∈ cut max l, x ∈ r) ↔ (∃ r ∈ l, x ∈ r) ∧ x ≤ max := by
  induction l with
  | nil => simp [cut]
  | cons head rest ih =>
    rw [cut]
    split
    all_goals
      simp only [List.mem_cons, exists_eq_or_imp, ih]
      generalize (∃ r ∈ rest, x ∈ r) = later
      simp only [SymbolRange.mem_def]
      grind

theorem mem_restrict : x ∈ s.restrict alphabet ↔ x ∈ s ∧ x ≤ alphabet.maxSymbol := mem_cut_iff

/-- The gaps hold what the ranges leave out. -/
theorem mem_gaps_iff {max next : Nat} {l : List SymbolRange} (above : ∀ r ∈ l, next ≤ r.low)
    (inside : ∀ r ∈ l, r.low ≤ max) (separated : l.Pairwise SymbolRange.Before) :
    (∃ r ∈ gaps max next l, x ∈ r) ↔ next ≤ x ∧ x ≤ max ∧ ¬∃ r ∈ l, x ∈ r := by
  induction l generalizing next with
  | nil =>
    rw [gaps]
    split
    next => simp [SymbolRange.mem_def]
    next =>
      simp only [List.not_mem_nil, false_and, exists_false, not_false_eq_true, and_true, false_iff]
      omega
  | cons head rest ih =>
    obtain ⟨head_before, rest_separated⟩ := List.pairwise_cons.mp separated
    have head_low := above head List.mem_cons_self
    have head_inside := inside head List.mem_cons_self
    have ends := head.low_le_high
    have behind := ih (fun r old => Nat.le_of_lt (head_before r old))
      (fun r old => inside r (List.mem_cons_of_mem _ old)) rest_separated
    -- the other ranges start behind the first one
    have early : x ≤ head.high → ¬∃ r ∈ rest, x ∈ r := by
      rintro before ⟨r, old, low, _⟩
      have gap : head.high + 1 < r.low := head_before r old
      omega
    rw [gaps]
    split
    all_goals
      simp only [List.mem_cons, exists_eq_or_imp, behind]
      generalize (∃ r ∈ rest, x ∈ r) = later at early ⊢
      simp only [SymbolRange.mem_def]
      grind

theorem mem_complement : x ∈ s.complement alphabet ↔ x ≤ alphabet.maxSymbol ∧ x ∉ s := by
  have inside : ∀ r ∈ (s.restrict alphabet).ranges, r.low ≤ alphabet.maxSymbol := by
    intro r cut
    obtain ⟨_, _, below, same, _⟩ := mem_cut cut
    omega
  have left_out : x ∈ s.complement alphabet ↔
      0 ≤ x ∧ x ≤ alphabet.maxSymbol ∧ x ∉ s.restrict alphabet :=
    mem_gaps_iff (fun r _ => Nat.zero_le r.low) inside (s.restrict alphabet).separated
  rw [left_out, mem_restrict]
  grind

theorem mem_union {t : SymbolSet} : x ∈ s.union t ↔ x ∈ s ∨ x ∈ t := by
  have added : ∀ l : List SymbolRange,
      x ∈ l.foldr (fun r u => u.insert r) s ↔ x ∈ s ∨ ∃ r ∈ l, x ∈ r := by
    intro l
    induction l with
    | nil => simp
    | cons r rest ih =>
      simp only [List.foldr_cons, mem_insert, ih, List.mem_cons, exists_eq_or_imp]
      exact or_left_comm
  exact added t.ranges

theorem mem_caseFold : x ∈ s.caseFold alphabet ↔ x ∈ s.counterparts alphabet ∨ x ∈ s := by
  unfold caseFold
  induction s.counterparts alphabet with
  | nil => simp
  | cons first rest ih => simp [ih, or_assoc]

theorem mem_counterparts : x ∈ s.counterparts alphabet ↔
    ∃ c, (c, x) ∈ casePairs ∧ c ≤ alphabet.maxSymbol ∧ x ≤ alphabet.maxSymbol ∧ c ∈ s := by
  simp only [counterparts, List.mem_map, List.mem_filter, Prod.exists, Bool.and_eq_true,
    decide_eq_true_eq, contains_iff, and_assoc]
  grind

end SymbolSet

namespace SymbolClass

variable {k : SymbolClass} {charset : Charset} {x : Nat}

/-- The symbols that are listed, in both cases of letters if case does not count. -/
def listed (k : SymbolClass) (charset : Charset) : SymbolSet :=
  let inside := k.ranges.restrict charset.alphabet
  if charset.caseAgnostic then inside.caseFold charset.alphabet else inside

theorem le_of_mem_listed (member : x ∈ k.listed charset) : x ≤ charset.alphabet.maxSymbol := by
  unfold listed at member
  dsimp only at member
  split at member
  next =>
    rcases SymbolSet.mem_caseFold.mp member with other | own
    · obtain ⟨c, _, _, small, _⟩ := SymbolSet.mem_counterparts.mp other
      exact small
    · exact (SymbolSet.mem_restrict.mp own).2
  next => exact (SymbolSet.mem_restrict.mp member).2

theorem mem_resolve : x ∈ k.resolve charset ↔
    x ≤ charset.alphabet.maxSymbol ∧ (x ∈ k.listed charset ↔ k.negated = false) := by
  have resolved : k.resolve charset =
    if k.negated then (k.listed charset).complement charset.alphabet else k.listed charset := rfl
  rw [resolved]
  cases k.negated with
  | true => simp [SymbolSet.mem_complement]
  | false => simpa using le_of_mem_listed

theorem le_of_mem_resolve (member : x ∈ k.resolve charset) : x ≤ charset.alphabet.maxSymbol :=
  (mem_resolve.mp member).1

end SymbolClass

end Scangen
