import Scangen.Proofs.Symbol.CaseRuns
import Scangen.Proofs.Symbol.Runs
import Scangen.Symbol.CaseChain

/-!
What a second folding adds. A form of a form is the letter itself or another form of it, but for the ends
of a few chains; so folding a set twice adds these ends, and folding it once more adds nothing.
-/

namespace Scangen

variable {c d e : Nat}

namespace CaseRun

variable {run r r' : CaseRun} {runs : List CaseRun}

/-- The form that a run has for a letter. -/
def form? (run : CaseRun) (c : Nat) : Option Nat :=
  bif Nat.ble run.first c && (Nat.ble c run.last && Nat.beq ((c - run.first) % run.step) 0) then
    some (run.image + (c - run.first))
  else none

theorem mem_pairs_iff (filled : 0 < run.count) : (c, d) ∈ run.pairs ↔ run.form? c = some d := by
  constructor
  · intro member
    obtain ⟨low, high, -, -, distance⟩ := bounds_of_mem_pairs member
    obtain ⟨i, -, same⟩ := List.mem_map.mp member
    have steps : c - run.first = i * run.step := by
      cases same
      exact Nat.add_sub_cancel_left _ _
    rw [form?, steps, Nat.mul_mod_left, Nat.ble_eq.mpr low, Nat.ble_eq.mpr high, ← steps]
    exact congrArg some (by omega)
  · intro found
    rw [form?, cond_eq_ite] at found
    split at found
    next inside =>
      simp only [Bool.and_eq_true, Nat.ble_eq, Nat.beq_eq] at inside
      obtain ⟨low, high, whole⟩ := inside
      have steps := Nat.div_mul_cancel (Nat.dvd_of_mod_eq_zero whole)
      have few : (c - run.first) / run.step ≤ run.count - 1 := by
        refine Nat.div_le_of_le_mul ?_
        rw [Nat.mul_comm]
        unfold last at high
        omega
      cases found
      refine List.mem_map.mpr ⟨(c - run.first) / run.step, List.mem_range.mpr (by omega), ?_⟩
      rw [steps, Nat.add_sub_cancel' low]
    next => cases found

/-- The form is in one of the runs. -/
def listsIn (runs : List CaseRun) (c d : Nat) : Bool := runs.any fun run => run.form? c == some d

/-- From each letter of the first run the second one leads back, to another form of the letter, or to the
end of a chain. -/
def eachLeadsBack (r r' : CaseRun) : Bool :=
  r.pairs.all fun (c, d) => (r'.form? d).all fun e =>
    e == c || decide (⟨c, d, e⟩ ∈ caseChains) || listsIn caseRuns c e

/-- The runs do not meet, the second one leads back by the same distance, or each letter is looked at. -/
def leadsBack (r r' : CaseRun) : Bool :=
  Nat.blt r.imageLast r'.first || (Nat.blt r'.last r.image ||
    (Nat.beq (r.image + r'.image) (r.first + r'.first) || eachLeadsBack r r'))

theorem of_leadsBack (filled : 0 < r'.count) (checked : leadsBack r r' = true)
    (pair : (c, d) ∈ r.pairs) (next : (d, e) ∈ r'.pairs) :
    e = c ∨ ⟨c, d, e⟩ ∈ caseChains ∨ listsIn caseRuns c e = true := by
  obtain ⟨-, -, image_low, image_high, distance⟩ := bounds_of_mem_pairs pair
  obtain ⟨low, high, -, -, distance'⟩ := bounds_of_mem_pairs next
  simp only [leadsBack, Bool.or_eq_true, Nat.blt_eq, Nat.beq_eq] at checked
  rcases checked with above | below | back | each
  · omega
  · omega
  · exact Or.inl (by omega)
  · have one := List.all_eq_true.mp each (c, d) pair
    dsimp only at one
    rw [(mem_pairs_iff filled).mp next] at one
    simpa [or_assoc] using one

/-- Each run of the first list is compared with each one of the second. -/
def pairwiseLeadBack (runs runs' : List CaseRun) : Bool := runs.all fun r => runs'.all (leadsBack r)

theorem leadsBack_of_pairwise {runs runs' : List CaseRun} (checked : pairwiseLeadBack runs runs' = true)
    (listed : r ∈ runs) (listed' : r' ∈ runs') : leadsBack r r' = true :=
  List.all_eq_true.mp (List.all_eq_true.mp checked r listed) r' listed'

/-- Runs are compared as far as they can meet: below the first cut, and from there on with the other
cuts. -/
def allLeadBack : List Nat → List CaseRun → List CaseRun → Bool
  | [], runs, runs' => pairwiseLeadBack runs runs'
  | cut :: cuts, runs, runs' =>
    pairwiseLeadBack (runs.filter fun r => Nat.blt r.image cut)
        (runs'.filter fun r' => Nat.blt r'.first cut) &&
      allLeadBack cuts (runs.filter fun r => Nat.ble cut r.imageLast)
        (runs'.filter fun r' => Nat.ble cut r'.last)

theorem leadsBack_of_all {runs runs' : List CaseRun} {cuts : List Nat}
    (checked : allLeadBack cuts runs runs' = true) (listed : r ∈ runs) (listed' : r' ∈ runs')
    (pair : (c, d) ∈ r.pairs) (next : (d, e) ∈ r'.pairs) : leadsBack r r' = true := by
  obtain ⟨-, -, image_low, image_high, -⟩ := bounds_of_mem_pairs pair
  obtain ⟨low, high, -⟩ := bounds_of_mem_pairs next
  induction cuts generalizing runs runs' with
  | nil => exact leadsBack_of_pairwise checked listed listed'
  | cons cut cuts ih =>
    rw [allLeadBack, Bool.and_eq_true] at checked
    by_cases below : d < cut
    · refine leadsBack_of_pairwise checked.1 (List.mem_filter.mpr ⟨listed, ?_⟩)
        (List.mem_filter.mpr ⟨listed', ?_⟩)
      · exact Nat.blt_eq.mpr (by omega)
      · exact Nat.blt_eq.mpr (by omega)
    · refine ih checked.2 (List.mem_filter.mpr ⟨listed, ?_⟩) (List.mem_filter.mpr ⟨listed', ?_⟩)
      · exact Nat.ble_eq.mpr (by omega)
      · exact Nat.ble_eq.mpr (by omega)

end CaseRun

/-- The cuts leave about as many runs in each area. -/
theorem caseRuns_lead_back : CaseRun.allLeadBack [0x189, 0x1AF, 0x1F3, 0x25B, 0x370, 0x3D9, 0x561,
    0x1F20, 0x1FE5, 0x2C6F, 0xA78B, 0xAB53] caseRuns caseRuns = true := by
  decide +kernel

theorem caseChains_listed : ∀ chain ∈ caseChains,
    CaseRun.listsIn caseRuns chain.letter chain.form = true ∧
      CaseRun.listsIn caseRuns chain.form chain.further = true := by
  decide +kernel

/-- A chain ends behind its further letter. -/
theorem form_ne_letter_of_chains : ∀ chain ∈ caseChains, ∀ chain' ∈ caseChains,
    chain.form ≠ chain'.letter := by
  decide +kernel

/-- Over bytes no chain is complete. -/
theorem not_within_byte : ∀ chain ∈ caseChains, ¬chain.Within .byte := by
  unfold CaseChain.Within
  decide +kernel

/-- Both steps of a chain are in the tables. -/
structure CaseChain.Linked (chain : CaseChain) : Prop where
  first : (chain.letter, chain.form) ∈ casePairs
  second : (chain.form, chain.further) ∈ casePairs

theorem listsIn_caseRuns_iff : CaseRun.listsIn caseRuns c d = true ↔ (c, d) ∈ casePairs := by
  rw [CaseRun.listsIn, List.any_eq_true, mem_casePairs_iff]
  refine exists_congr fun run => and_congr_right fun member => ?_
  rw [beq_iff_eq, CaseRun.mem_pairs_iff (caseRuns_filled run member).2]

/-- The next form of a form is nothing new, unless a chain ends there. -/
theorem back_or_chain (pair : (c, d) ∈ casePairs) (next : (d, e) ∈ casePairs) :
    e = c ∨ (c, e) ∈ casePairs ∨ ⟨c, d, e⟩ ∈ caseChains := by
  obtain ⟨r, listed, member⟩ := mem_casePairs_iff.mp pair
  obtain ⟨r', listed', member'⟩ := mem_casePairs_iff.mp next
  have checked := CaseRun.leadsBack_of_all caseRuns_lead_back listed listed' member member'
  exact (CaseRun.of_leadsBack (caseRuns_filled r' listed').2 checked member member').imp_right
    fun found => found.symm.imp_left listsIn_caseRuns_iff.mp

theorem linked_of_mem {chain : CaseChain} (listed : chain ∈ caseChains) : chain.Linked :=
  ⟨listsIn_caseRuns_iff.mp (caseChains_listed chain listed).1,
    listsIn_caseRuns_iff.mp (caseChains_listed chain listed).2⟩

theorem caseForm_iff {alphabet : Alphabet} : CaseForm alphabet c d ↔
    (c, d) ∈ casePairs ∧ c ≤ alphabet.maxSymbol ∧ d ≤ alphabet.maxSymbol := by
  constructor
  · rintro ⟨different, letter, small, small', form⟩
    exact ⟨(CaseMapping.simple_iff letter different).mp form, small, small'⟩
  · rintro ⟨pair, small, small'⟩
    have letters := casedLetters_of_mem pair
    exact ⟨letters.different, letters.letter, small, small',
      (CaseMapping.simple_iff letters.letter letters.different).mpr pair⟩

namespace SymbolSet

variable {s : SymbolSet} {alphabet : Alphabet} {x : Nat}

theorem mem_caseFold_iff_form :
    x ∈ s.caseFold alphabet ↔ x ∈ s ∨ ∃ c ∈ s, CaseForm alphabet c x := by
  rw [mem_caseFold, mem_counterparts, or_comm]
  simp only [caseForm_iff]
  refine or_congr_right (exists_congr fun c => ?_)
  tauto

theorem folded_iff : s.Folded alphabet ↔ s.caseFold alphabet = s := by
  constructor
  · intro folded
    refine ext fun x => mem_caseFold_iff_form.trans (or_iff_left_of_imp ?_)
    rintro ⟨c, member, form⟩
    exact folded c member x form
  · intro same c member d form
    rw [← same]
    exact mem_caseFold_iff_form.mpr (Or.inr ⟨c, member, form⟩)

/-- A second folding adds the ends of the chains that start in the set. -/
theorem mem_caseFold_caseFold : x ∈ (s.caseFold alphabet).caseFold alphabet ↔
    x ∈ s.caseFold alphabet ∨ ∃ chain ∈ caseChains, chain.Within alphabet ∧ chain.letter ∈ s ∧
      chain.further = x := by
  rw [mem_caseFold_iff_form (s := s.caseFold alphabet)]
  constructor
  · rintro (known | ⟨d, member, form⟩)
    · exact Or.inl known
    · rcases mem_caseFold_iff_form.mp member with own | ⟨c, own, first⟩
      · exact Or.inl (mem_caseFold_iff_form.mpr (Or.inr ⟨d, own, form⟩))
      · obtain ⟨next, d_small, small⟩ := caseForm_iff.mp form
        obtain ⟨pair, c_small, -⟩ := caseForm_iff.mp first
        rcases back_or_chain pair next with rfl | direct | chain
        · exact Or.inl (mem_caseFold_iff_form.mpr (Or.inl own))
        · have direct_form := caseForm_iff.mpr ⟨direct, c_small, small⟩
          exact Or.inl (mem_caseFold_iff_form.mpr (Or.inr ⟨c, own, direct_form⟩))
        · exact Or.inr ⟨_, chain, ⟨c_small, d_small, small⟩, own, rfl⟩
  · rintro (known | ⟨chain, listed, ⟨small, form_small, further_small⟩, own, rfl⟩)
    · exact Or.inl known
    · obtain ⟨pair, next⟩ := linked_of_mem listed
      refine Or.inr ⟨chain.form, mem_caseFold_iff_form.mpr (Or.inr ⟨chain.letter, own, ?_⟩), ?_⟩
      · exact caseForm_iff.mpr ⟨pair, small, form_small⟩
      · exact caseForm_iff.mpr ⟨next, form_small, further_small⟩

theorem caseFold_caseFold_eq_iff :
    (s.caseFold alphabet).caseFold alphabet = s.caseFold alphabet ↔ s.Settled alphabet := by
  constructor
  · intro same chain listed within own
    rw [← same]
    exact mem_caseFold_caseFold.mpr (Or.inr ⟨chain, listed, within, own, rfl⟩)
  · intro settled
    refine ext fun x => mem_caseFold_caseFold.trans (or_iff_left_of_imp ?_)
    rintro ⟨chain, listed, within, own, rfl⟩
    exact settled chain listed within own

/-- The ends of the chains have no forms that are new. -/
theorem folded_caseFold_caseFold : ((s.caseFold alphabet).caseFold alphabet).Folded alphabet := by
  intro c member x form
  rcases mem_caseFold_caseFold.mp member with once | ⟨chain, listed, within, own, rfl⟩
  · exact mem_caseFold_iff_form.mpr (Or.inr ⟨c, once, form⟩)
  · obtain ⟨pair, next⟩ := linked_of_mem listed
    have middle : chain.form ∈ s.caseFold alphabet := mem_caseFold_iff_form.mpr
      (Or.inr ⟨chain.letter, own, caseForm_iff.mpr ⟨pair, within.1, within.2.1⟩⟩)
    obtain ⟨last, -, small⟩ := caseForm_iff.mp form
    rcases back_or_chain next last with rfl | direct | further
    · exact mem_caseFold_iff_form.mpr (Or.inl middle)
    · exact mem_caseFold_iff_form.mpr
        (Or.inr ⟨chain.form, middle, caseForm_iff.mpr ⟨direct, within.2.1, small⟩⟩)
    · exact absurd rfl (form_ne_letter_of_chains chain listed _ further)

theorem settled_byte (s : SymbolSet) : s.Settled .byte :=
  fun chain listed within => absurd within (not_within_byte chain listed)

end SymbolSet

namespace SymbolClass

variable {alphabet : Alphabet}

/-- A class that is not negated holds all forms of its letters if one folding is enough for its ranges. A
negated class does if its folded ranges hold every letter that has a form among them. -/
theorem folded_resolve_iff (k : SymbolClass) (alphabet : Alphabet) :
    (k.resolve ⟨alphabet, true⟩).Folded alphabet ↔
      if k.negated then ∀ c d, CaseForm alphabet c d →
        d ∈ (k.ranges.restrict alphabet).caseFold alphabet →
          c ∈ (k.ranges.restrict alphabet).caseFold alphabet
      else (k.ranges.restrict alphabet).Settled alphabet := by
  have resolved : k.resolve ⟨alphabet, true⟩ =
    if k.negated then ((k.ranges.restrict alphabet).caseFold alphabet).complement alphabet
    else (k.ranges.restrict alphabet).caseFold alphabet := rfl
  rw [resolved]
  cases k.negated with
  | false => exact SymbolSet.folded_iff.trans SymbolSet.caseFold_caseFold_eq_iff
  | true =>
    simp only [if_true]
    generalize (k.ranges.restrict alphabet).caseFold alphabet = folded
    constructor
    · intro closed c d form d_inside
      by_contra outside
      have held := SymbolSet.mem_complement.mpr ⟨(caseForm_iff.mp form).2.1, outside⟩
      exact (SymbolSet.mem_complement.mp (closed c held d form)).2 d_inside
    · intro backward c held d form
      refine SymbolSet.mem_complement.mpr ⟨(caseForm_iff.mp form).2.2, fun inside => ?_⟩
      exact (SymbolSet.mem_complement.mp held).2 (backward c d form inside)

/-- A literal stands for its symbol and the forms of it. -/
theorem mem_resolve_single {x : Nat} : x ∈ (⟨.single c, false⟩ : SymbolClass).resolve ⟨alphabet, true⟩ ↔
    c ≤ alphabet.maxSymbol ∧ (x = c ∨ CaseForm alphabet c x) := by
  have resolved : (⟨.single c, false⟩ : SymbolClass).resolve ⟨alphabet, true⟩ =
    ((SymbolSet.single c).restrict alphabet).caseFold alphabet := rfl
  have own : ∀ y, y ∈ (SymbolSet.single c).restrict alphabet ↔ y = c ∧ c ≤ alphabet.maxSymbol := by
    intro y
    rw [SymbolSet.mem_restrict, SymbolSet.single, SymbolSet.mem_ofRange, SymbolRange.mem_single]
    exact and_congr_right fun same => by rw [same]
  rw [resolved, SymbolSet.mem_caseFold_iff_form]
  simp only [own, and_assoc, exists_eq_left]
  tauto

theorem folded_resolve_byte (k : SymbolClass) : (k.resolve ⟨.byte, true⟩).Folded .byte := by
  intro c member d form
  obtain ⟨pair, c_byte, d_byte⟩ := caseForm_iff.mp form
  have different := (casedLetters_of_mem pair).different
  have same : SameLetter c d := by
    rcases List.mem_append.mp pair with lower | upper
    · exact Or.inr (Or.inl ((lowerCase_eq_iff different).mpr lower))
    · exact Or.inr (Or.inr (Or.inl ((upperCase_eq_iff different).mpr upper)))
  exact (SameByteLetter.mem_resolve_iff ⟨same, c_byte, d_byte⟩ k).mp member

end SymbolClass

end Scangen
