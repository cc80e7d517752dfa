import Scangen.Proofs.Partition.Classes

/-!
The partition for some sets is the coarsest one in which they are made of whole classes, and the only
one with its classes numbered in order. It depends on the sets, not on the list that they stand in.
-/

namespace Scangen

namespace Partition

variable {r : SymbolRange} {s : SymbolSet} {a b : Nat}

/-- The partition sorts symbols by the sets that they belong to, with as few intervals and classes as
that takes. -/
structure Canonical (p : Partition) (sets : List SymbolSet) : Prop where
  /-- The intervals follow each other from the first symbol of the alphabet to the last. -/
  tiles : Tiles p.alphabet.cardinality 0 (p.intervals.map Prod.fst)
  neighbours : ∀ left ∈ p.intervals, ∀ right ∈ p.intervals,
    right.1.low = left.1.high + 1 → left.2 ≠ right.2
  outside : ∀ c, p.classOf c = none ↔ p.alphabet.maxSymbol < c
  alike : ∀ a ≤ p.alphabet.maxSymbol, ∀ b ≤ p.alphabet.maxSymbol,
    p.classOf a = p.classOf b ↔ ∀ s ∈ sets, (a ∈ s ↔ b ∈ s)
  inOrder : InOrder p.classOf
  members : ∀ c k, p.classOf c = some k ↔ ∃ s, p.classSets[k]? = some s ∧ c ∈ s
  inhabited : ∀ s ∈ p.classSets, ∃ c, c ∈ s

section

variable {alphabet : Alphabet} {sets : List SymbolSet} {usesLineStart usesLineEnd : Bool}
    {r' : SymbolRange} {c k : Nat}

/-- A set that the partition was made for holds all of an interval or nothing of it. -/
theorem mem_iff_of_mem_interval (listed : s ∈ sets)
    (known : r ∈ rangesBetween alphabet.maxSymbol (cuts alphabet sets)) (first : a ∈ r)
    (second : b ∈ r) : a ∈ s ↔ b ∈ s := by
  constructor
  · intro ⟨range, part, inside⟩
    exact ⟨range, part, ((spares_of_mem listed part known).mem_iff first second).mp inside⟩
  · intro ⟨range, part, inside⟩
    exact ⟨range, part, ((spares_of_mem listed part known).mem_iff first second).mpr inside⟩

theorem signature_eq_iff (known : r ∈ rangesBetween alphabet.maxSymbol (cuts alphabet sets))
    (known' : r' ∈ rangesBetween alphabet.maxSymbol (cuts alphabet sets)) (first : a ∈ r)
    (second : b ∈ r') :
    signature sets r = signature sets r' ↔ ∀ s ∈ sets, (a ∈ s ↔ b ∈ s) := by
  rw [signature, signature, List.map_inj_left]
  apply forall₂_congr
  intro s listed
  rw [Bool.eq_iff_iff, SymbolSet.contains_iff, SymbolSet.contains_iff,
    mem_iff_of_mem_interval listed known first r.low_mem,
    mem_iff_of_mem_interval listed known' second r'.low_mem]

/-- At every cut a run of members of some set starts or stops. -/
theorem signature_ne (known : r ∈ rangesBetween alphabet.maxSymbol (cuts alphabet sets))
    (known' : r' ∈ rangesBetween alphabet.maxSymbol (cuts alphabet sets))
    (next : r'.low = r.high + 1) : signature sets r ≠ signature sets r' := by
  intro same
  have cut := (rangesBetween_uncut (cuts_ascending alphabet sets) r' known').1
  rcases mem_cuts.mp cut with zero | ⟨_, s, listed, range, part, end_point⟩
  · omega
  · have alike := (signature_eq_iff known known' r.high_mem r'.low_mem).mp same s listed
    have maximal := SymbolSet.mem_ranges_iff.mp part
    rcases end_point with start | stop
    · have member : r'.low ∈ s := start ▸ maximal.holds _ range.low_mem
      exact maximal.starts r.high (by omega) (alike.mpr member)
    · have last : r.high = range.high := by omega
      have member : r.high ∈ s := last ▸ maximal.holds _ range.high_mem
      exact maximal.stops (stop ▸ alike.mp member)

theorem classOf_ofSets (known : r ∈ rangesBetween alphabet.maxSymbol (cuts alphabet sets))
    (inside : c ∈ r) :
    (ofSets alphabet sets usesLineStart usesLineEnd).classOf c = some
      (numberOf (rangesBetween alphabet.maxSymbol (cuts alphabet sets)) (signature sets) r) :=
  (classOf_eq_some_iff ofSets_tiles).mpr ⟨r, mem_intervals_ofSets.mpr ⟨known, rfl⟩, inside⟩

theorem classOf_ofSets_inOrder :
    InOrder (ofSets alphabet sets usesLineStart usesLineEnd).classOf := by
  intro c k found smaller below
  obtain ⟨r, member, inside⟩ := classOf_mem found
  obtain ⟨known, rfl⟩ := mem_intervals_ofSets.mp member
  obtain ⟨i, there⟩ := List.mem_iff_getElem?.mp known
  obtain ⟨j, before, r', there', rfl⟩ := exists_numberOf there below
  refine ⟨r'.low, ?_, classOf_ofSets (List.mem_of_getElem? there') r'.low_mem⟩
  obtain ⟨i_lt, rfl⟩ := List.getElem?_eq_some_iff.mp there
  obtain ⟨j_lt, rfl⟩ := List.getElem?_eq_some_iff.mp there'
  have apart := List.pairwise_iff_getElem.mp (cuts_tile alphabet sets).ascending j i j_lt i_lt before
  have ends := SymbolRange.low_le_high (rangesBetween alphabet.maxSymbol (cuts alphabet sets))[j]
  have above := (SymbolRange.mem_def.mp inside).1
  omega

/-- The set of a class holds the symbols of all intervals of the class. -/
theorem mem_classSets_ofSets :
    (∃ s, (ofSets alphabet sets usesLineStart usesLineEnd).classSets[k]? = some s ∧ c ∈ s) ↔
      ∃ r, (r, k) ∈ (ofSets alphabet sets usesLineStart usesLineEnd).intervals ∧ c ∈ r := by
  have members : ∀ intervals : List (SymbolRange × Nat),
      c ∈ SymbolSet.ofRanges ((intervals.filter fun interval => interval.2 = k).map Prod.fst) ↔
        ∃ r, (r, k) ∈ intervals ∧ c ∈ r := by
    intro intervals
    simp only [SymbolSet.mem_ofRanges, List.mem_map, List.mem_filter, decide_eq_true_eq,
      Prod.exists, exists_and_right, exists_eq_right]
  rw [classSets_ofSets, List.getElem?_map, ← members]
  by_cases small : k < (distinct ((rangesBetween alphabet.maxSymbol (cuts alphabet sets)).map
      (signature sets))).length
  · rw [List.getElem?_range small]
    simp only [Option.map_some, Option.some_inj, exists_eq_left']
  · rw [List.getElem?_eq_none (by rw [List.length_range]; omega), members]
    apply iff_of_false
    · simp only [Option.map_none, reduceCtorEq, false_and, exists_false, not_false_eq_true]
    · intro holds
      have sorts : (ofSets alphabet sets usesLineStart usesLineEnd).Sorts sets := ofSets_sorts
      have bound := sorts.small ((classOf_eq_some_iff ofSets_tiles).mpr holds)
      rw [numSymbolClasses, classSets_ofSets_length] at bound
      exact small bound

theorem canonical_ofSets : (ofSets alphabet sets usesLineStart usesLineEnd).Canonical sets := by
  have covered : ∀ c ≤ alphabet.maxSymbol,
      ∃ r ∈ rangesBetween alphabet.maxSymbol (cuts alphabet sets), c ∈ r := by
    intro c small
    exact (cuts_tile alphabet sets).covers (Nat.zero_le c) (Nat.lt_succ_of_le small)
  refine ⟨ofSets_tiles, ?_, ?_, ?_, classOf_ofSets_inOrder, ?_, ?_⟩
  · intro left first right second next same
    obtain ⟨known, number⟩ := mem_intervals_ofSets.mp first
    obtain ⟨known', number'⟩ := mem_intervals_ofSets.mp second
    rw [number, number', numberOf_inj known] at same
    exact signature_ne known known' next same
  · exact fun c => classOf_eq_none_iff ofSets_tiles
  · intro a small b small'
    obtain ⟨r, known, inside⟩ := covered a small
    obtain ⟨r', known', inside'⟩ := covered b small'
    rw [classOf_ofSets known inside, classOf_ofSets known' inside', Option.some_inj,
      numberOf_inj known, signature_eq_iff known known' inside inside']
  · intro c k
    rw [classOf_eq_some_iff ofSets_tiles, mem_classSets_ofSets]
  · intro s listed
    obtain ⟨k, inside, rfl⟩ := List.mem_iff_getElem.mp listed
    obtain ⟨r, member⟩ := exists_interval_ofSets inside
    obtain ⟨s, found, low⟩ := mem_classSets_ofSets.mpr ⟨r, member, r.low_mem⟩
    rw [List.getElem?_eq_getElem inside, Option.some_inj] at found
    exact ⟨r.low, found ▸ low⟩

end

/-! Nothing is left to choose for a partition of this form. -/

namespace Canonical

variable {p q : Partition} {sets sets' : List SymbolSet}

theorem congr (canonical : p.Canonical sets) (same : ∀ s, s ∈ sets' ↔ s ∈ sets) :
    p.Canonical sets' := by
  have alike := canonical.alike
  simp only [← same] at alike
  exact { canonical with alike }

/-- The intervals are the longest runs of symbols of one class. -/
theorem mem_intervals_iff (canonical : p.Canonical sets) {k : Nat} :
    (r, k) ∈ p.intervals ↔ r.Maximal fun c => p.classOf c = some k := by
  apply SymbolRange.iff_maximal fun r => (r, k) ∈ p.intervals
  · exact fun c => classOf_eq_some_iff canonical.tiles
  · intro r r' member member'
    have ordered := List.pairwise_map.mp canonical.tiles.ascending
    have touches : ∀ left right, (left, k) ∈ p.intervals → (right, k) ∈ p.intervals →
        right.low ≠ left.high + 1 :=
      fun left right first second next => canonical.neighbours _ first _ second next rfl
    rcases related_of_mem ordered member member' with same | before | behind
    · cases same
      exact Or.inl rfl
    · have apart := touches r r' member member'
      exact Or.inr (Or.inl (Nat.lt_of_le_of_ne before apart.symm))
    · have apart := touches r' r member' member
      exact Or.inr (Or.inr (Nat.lt_of_le_of_ne behind apart.symm))

/-- Nothing else tells symbols apart as the sets do and numbers them in order. -/
theorem classOf_eq (canonical : p.Canonical sets) {f : Nat → Option Nat} (inOrder : InOrder f)
    (outside : ∀ c, f c = none ↔ p.alphabet.maxSymbol < c)
    (alike : ∀ a ≤ p.alphabet.maxSymbol, ∀ b ≤ p.alphabet.maxSymbol,
      f a = f b ↔ ∀ s ∈ sets, (a ∈ s ↔ b ∈ s)) : p.classOf = f := by
  have defined : ∀ c, p.classOf c = none ↔ f c = none := by
    intro c
    rw [canonical.outside, outside]
  apply canonical.inOrder.unique inOrder defined
  intro a b
  rcases Nat.lt_or_ge p.alphabet.maxSymbol a with above | small
  · have nothing := (canonical.outside a).mpr above
    rw [nothing, (defined a).mp nothing, eq_comm, defined b, eq_comm]
  · rcases Nat.lt_or_ge p.alphabet.maxSymbol b with above | small'
    · have nothing := (canonical.outside b).mpr above
      rw [nothing, (defined b).mp nothing, defined a]
    · rw [canonical.alike a small b small', alike a small b small']

theorem classOf_unique (first : p.Canonical sets) (second : q.Canonical sets)
    (alphabet : p.alphabet = q.alphabet) : p.classOf = q.classOf := by
  apply first.classOf_eq second.inOrder
  · rw [alphabet]
    exact second.outside
  · rw [alphabet]
    exact second.alike

theorem intervals_unique (first : p.Canonical sets) (second : q.Canonical sets)
    (alphabet : p.alphabet = q.alphabet) : p.intervals = q.intervals := by
  have classes := first.classOf_unique second alphabet
  apply eq_of_ascending Prod.fst (List.pairwise_map.mp first.tiles.ascending)
    (List.pairwise_map.mp second.tiles.ascending)
  intro (r, k)
  rw [first.mem_intervals_iff, second.mem_intervals_iff, classes]

theorem getElem?_classSets_iff (canonical : p.Canonical sets) {k : Nat} :
    p.classSets[k]? = some s ↔ (∃ c, c ∈ s) ∧ ∀ c, c ∈ s ↔ p.classOf c = some k := by
  have members : ∀ {s}, p.classSets[k]? = some s → ∀ c, c ∈ s ↔ p.classOf c = some k := by
    intro s found c
    rw [canonical.members, found]
    simp only [Option.some_inj, exists_eq_left']
  constructor
  · intro found
    exact ⟨canonical.inhabited s (List.mem_of_getElem? found), members found⟩
  · intro ⟨⟨c, inside⟩, same⟩
    obtain ⟨t, found, _⟩ := (canonical.members c k).mp ((same c).mp inside)
    have equal : s = t := by
      apply SymbolSet.ext
      intro c
      rw [same, members found]
    rw [equal]
    exact found

theorem classSets_unique (first : p.Canonical sets) (second : q.Canonical sets)
    (alphabet : p.alphabet = q.alphabet) : p.classSets = q.classSets := by
  have classes := first.classOf_unique second alphabet
  apply List.ext_getElem?
  intro k
  apply Option.ext
  intro s
  rw [first.getElem?_classSets_iff, second.getElem?_classSets_iff, classes]

end Canonical

/-- The partition sorts the symbols as its sets do, and the order of the sets and how often each of
them is listed make no difference. -/
theorem ofSets_coarsest (alphabet : Alphabet) (sets : List SymbolSet)
    (usesLineStart usesLineEnd : Bool) :
    (ofSets alphabet sets usesLineStart usesLineEnd).alphabet = alphabet ∧
    (ofSets alphabet sets usesLineStart usesLineEnd).Canonical sets ∧
    ∀ sets', (∀ s, s ∈ sets' ↔ s ∈ sets) →
      ofSets alphabet sets' usesLineStart usesLineEnd =
        ofSets alphabet sets usesLineStart usesLineEnd := by
  refine ⟨rfl, canonical_ofSets, ?_⟩
  intro sets' same
  have canonical' : (ofSets alphabet sets' usesLineStart usesLineEnd).Canonical sets' :=
    canonical_ofSets
  have canonical : (ofSets alphabet sets usesLineStart usesLineEnd).Canonical sets' :=
    canonical_ofSets.congr same
  have intervals := canonical'.intervals_unique canonical rfl
  have classSets := canonical'.classSets_unique canonical rfl
  change withAnchors alphabet (ofSets alphabet sets' usesLineStart usesLineEnd).intervals
      (ofSets alphabet sets' usesLineStart usesLineEnd).classSets usesLineStart usesLineEnd = _
  rw [intervals, classSets]
  rfl

def digits : SymbolSet := .ofRange ⟨0x30, 0x39, by decide⟩

/-- All symbols from 0x80 to beyond the bytes. -/
def upper : SymbolSet := .ofRange ⟨0x80, 0x17F, by decide⟩

theorem ofSets_reordered :
    (∀ s, s ∈ [upper, digits, upper] ↔ s ∈ [digits, upper]) ∧
      ofSets .byte [upper, digits, upper] true false = ofSets .byte [digits, upper] true false ∧
      (ofSets .byte [digits, upper] true false).intervals =
        [(⟨0, 0x2F, by decide⟩, 0), (⟨0x30, 0x39, by decide⟩, 1), (⟨0x3A, 0x7F, by decide⟩, 0),
          (⟨0x80, 0xFF, by decide⟩, 2)] := by
  have same : ∀ s, s ∈ [upper, digits, upper] ↔ s ∈ [digits, upper] := by
    intro s
    simp only [List.mem_cons, List.not_mem_nil, or_false]
    tauto
  exact ⟨same, (ofSets_coarsest .byte [digits, upper] true false).2.2 _ same, by decide⟩

end Partition

end Scangen
