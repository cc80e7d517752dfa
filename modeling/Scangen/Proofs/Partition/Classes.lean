import Mathlib.Tactic.Tauto
import Scangen.Automaton.Thompson
import Scangen.Proofs.Finite.Numbering
import Scangen.Proofs.Partition.Intervals
import Scangen.Proofs.Symbol.Resolve
import Scangen.Proofs.Symbol.Runs

/-!
What the classes of a specification are good for: every symbol of the alphabet has one, and whether
a symbol belongs to a set that occurs in a rule can be told from its class.
-/

namespace Scangen

/-- The interval lies in the range or outside of it. -/
def SymbolRange.Spares (range interval : SymbolRange) : Prop :=
  interval.high < range.low ∨ range.high < interval.low ∨ range.low ≤ interval.low ∧
    interval.high ≤ range.high

theorem SymbolRange.Spares.mem_iff {range r : SymbolRange} {a b : Nat} (spares : range.Spares r)
    (first : a ∈ r) (second : b ∈ r) : a ∈ range ↔ b ∈ range := by
  unfold SymbolRange.Spares at spares
  rw [SymbolRange.mem_def] at first second ⊢
  rw [SymbolRange.mem_def]
  omega

namespace Partition

variable {p : Partition} {range : SymbolRange} {s : SymbolSet}

theorem addRange_ok (classes : IndexSet)
    (spared : ∀ interval ∈ p.intervals, range.Spares interval.1) :
    ∃ found, p.addRange classes range = .ok found ∧ ∀ c, c ∈ found ↔
      c ∈ classes ∨ ∃ r, (r, c) ∈ p.intervals ∧ range.low ≤ r.low ∧ r.high ≤ range.high := by
  unfold addRange
  generalize p.intervals = intervals at spared
  induction intervals generalizing classes with
  | nil => exact ⟨classes, rfl, by simp⟩
  | cons interval rest ih =>
    obtain ⟨r, classId⟩ := interval
    have ends := r.low_le_high
    have ends' := range.low_le_high
    have rest_spared : ∀ interval ∈ rest, range.Spares interval.1 :=
      fun interval member => spared interval (List.mem_cons_of_mem _ member)
    rw [List.foldlM_cons]
    dsimp only
    by_cases outside : r.high < range.low ∨ range.high < r.low
    · obtain ⟨found, same, members⟩ := ih classes rest_spared
      rw [if_pos outside]
      refine ⟨found, same, fun c => ?_⟩
      rw [members]
      constructor
      · rintro (old | ⟨r', later, inside⟩)
        · exact Or.inl old
        · exact Or.inr ⟨r', List.mem_cons_of_mem _ later, inside⟩
      · rintro (old | ⟨r', member, inside⟩)
        · exact Or.inl old
        · rcases List.mem_cons.mp member with here | later
          · cases here
            omega
          · exact Or.inr ⟨r', later, inside⟩
    · have inside : range.low ≤ r.low ∧ r.high ≤ range.high := by
        rcases spared (r, classId) List.mem_cons_self with out | out | inside
        · exact absurd (Or.inl out) outside
        · exact absurd (Or.inr out) outside
        · exact inside
      obtain ⟨found, same, members⟩ := ih (classes.insert classId) rest_spared
      rw [if_neg outside, if_pos inside]
      refine ⟨found, same, fun c => ?_⟩
      rw [members, IndexSet.mem_insert]
      constructor
      · rintro ((rfl | old) | ⟨r', later, inside⟩)
        · exact Or.inr ⟨r, List.mem_cons_self, inside⟩
        · exact Or.inl old
        · exact Or.inr ⟨r', List.mem_cons_of_mem _ later, inside⟩
      · rintro (old | ⟨r', member, inside⟩)
        · exact Or.inl (Or.inr old)
        · rcases List.mem_cons.mp member with here | later
          · cases here
            exact Or.inl (Or.inl rfl)
          · exact Or.inr ⟨r', later, inside⟩

/-- A set that cuts no interval is made of the classes of all intervals inside it. -/
theorem classesOf_ok
    (spared : ∀ range ∈ s.ranges, ∀ interval ∈ p.intervals, range.Spares interval.1) :
    ∃ found, p.classesOf s = .ok found ∧ ∀ c, c ∈ found ↔ ∃ r, (r, c) ∈ p.intervals ∧
      ∃ range ∈ s.ranges, range.low ≤ r.low ∧ r.high ≤ range.high := by
  have total : ∀ ranges : List SymbolRange, ∀ classes : IndexSet,
      (∀ range ∈ ranges, ∀ interval ∈ p.intervals, range.Spares interval.1) →
      ∃ found, ranges.foldlM p.addRange classes = .ok found ∧ ∀ c, c ∈ found ↔
        c ∈ classes ∨ ∃ r, (r, c) ∈ p.intervals ∧ ∃ range ∈ ranges, range.low ≤ r.low ∧
          r.high ≤ range.high := by
    intro ranges
    induction ranges with
    | nil =>
      intro classes _
      exact ⟨classes, rfl, by simp⟩
    | cons range rest ih =>
      intro classes spared
      obtain ⟨middle, first, some_members⟩ := addRange_ok classes (spared range List.mem_cons_self)
      obtain ⟨found, others, members⟩ :=
        ih middle fun range member => spared range (List.mem_cons_of_mem _ member)
      refine ⟨found, ?_, fun c => ?_⟩
      · rw [List.foldlM_cons, first]
        exact others
      · rw [members, some_members, or_assoc]
        apply or_congr_right
        simp only [List.mem_cons, exists_eq_or_imp, and_or_left, exists_or]
  obtain ⟨found, same, members⟩ := total s.ranges ∅ spared
  exact ⟨found, same, by simpa using members⟩

/-- The label of a set holds the classes of all intervals inside the set. -/
theorem mem_label (spared : ∀ range ∈ s.ranges, ∀ interval ∈ p.intervals, range.Spares interval.1)
    {c : Nat} :
    c ∈ p.label s ↔ ∃ r, (r, c) ∈ p.intervals ∧ ∃ range ∈ s.ranges, range.low ≤ r.low ∧
      r.high ≤ range.high := by
  obtain ⟨found, same, members⟩ := classesOf_ok spared
  have classes : p.label s = found := by
    unfold label
    rw [same]
  rw [classes, members]

/-- What an automaton needs to know of the classes of some sets. -/
structure Sorts (p : Partition) (sets : List SymbolSet) : Prop where
  small : ∀ {x c}, p.classOf x = some c → c < p.numSymbolClasses
  covers : ∀ {x}, x ≤ p.alphabet.maxSymbol → ∃ c, p.classOf x = some c
  tells : ∀ {s}, s ∈ sets → ∀ {x c}, p.classOf x = some c → (x ∈ s ↔ c ∈ p.label s)
  label_small : ∀ {s}, s ∈ sets → ∀ {c}, c ∈ p.label s → c < p.numSymbolClasses

theorem classOf_mem {x c : Nat} (found : p.classOf x = some c) :
    ∃ r, (r, c) ∈ p.intervals ∧ x ∈ r := by
  obtain ⟨⟨r, classId⟩, first, rfl⟩ := Option.map_eq_some_iff.mp found
  have inside : r.contains x = true := by simpa using List.find?_some first
  exact ⟨r, List.mem_of_find?_eq_some first, SymbolRange.contains_iff.mp inside⟩

theorem classOf_of_mem {x : Nat} {interval : SymbolRange × Nat} (member : interval ∈ p.intervals)
    (inside : x ∈ interval.1) :
    ∃ c, p.classOf x = some c := by
  unfold classOf
  rw [← Option.isSome_iff_exists, Option.isSome_map, List.find?_isSome]
  exact ⟨interval, member, SymbolRange.contains_iff.mpr inside⟩

/-- Where the intervals tile, each symbol is in one of them only. -/
theorem classOf_eq_some_iff {stop next x c : Nat}
    (tiles : Tiles stop next (p.intervals.map Prod.fst)) :
    p.classOf x = some c ↔ ∃ r, (r, c) ∈ p.intervals ∧ x ∈ r := by
  constructor
  · exact classOf_mem
  · intro ⟨r, member, inside⟩
    obtain ⟨c', found⟩ := classOf_of_mem member inside
    obtain ⟨r', member', inside'⟩ := classOf_mem found
    rw [SymbolRange.mem_def] at inside inside'
    rcases related_of_mem (List.pairwise_map.mp tiles.ascending) member member' with
      same | before | behind
    · cases same
      exact found
    · have apart : r.high < r'.low := before
      omega
    · have apart : r'.high < r.low := behind
      omega

/-- Where the intervals tile, the symbols outside the alphabet are those without a class. -/
theorem classOf_eq_none_iff {x : Nat}
    (tiles : Tiles p.alphabet.cardinality 0 (p.intervals.map Prod.fst)) :
    p.classOf x = none ↔ p.alphabet.maxSymbol < x := by
  constructor
  · intro nothing
    by_contra inside
    have below : x < p.alphabet.cardinality := Nat.lt_succ_of_le (Nat.le_of_not_lt inside)
    obtain ⟨r, listed, member⟩ := tiles.covers (Nat.zero_le x) below
    obtain ⟨interval, known, rfl⟩ := List.mem_map.mp listed
    obtain ⟨c, found⟩ := classOf_of_mem known member
    rw [found] at nothing
    cases nothing
  · intro above
    by_contra something
    obtain ⟨c, found⟩ := Option.ne_none_iff_exists'.mp something
    obtain ⟨r, known, inside⟩ := classOf_mem found
    have below := tiles.high_lt.2 r (List.mem_map_of_mem known)
    have high := (SymbolRange.mem_def.mp inside).2
    change r.high < p.alphabet.maxSymbol + 1 at below
    omega

/-- Where the intervals tile, a set that cuts none of them is labelled with the classes that it
meets. -/
theorem mem_label_iff_meets {stop next c : Nat}
    (tiles : Tiles stop next (p.intervals.map Prod.fst))
    (spared : ∀ range ∈ s.ranges, ∀ interval ∈ p.intervals, range.Spares interval.1) :
    c ∈ p.label s ↔ ∃ x ∈ s, p.classOf x = some c := by
  rw [mem_label spared]
  constructor
  · intro ⟨r, member, range, part, low, high⟩
    have ends := r.low_le_high
    refine ⟨r.low, ⟨range, part, SymbolRange.mem_def.mpr (by omega)⟩, ?_⟩
    exact (classOf_eq_some_iff tiles).mpr ⟨r, member, r.low_mem⟩
  · intro ⟨x, ⟨range, part, held⟩, found⟩
    obtain ⟨r, member, inside⟩ := classOf_mem found
    have spares : range.Spares r := spared range part (r, c) member
    rw [SymbolRange.mem_def] at held inside
    unfold SymbolRange.Spares at spares
    exact ⟨r, member, range, part, by omega⟩

/-- Intervals that no set cuts, where those of one class belong to the same sets. -/
theorem sorts_of_intervals {sets : List SymbolSet}
    (small : ∀ interval ∈ p.intervals, interval.2 < p.numSymbolClasses)
    (covers : ∀ x ≤ p.alphabet.maxSymbol, ∃ interval ∈ p.intervals, x ∈ interval.1)
    (spared : ∀ s ∈ sets, ∀ range ∈ s.ranges, ∀ interval ∈ p.intervals, range.Spares interval.1)
    (alike : ∀ s ∈ sets, ∀ r r' c, (r, c) ∈ p.intervals → (r', c) ∈ p.intervals →
      (r.low ∈ s ↔ r'.low ∈ s)) :
    p.Sorts sets := by
  constructor
  · intro x c found
    obtain ⟨r, member, _⟩ := classOf_mem found
    exact small (r, c) member
  · intro x inside
    obtain ⟨interval, member, holds⟩ := covers x inside
    exact classOf_of_mem member holds
  · intro s listed x c found
    obtain ⟨r, member, inside⟩ := classOf_mem found
    rw [mem_label (spared s listed)]
    have inside_iff := SymbolRange.mem_def.mp inside
    constructor
    · rintro ⟨range, part, holds⟩
      have holds := SymbolRange.mem_def.mp holds
      have spares : range.Spares r := spared s listed range part (r, c) member
      refine ⟨r, member, range, part, ?_⟩
      unfold SymbolRange.Spares at spares
      omega
    · rintro ⟨r', member', range, part, low, high⟩
      have ends := r'.low_le_high
      have low_mem : r.low ∈ s :=
        (alike s listed r r' c member member').mpr ⟨range, part,
          SymbolRange.mem_def.mpr ⟨low, by omega⟩⟩
      obtain ⟨range', part', holds⟩ := low_mem
      have spares : range'.Spares r := spared s listed range' part' (r, c) member
      exact ⟨range', part', (spares.mem_iff r.low_mem inside).mp holds⟩
  · intro s listed c member
    obtain ⟨r, inside, _⟩ := (mem_label (spared s listed)).mp member
    exact small (r, c) inside

section

variable {alphabet : Alphabet} {usesLineStart usesLineEnd : Bool} {sets : List SymbolSet}

theorem mem_intervals_identity {r : SymbolRange} {c : Nat} :
    (r, c) ∈ (identity alphabet usesLineStart usesLineEnd).intervals ↔
      c ≤ alphabet.maxSymbol ∧ r = .single c := by
  simp only [identity, withAnchors, List.mem_map, List.mem_range,
    Alphabet.cardinality, Prod.mk.injEq]
  constructor
  · rintro ⟨x, inside, rfl, rfl⟩
    exact ⟨by omega, rfl⟩
  · rintro ⟨inside, rfl⟩
    exact ⟨c, by omega, rfl, rfl⟩

theorem identity_tiles : Tiles alphabet.cardinality 0
    ((identity alphabet usesLineStart usesLineEnd).intervals.map Prod.fst) := by
  show Tiles alphabet.cardinality 0
    (((List.range alphabet.cardinality).map fun c => (SymbolRange.single c, c)).map Prod.fst)
  rw [List.map_map, List.range_eq_range']
  exact singles_tile _ _ 0 (Nat.zero_add _)

theorem identity_sorts : (identity alphabet usesLineStart usesLineEnd).Sorts sets := by
  apply sorts_of_intervals
  · rintro ⟨r, c⟩ member
    have inside := (mem_intervals_identity.mp member).1
    show c < (identity alphabet usesLineStart usesLineEnd).classSets.length
    simp only [identity, withAnchors, List.length_map, List.length_range, Alphabet.cardinality]
    omega
  · intro x inside
    exact ⟨(.single x, x), mem_intervals_identity.mpr ⟨inside, rfl⟩, SymbolRange.mem_single.mpr rfl⟩
  · rintro s _ range _ ⟨r, c⟩ member
    rw [(mem_intervals_identity.mp member).2]
    have ends := range.low_le_high
    show c < range.low ∨ range.high < c ∨ range.low ≤ c ∧ c ≤ range.high
    omega
  · intro s _ r r' c member member'
    rw [(mem_intervals_identity.mp member).2, (mem_intervals_identity.mp member').2]

/-- The sets that an interval belongs to. -/
def signature (sets : List SymbolSet) (r : SymbolRange) : List Bool :=
  sets.map fun s => s.contains r.low

theorem intervals_ofSets : (ofSets alphabet sets usesLineStart usesLineEnd).intervals =
    (rangesBetween alphabet.maxSymbol (cuts alphabet sets)).map fun r =>
      (r, numberOf (rangesBetween alphabet.maxSymbol (cuts alphabet sets)) (signature sets) r) :=
  zip_ranks

theorem mem_intervals_ofSets {r : SymbolRange} {c : Nat} :
    (r, c) ∈ (ofSets alphabet sets usesLineStart usesLineEnd).intervals ↔
      r ∈ rangesBetween alphabet.maxSymbol (cuts alphabet sets) ∧
        c = numberOf (rangesBetween alphabet.maxSymbol (cuts alphabet sets)) (signature sets) r := by
  rw [intervals_ofSets, List.mem_map]
  constructor
  · rintro ⟨r', member, same⟩
    cases same
    exact ⟨member, rfl⟩
  · rintro ⟨member, rfl⟩
    exact ⟨r, member, rfl⟩

theorem ofSets_tiles : Tiles alphabet.cardinality 0
    ((ofSets alphabet sets usesLineStart usesLineEnd).intervals.map Prod.fst) := by
  have ranges := List.map_id (rangesBetween alphabet.maxSymbol (cuts alphabet sets))
  rw [intervals_ofSets, List.map_map]
  exact ranges.symm ▸ cuts_tile alphabet sets

theorem classSets_ofSets : (ofSets alphabet sets usesLineStart usesLineEnd).classSets =
    (List.range (distinct ((rangesBetween alphabet.maxSymbol (cuts alphabet sets)).map
      (signature sets))).length).map fun k => SymbolSet.ofRanges
        (((ofSets alphabet sets usesLineStart usesLineEnd).intervals.filter
          fun interval => interval.2 = k).map Prod.fst) :=
  rfl

theorem classSets_ofSets_length :
    (ofSets alphabet sets usesLineStart usesLineEnd).classSets.length =
      (distinct ((rangesBetween alphabet.maxSymbol (cuts alphabet sets)).map
        (signature sets))).length := by
  rw [classSets_ofSets, List.length_map, List.length_range]

/-- No range of a set is cut by an interval. -/
theorem spares_of_mem (listed : s ∈ sets) (part : range ∈ s.ranges) {r : SymbolRange}
    (known : r ∈ rangesBetween alphabet.maxSymbol (cuts alphabet sets)) : range.Spares r := by
  obtain ⟨low_known, bounded, uncut⟩ := rangesBetween_uncut (cuts_ascending alphabet sets) r known
  have high_le : r.high ≤ alphabet.maxSymbol := by
    rcases bounded with small | ⟨point, cut, above⟩
    · exact small
    · have := cuts_le point cut
      omega
  have at_end : ∀ point, point = range.low ∨ point = range.high + 1 →
      point ≤ r.low ∨ r.high < point := by
    intro point end_point
    by_cases inside : point ≤ alphabet.maxSymbol
    · exact uncut point (mem_cuts.mpr (Or.inr ⟨inside, s, listed, range, part, end_point⟩))
    · omega
  have low := at_end range.low (Or.inl rfl)
  have high := at_end (range.high + 1) (Or.inr rfl)
  unfold SymbolRange.Spares
  omega

theorem ofSets_sorts : (ofSets alphabet sets usesLineStart usesLineEnd).Sorts sets := by
  apply sorts_of_intervals
  · rintro ⟨r, c⟩ member
    obtain ⟨listed, rfl⟩ := mem_intervals_ofSets.mp member
    show _ < (ofSets alphabet sets usesLineStart usesLineEnd).classSets.length
    rw [classSets_ofSets_length]
    exact numberOf_lt listed
  · intro x inside
    have below : x < alphabet.cardinality := Nat.lt_succ_of_le inside
    obtain ⟨r, member, holds⟩ := (cuts_tile alphabet sets).covers (Nat.zero_le x) below
    exact ⟨(r, _), mem_intervals_ofSets.mpr ⟨member, rfl⟩, holds⟩
  · rintro s listed range part ⟨r, c⟩ member
    exact spares_of_mem listed part (mem_intervals_ofSets.mp member).1
  · intro s listed r r' c member member'
    obtain ⟨known, rfl⟩ := mem_intervals_ofSets.mp member
    obtain ⟨_, same⟩ := mem_intervals_ofSets.mp member'
    have bit := List.map_inj_left.mp ((numberOf_inj known).mp same) s listed
    rw [← SymbolSet.contains_iff, ← SymbolSet.contains_iff, bit]

theorem exists_interval_ofSets {classId : Nat}
    (small : classId < (ofSets alphabet sets usesLineStart usesLineEnd).numSymbolClasses) :
    ∃ r, (r, classId) ∈ (ofSets alphabet sets usesLineStart usesLineEnd).intervals := by
  rw [numSymbolClasses, classSets_ofSets_length] at small
  obtain ⟨r, listed, same⟩ := List.mem_map.mp (mem_distinct.mp (List.getElem_mem small))
  refine ⟨r, mem_intervals_ofSets.mpr ⟨listed, ?_⟩⟩
  rw [numberOf, same]
  exact (idxOf_distinct small).symm

end

theorem Sorts.empty {sets : List SymbolSet} (sorts : p.Sorts sets) : p.Sorts (∅ :: sets) := by
  have nothing : p.label ∅ = ∅ := rfl
  refine ⟨sorts.small, sorts.covers, ?_, ?_⟩
  · intro s listed x c found
    rcases List.mem_cons.mp listed with rfl | other
    · simp [nothing]
    · exact sorts.tells other found
  · intro s listed c member
    rcases List.mem_cons.mp listed with rfl | other
    · simp [nothing] at member
    · exact sorts.label_small other member

theorem Sorts.subset {sets sets' : List SymbolSet} (sorts : p.Sorts sets) (fewer : sets' ⊆ sets) :
    p.Sorts sets' :=
  ⟨sorts.small, sorts.covers, fun listed => sorts.tells (fewer listed), fun listed =>
    sorts.label_small (fewer listed)⟩

/-- The partition of a specification sorts the symbols for all of its patterns. -/
theorem ofSpec_sorts (spec : Spec) (config : Config) :
    (ofSpec spec config).Sorts (spec.patterns.flatMap (Pattern.symbolSets config.charset)) := by
  have sorts : (ofSpec spec config).Sorts (setsOf spec config.charset) := by
    unfold ofSpec
    split
    · exact ofSets_sorts
    · exact identity_sorts
  apply sorts.empty.subset
  intro s listed
  by_cases nothing : s.isEmpty = true
  · have same : s = ∅ := by
      obtain ⟨ranges, separated⟩ := s
      cases List.isEmpty_iff.mp nothing
      rfl
    rw [same]
    exact List.mem_cons_self
  · apply List.mem_cons_of_mem
    rw [setsOf, mem_distinct, List.mem_filter]
    exact ⟨listed, by simp [nothing]⟩

theorem alphabet_ofSpec (spec : Spec) (config : Config) :
    (ofSpec spec config).alphabet = config.charset.alphabet := by
  unfold ofSpec
  split <;> rfl

/-- The intervals of the partition follow each other from the first symbol to the last. -/
theorem ofSpec_tiles (spec : Spec) (config : Config) :
    Tiles (ofSpec spec config).alphabet.cardinality 0
    ((ofSpec spec config).intervals.map Prod.fst) := by
  unfold ofSpec
  split
  · exact ofSets_tiles
  · exact identity_tiles

/-! No class is empty. -/

theorem exists_interval (spec : Spec) (config : Config) {classId : Nat}
    (small : classId < (ofSpec spec config).numSymbolClasses) :
    ∃ r, (r, classId) ∈ (ofSpec spec config).intervals := by
  unfold ofSpec at small ⊢
  split at small
  next joined =>
    rw [if_pos joined]
    exact exists_interval_ofSets small
  next single =>
    rw [if_neg single]
    have inside : classId < config.charset.alphabet.cardinality := by
      simpa only [numSymbolClasses, identity, withAnchors, List.length_map, List.length_range]
        using small
    exact ⟨.single classId, List.mem_map.mpr ⟨classId, List.mem_range.mpr inside, rfl⟩⟩

/-- Every class of symbols has a symbol. -/
theorem exists_symbol (spec : Spec) (config : Config) {classId : Nat}
    (small : classId < (ofSpec spec config).numSymbolClasses) :
    ∃ x, (ofSpec spec config).classOf x = some classId := by
  obtain ⟨r, member⟩ := exists_interval spec config small
  exact ⟨r.low, (classOf_eq_some_iff (ofSpec_tiles spec config)).mpr ⟨r, member, r.low_mem⟩⟩

/-- The ends of a line have classes of their own behind those of symbols. -/
theorem lineStart_ofSpec (spec : Spec) (config : Config) :
    (ofSpec spec config).lineStart =
      if spec.usesLineStart then some (ofSpec spec config).numSymbolClasses else none := by
  unfold ofSpec
  split <;> rfl

theorem lineEnd_ofSpec (spec : Spec) (config : Config) :
    (ofSpec spec config).lineEnd =
      if spec.usesLineEnd then some ((ofSpec spec
        config).numSymbolClasses + spec.usesLineStart.toNat) else none := by
  unfold ofSpec
  split <;> rfl

end Partition

end Scangen
