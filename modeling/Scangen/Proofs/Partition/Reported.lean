import Scangen.Proofs.Partition.Canonical
import Scangen.Proofs.Partition.Unions

/-!
Looking up the classes of a set. It fails exactly if the set cuts an interval in two, and finds all
classes that the set meets otherwise. These are the set as long as it is made of whole classes; of a
class with several intervals, it may hold some and miss the others.
-/

namespace Scangen

section Fold

variable {α β ε : Type} {f : β → α → Except ε β} {l : List α} {start done : β} {e : ε}

/-- If all steps together succeed, so does each of them. -/
theorem exists_step_of_foldlM_ok (steps : l.foldlM f start = .ok done) :
    ∀ a ∈ l, ∃ b b', f b a = .ok b' := by
  induction l generalizing start with
  | nil => exact fun a member => absurd member List.not_mem_nil
  | cons first rest ih =>
    rw [List.foldlM_cons] at steps
    cases step : f start first with
    | error e =>
      rw [step] at steps
      cases steps
    | ok next =>
      rw [step] at steps
      intro a member
      rcases List.mem_cons.mp member with rfl | later
      · exact ⟨start, next, step⟩
      · exact ih steps a later

/-- If the steps fail, one of them does. -/
theorem exists_step_of_foldlM_error (steps : l.foldlM f start = .error e) :
    ∃ a ∈ l, ∃ b, f b a = .error e := by
  induction l generalizing start with
  | nil => cases steps
  | cons first rest ih =>
    rw [List.foldlM_cons] at steps
    cases step : f start first with
    | error e' =>
      rw [step] at steps
      cases steps
      exact ⟨first, List.mem_cons_self, start, step⟩
    | ok next =>
      rw [step] at steps
      obtain ⟨a, later, failed⟩ := ih steps
      exact ⟨a, List.mem_cons_of_mem _ later, failed⟩

end Fold

namespace SymbolSet

variable {s : SymbolSet} {alphabet : Alphabet} {r range : SymbolRange}

theorem exists_mem_cut {max : Nat} {l : List SymbolRange} (member : range ∈ l)
    (inside : range.low ≤ max) :
    ∃ part ∈ cut max l, part.low = range.low ∧ part.high = min range.high max := by
  induction l with
  | nil => cases member
  | cons head rest ih =>
    rw [cut]
    rcases List.mem_cons.mp member with rfl | later
    · rw [dif_pos inside]
      exact ⟨_, List.mem_cons_self, rfl, rfl⟩
    · obtain ⟨part, known, ends⟩ := ih later
      split
      next => exact ⟨part, List.mem_cons_of_mem _ known, ends⟩
      next => exact ⟨part, known, ends⟩

/-- What a set holds outside the alphabet cuts no interval of it. -/
theorem spares_of_restrict (within : r.high ≤ alphabet.maxSymbol)
    (spared : ∀ range ∈ (s.restrict alphabet).ranges, range.Spares r) :
    ∀ range ∈ s.ranges, range.Spares r := by
  intro range member
  by_cases inside : range.low ≤ alphabet.maxSymbol
  · obtain ⟨part, known, low, high⟩ := exists_mem_cut member inside
    have spares := spared part known
    have ends := r.low_le_high
    unfold SymbolRange.Spares at spares ⊢
    omega
  · unfold SymbolRange.Spares
    omega

end SymbolSet

namespace Partition

variable {p : Partition} {s : SymbolSet} {classes other : IndexSet} {split : SplitClass}
  {range : SymbolRange}

/-! What a failure tells. -/

theorem spares_of_addRange {found : IndexSet} (done : p.addRange classes range = .ok found) :
    ∀ interval ∈ p.intervals, range.Spares interval.1 := by
  intro interval member
  obtain ⟨before, after, step⟩ := exists_step_of_foldlM_ok done interval member
  dsimp only at step
  unfold SymbolRange.Spares
  by_cases outside : interval.1.high < range.low ∨ range.high < interval.1.low
  · omega
  · rw [if_neg outside] at step
    by_cases inside : range.low ≤ interval.1.low ∧ interval.1.high ≤ range.high
    · omega
    · rw [if_neg inside] at step
      cases step

theorem split_of_addRange (failed : p.addRange classes range = .error split) :
    split.range = range ∧ (split.interval, split.classId) ∈ p.intervals ∧
      ¬split.range.Spares split.interval := by
  obtain ⟨⟨r, classId⟩, member, before, step⟩ := exists_step_of_foldlM_error failed
  dsimp only at step
  by_cases outside : r.high < range.low ∨ range.high < r.low
  · rw [if_pos outside] at step
    cases step
  · rw [if_neg outside] at step
    by_cases inside : range.low ≤ r.low ∧ r.high ≤ range.high
    · rw [if_pos inside] at step
      cases step
    · rw [if_neg inside] at step
      cases step
      refine ⟨rfl, member, ?_⟩
      show ¬(r.high < range.low ∨ range.high < r.low ∨ range.low ≤ r.low ∧ r.high ≤ range.high)
      omega

/-- The classes of a set are found exactly if the set cuts no interval. -/
theorem exists_classesOf_iff :
    (∃ classes, p.classesOf s = .ok classes) ↔
      ∀ range ∈ s.ranges, ∀ interval ∈ p.intervals, range.Spares interval.1 := by
  constructor
  · intro ⟨classes, found⟩ range part
    obtain ⟨before, after, step⟩ := exists_step_of_foldlM_ok found range part
    exact spares_of_addRange step
  · intro spared
    obtain ⟨classes, found, _⟩ := classesOf_ok spared
    exact ⟨classes, found⟩

theorem split_of_classesOf (failed : p.classesOf s = .error split) :
    split.range ∈ s.ranges ∧ (split.interval, split.classId) ∈ p.intervals ∧
      ¬split.range.Spares split.interval := by
  obtain ⟨range, part, before, step⟩ := exists_step_of_foldlM_error failed
  obtain ⟨same, cut⟩ := split_of_addRange step
  exact ⟨same ▸ part, cut⟩

theorem label_eq (found : p.classesOf s = .ok classes) : p.label s = classes := by
  unfold label
  rw [found]

/-! What is known of the partitions that there are. -/

/-- The partition was made for some sets, or has a class for each symbol. -/
inductive Made : Partition → Prop
  | ofSets (alphabet : Alphabet) (sets : List SymbolSet) (usesLineStart usesLineEnd : Bool) :
    Made (.ofSets alphabet sets usesLineStart usesLineEnd)
  | identity (alphabet : Alphabet) (usesLineStart usesLineEnd : Bool) :
    Made (.identity alphabet usesLineStart usesLineEnd)

namespace Made

variable (made : p.Made)

include made

theorem tiles : Tiles p.alphabet.cardinality 0 (p.intervals.map Prod.fst) := by
  cases made with
  | ofSets => exact ofSets_tiles
  | identity => exact identity_tiles

/-- The set of a class holds the symbols of the class. -/
theorem members (c k : Nat) :
    p.classOf c = some k ↔ ∃ set, p.classSets[k]? = some set ∧ c ∈ set := by
  cases made with
  | ofSets alphabet sets usesLineStart usesLineEnd => exact canonical_ofSets.members c k
  | identity alphabet usesLineStart usesLineEnd =>
    have sets : (Partition.identity alphabet usesLineStart usesLineEnd).classSets =
      (List.range alphabet.cardinality).map .single := rfl
    rw [classOf_eq_some_iff identity_tiles, sets, List.getElem?_map]
    simp only [mem_intervals_identity]
    by_cases small : k < alphabet.cardinality
    · have below : k ≤ alphabet.maxSymbol := Nat.le_of_lt_succ small
      simp [List.getElem?_range small, below, SymbolSet.single]
    · have above : ¬k ≤ alphabet.maxSymbol := fun le => small (Nat.lt_succ_of_le le)
      have nothing : (List.range alphabet.cardinality)[k]? = none := by
        rw [List.getElem?_eq_none_iff, List.length_range]
        omega
      simp [nothing, above]

/-- No class is empty. -/
theorem inhabited {k : Nat} (known : k < p.classSets.length) : ∃ c, p.classOf c = some k := by
  cases made with
  | ofSets =>
    obtain ⟨r, member⟩ := exists_interval_ofSets known
    exact ⟨r.low, (classOf_eq_some_iff ofSets_tiles).mpr ⟨r, member, r.low_mem⟩⟩
  | identity alphabet usesLineStart usesLineEnd =>
    have small : k < alphabet.cardinality := by
      simpa only [Partition.identity, withAnchors, List.length_map, List.length_range] using known
    refine ⟨k, (classOf_eq_some_iff identity_tiles).mpr ⟨.single k, ?_, SymbolRange.low_mem _⟩⟩
    exact mem_intervals_identity.mpr ⟨Nat.le_of_lt_succ small, rfl⟩

theorem lt_of_classOf {c k : Nat} (found : p.classOf c = some k) : k < p.classSets.length := by
  obtain ⟨set, there, _⟩ := (made.members c k).mp found
  exact (List.getElem?_eq_some_iff.mp there).1

theorem exists_class {c : Nat} (inside : c ≤ p.alphabet.maxSymbol) :
    ∃ k, p.classOf c = some k := by
  rw [← Option.isSome_iff_exists, ← Option.not_isNone, Bool.not_eq_true', ← Bool.not_eq_true,
    Option.isNone_iff_eq_none, classOf_eq_none_iff made.tiles]
  exact Nat.not_lt_of_le inside

theorem le_maxSymbol {c k : Nat} (found : p.classOf c = some k) : c ≤ p.alphabet.maxSymbol := by
  by_contra above
  rw [(classOf_eq_none_iff made.tiles).mpr (Nat.lt_of_not_le above)] at found
  cases found

/-- The classes that are found are those that the set meets. -/
theorem mem_iff_meets (found : p.classesOf s = .ok classes) {k : Nat} :
    k ∈ classes ↔ ∃ c ∈ s, p.classOf c = some k := by
  rw [← label_eq found]
  exact mem_label_iff_meets made.tiles (exists_classesOf_iff.mp ⟨classes, found⟩)

end Made

/-- Together, the classes hold the symbols of the set that belong to the alphabet. -/
structure Makes (p : Partition) (classes : IndexSet) (s : SymbolSet) : Prop where
  known : ∀ k ∈ classes, k < p.classSets.length
  union : ∀ c, (∃ k ∈ classes, ∃ set, p.classSets[k]? = some set ∧ c ∈ set) ↔
    c ∈ s ∧ c ≤ p.alphabet.maxSymbol

namespace Makes

variable (made : p.Made)

include made

theorem iff_tells : p.Makes classes s ↔ (∀ k ∈ classes, k < p.classSets.length) ∧
    ∀ c k, p.classOf c = some k → (c ∈ s ↔ k ∈ classes) := by
  constructor
  · intro ⟨known, union⟩
    refine ⟨known, fun c k found => ?_⟩
    have holds := union c
    simp only [← made.members, found, Option.some_inj, exists_eq_right', made.le_maxSymbol found,
      and_true] at holds
    exact holds.symm
  · intro ⟨known, tells⟩
    refine ⟨known, fun c => ?_⟩
    simp only [← made.members]
    constructor
    · intro ⟨k, chosen, found⟩
      exact ⟨(tells c k found).mpr chosen, made.le_maxSymbol found⟩
    · intro ⟨member, inside⟩
      obtain ⟨k, found⟩ := made.exists_class inside
      exact ⟨k, (tells c k found).mp member, found⟩

/-- No two selections of classes make the same set. -/
theorem unique (first : p.Makes classes s) (second : p.Makes other s) : other = classes := by
  have within : ∀ {a b : IndexSet}, p.Makes a s → p.Makes b s → ∀ k ∈ a, k ∈ b := by
    intro a b left right k chosen
    obtain ⟨c, found⟩ := made.inhabited (left.known k chosen)
    have member := (((iff_tells made).mp left).2 c k found).mpr chosen
    exact (((iff_tells made).mp right).2 c k found).mp member
  exact IndexSet.ext fun k => ⟨within second first k, within first second k⟩

/-- The classes that were found make the set just if no class is in it by half. -/
theorem iff_alike (found : p.classesOf s = .ok classes) : p.Makes classes s ↔
    ∀ c c' k, p.classOf c = some k → p.classOf c' = some k → c ∈ s → c' ∈ s := by
  rw [iff_tells made]
  constructor
  · intro ⟨_, tells⟩ c c' k here there member
    exact (tells c' k there).mpr ((tells c k here).mp member)
  · intro alike
    refine ⟨fun k member => ?_, fun c k same => ?_⟩
    · obtain ⟨c, _, same⟩ := (made.mem_iff_meets found).mp member
      exact made.lt_of_classOf same
    · rw [made.mem_iff_meets found]
      exact ⟨fun member => ⟨c, member, same⟩, fun ⟨c', member, other⟩ =>
        alike c' c k other same member⟩

/-- The classes that were found make the set just if it is made of whole classes. -/
theorem iff_composed (found : p.classesOf s = .ok classes) :
    p.Makes classes s ↔ p.Composed (s.restrict p.alphabet) := by
  rw [iff_alike made found]
  constructor
  · intro alike
    refine ⟨fun k => ∃ c ∈ s, p.classOf c = some k, fun c => ?_⟩
    rw [SymbolSet.mem_restrict]
    constructor
    · intro ⟨member, inside⟩
      obtain ⟨k, same⟩ := made.exists_class inside
      exact ⟨k, same, c, member, same⟩
    · intro ⟨k, same, c', member, other⟩
      exact ⟨alike c' c k other same member, made.le_maxSymbol same⟩
  · intro ⟨chosen, composed⟩
    have belongs : ∀ {c k}, p.classOf c = some k → (c ∈ s ↔ chosen k) := by
      intro c k same
      have holds := composed c
      rw [SymbolSet.mem_restrict, same] at holds
      simpa [made.le_maxSymbol same] using holds
    intro c c' k here there member
    exact (belongs there).mpr ((belongs here).mp member)

end Makes

/-- The classes of a set are found, and no others make it. -/
def Decomposes (p : Partition) (s : SymbolSet) : Prop :=
  ∃ classes, p.classesOf s = .ok classes ∧ p.Makes classes s ∧
    ∀ other, p.Makes other s → other = classes

/-- A set for which the partition sorts the symbols has just the classes that are found. -/
theorem Sorts.decomposes {sets : List SymbolSet} (sorts : p.Sorts sets) (made : p.Made)
    (listed : s ∈ sets) (found : ∃ classes, p.classesOf s = .ok classes) : p.Decomposes s := by
  obtain ⟨classes, found⟩ := found
  have makes : p.Makes classes s := by
    rw [Makes.iff_tells made, ← label_eq found]
    exact ⟨fun k => sorts.label_small listed, fun c k => sorts.tells listed⟩
  exact ⟨classes, found, makes, fun other second => makes.unique made second⟩

section

variable {alphabet : Alphabet} {sets : List SymbolSet} {usesLineStart usesLineEnd : Bool}

theorem exists_classesOf_ofSets (listed : s ∈ sets) :
    ∃ classes, (ofSets alphabet sets usesLineStart usesLineEnd).classesOf s = .ok classes := by
  rw [exists_classesOf_iff]
  rintro range part ⟨r, k⟩ member
  exact spares_of_mem listed part (mem_intervals_ofSets.mp member).1

theorem exists_classesOf_identity (s : SymbolSet) :
    ∃ classes, (identity alphabet usesLineStart usesLineEnd).classesOf s = .ok classes := by
  rw [exists_classesOf_iff]
  rintro range part ⟨r, k⟩ member
  rw [(mem_intervals_identity.mp member).2]
  show k < range.low ∨ range.high < k ∨ range.low ≤ k ∧ k ≤ range.high
  omega

end

/-- The classes of all literals and classes of a specification are found. -/
theorem exists_classesOf_ofSpec (spec : Spec) (config : Config) :
    ∀ s ∈ spec.patterns.flatMap (Pattern.symbolSets config.charset),
      ∃ classes, (ofSpec spec config).classesOf s = .ok classes := by
  intro s listed
  unfold ofSpec
  split
  next =>
    by_cases nothing : s.isEmpty = true
    · rw [exists_classesOf_iff]
      intro range part
      rw [List.isEmpty_iff.mp nothing] at part
      cases part
    · apply exists_classesOf_ofSets
      rw [setsOf, mem_distinct, List.mem_filter]
      exact ⟨listed, by simp [nothing]⟩
  next => exact exists_classesOf_identity s

/-- The classes of a set that is made of whole classes are found. -/
theorem Made.exists_classesOf (made : p.Made) (composed : p.Composed (s.restrict p.alphabet)) :
    ∃ classes, p.classesOf s = .ok classes := by
  rw [exists_classesOf_iff]
  intro range part interval member
  have below := made.tiles.high_lt.2 interval.1 (List.mem_map_of_mem member)
  have within : interval.1.high ≤ p.alphabet.maxSymbol := Nat.le_of_lt_succ below
  refine SymbolSet.spares_of_restrict within (fun part known => ?_) range part
  exact composed.spares made.tiles part known interval member

namespace Made

variable (made : p.Made)

include made

/-- No interval cuts another one. -/
theorem spares_of_mem_intervals {a b : SymbolRange × Nat} (first : a ∈ p.intervals)
    (second : b ∈ p.intervals) : a.1.Spares b.1 := by
  have ordered := List.pairwise_map.mp made.tiles.ascending
  unfold SymbolRange.Spares
  rcases related_of_mem ordered first second with rfl | before | behind
  · omega
  · omega
  · omega

/-- Of a class with two intervals, one alone would be misreported. -/
theorem nodup_of_makes
    (right : ∀ s classes, p.classesOf s = .ok classes → p.Makes classes s) :
    (p.intervals.map Prod.snd).Nodup := by
  have ordered := List.pairwise_map.mp made.tiles.ascending
  refine List.pairwise_map.mpr (ordered.imp_of_mem ?_)
  rintro ⟨r, k⟩ ⟨r', k'⟩ first second before same
  cases same
  have spared : ∀ range ∈ (SymbolSet.ofRange r).ranges, ∀ interval ∈ p.intervals,
      range.Spares interval.1 := by
    intro range part interval member
    rw [List.mem_singleton.mp part]
    exact made.spares_of_mem_intervals first member
  obtain ⟨classes, found⟩ := exists_classesOf_iff.mpr spared
  have alike := (Makes.iff_alike made found).mp (right _ _ found)
  have here : p.classOf r.low = some k :=
    (classOf_eq_some_iff made.tiles).mpr ⟨r, first, r.low_mem⟩
  have there : p.classOf r'.low = some k :=
    (classOf_eq_some_iff made.tiles).mpr ⟨r', second, r'.low_mem⟩
  have both := alike r.low r'.low k here there (SymbolSet.mem_ofRange.mpr r.low_mem)
  have apart : r.high < r'.low := before
  rw [SymbolSet.mem_ofRange, SymbolRange.mem_def] at both
  omega

theorem makes_of_nodup (once : (p.intervals.map Prod.snd).Nodup)
    (found : p.classesOf s = .ok classes) : p.Makes classes s := by
  have spared := exists_classesOf_iff.mp ⟨classes, found⟩
  refine (Makes.iff_alike made found).mpr fun c c' k here there ⟨range, part, held⟩ => ?_
  obtain ⟨r, member, inside⟩ := classOf_mem here
  obtain ⟨r', member', inside'⟩ := classOf_mem there
  have only := List.inj_on_of_nodup_map once member member' rfl
  cases only
  exact ⟨range, part, ((spared range part (r, k) member).mem_iff inside inside').mp held⟩

/-- Every lookup that succeeds is right just if no class has two intervals. -/
theorem forall_makes_iff :
    (∀ s classes, p.classesOf s = .ok classes → p.Makes classes s) ↔
      (p.intervals.map Prod.snd).Nodup :=
  ⟨made.nodup_of_makes, fun once _ _ => made.makes_of_nodup once⟩

end Made

/-- The lookup fails exactly if the set cuts an interval, and names one that it cuts. Otherwise it finds
the classes that the set meets; they make the set just if it is made of whole classes, and such a set
never fails. A partition where each class is one interval reports every other set. -/
theorem classesOf_exact (alphabet : Alphabet) (sets : List SymbolSet)
    (usesLineStart usesLineEnd : Bool) :
    let p := ofSets alphabet sets usesLineStart usesLineEnd
    (∀ s, (∃ classes, p.classesOf s = .ok classes) ↔
      ∀ range ∈ s.ranges, ∀ interval ∈ p.intervals, range.Spares interval.1) ∧
    (∀ s split, p.classesOf s = .error split → split.range ∈ s.ranges ∧
      (split.interval, split.classId) ∈ p.intervals ∧ ¬split.range.Spares split.interval) ∧
    (∀ s classes, p.classesOf s = .ok classes →
      (∀ k, k ∈ classes ↔ ∃ c ∈ s, p.classOf c = some k) ∧
      (p.Makes classes s ↔ p.Composed (s.restrict alphabet))) ∧
    (∀ s, p.Composed (s.restrict alphabet) → ∃ classes, p.classesOf s = .ok classes) ∧
    ((∀ s classes, p.classesOf s = .ok classes → p.Makes classes s) ↔
      (p.intervals.map Prod.snd).Nodup) := by
  have made := Made.ofSets alphabet sets usesLineStart usesLineEnd
  refine ⟨fun s => exists_classesOf_iff, fun s split => split_of_classesOf, ?_, ?_,
    made.forall_makes_iff⟩
  · intro s classes found
    exact ⟨fun k => made.mem_iff_meets found, Makes.iff_composed made found⟩
  · exact fun s composed => made.exists_classesOf composed

def smallLetters : SymbolSet := .ofRange ⟨'a'.toNat, 'z'.toNat, by decide⟩

/-- All symbols in front of the small letters. Those behind them belong to the same class. -/
def frontSymbols : SymbolSet := .ofRange ⟨0, 0x60, by decide⟩

theorem not_makes_frontSymbols :
    ¬(ofSets .byte [smallLetters] false false).Makes (.ofList [0]) frontSymbols := by
  intro makes
  have made := Made.ofSets .byte [smallLetters] false false
  have behind : (ofSets .byte [smallLetters] false false).classOf 0x7B = some 0 := by decide
  have member := (((Makes.iff_tells made).mp makes).2 0x7B 0 behind).mpr (by decide)
  exact absurd (SymbolSet.contains_iff.mpr member) (by decide)

theorem frontSymbols_meets :
    let p := ofSets .byte [smallLetters] false false
    p.classesOf frontSymbols = .ok (.ofList [0]) ∧
      (∀ k, k ∈ IndexSet.ofList [0] ↔ ∃ c ∈ frontSymbols, p.classOf c = some k) ∧
      ¬p.Composed (frontSymbols.restrict .byte) := by
  have found : (ofSets .byte [smallLetters] false false).classesOf frontSymbols =
    .ok (.ofList [0]) := by decide
  obtain ⟨_, _, exact_of_found, _⟩ := classesOf_exact .byte [smallLetters] false false
  obtain ⟨meets, makes⟩ := exact_of_found _ _ found
  exact ⟨found, meets, fun composed => not_makes_frontSymbols (makes.mpr composed)⟩

/-- The symbols in front of the letters are taken for the whole class, and no failure tells. -/
theorem frontSymbols_misreported :
    (ofSets .byte [smallLetters] false false).classesOf frontSymbols = .ok (.ofList [0]) ∧
      ¬(ofSets .byte [smallLetters] false false).Makes (.ofList [0]) frontSymbols :=
  ⟨by decide, not_makes_frontSymbols⟩

end Partition

end Scangen
