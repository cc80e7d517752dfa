import Scangen.Proofs.Table.Read

/-!
The arithmetic of reading tables stays in range, whatever the bytes, but for the number of shared
columns: the greatest word is a column number that cannot be counted in 32 bits.
-/

namespace Scangen

open Tables (Refusal)

/-! The look at the number of bytes that are left finds nothing that reading would not find. -/

namespace Decoder

/-- Where there are too few bytes, reading words comes to the end of them. -/
theorem repeated_word_short {count : Nat} {items : Array Nat} {bytes : List UInt8}
    (short : bytes.length < 4 * count) : repeated word count items bytes = .error .truncated := by
  induction count generalizing items bytes with
  | zero => exact absurd short (Nat.not_lt_zero _)
  | succ count ih =>
    rw [repeated_succ, bind_apply]
    cases read : word bytes with
    | error e =>
      rw [word_error read]
    | ok found =>
      have taken := word_length read
      exact ih (by omega)

theorem vector_eq_guarded : vector = guardedVector := by
  funext bytes
  rw [vector, guardedVector, bind_apply, bind_apply]
  cases word bytes with
  | error e => rfl
  | ok found =>
    dsimp only
    split
    next short => exact repeated_word_short (by omega)
    next => rfl

end Decoder

namespace Tables

variable {t : Tables} {bytes : List UInt8}

theorem refusal_of_validate {e : TableError} (failed : t.validate = .error e) : Refusal e := by
  have known : ∀ place ∈ places, Refusal (.invalid place) := fun place listed =>
    Or.inr (Or.inr ⟨place, listed, rfl⟩)
  unfold validate at failed
  repeat' split at failed
  all_goals cases failed
  all_goals exact known _ (by decide)

/-- Reading tables fails with one of the known errors or not at all. -/
theorem refusal_of_decode {e : TableError} (failed : decode bytes = .error e) : Refusal e := by
  have parts := parts_gives bytes (Nat.le_refl bytes.length)
  unfold decode at failed
  split at failed
  next e' failed' =>
    rw [failed'] at parts
    cases failed
    exact parts
  next t rest read =>
    cases checked : t.validate with
    | ok =>
      rw [checked] at failed
      cases failed
    | error e' =>
      rw [checked] at failed
      cases failed
      exact refusal_of_validate checked

theorem validate_of_checksTransitions (reached : t.checksTransitions = true) :
    t.validate = if t.transitionsValid then .ok () else .error (.invalid "transition table") := by
  simp only [checksTransitions, checksClassMap, Bool.and_eq_true, decide_eq_true_eq] at reached
  obtain ⟨⟨⟨accept, starts, conditions⟩, lineStart, lineEnd⟩, classMap⟩ := reached
  rw [validate, if_neg (not_not_intro accept), starts, if_neg (by simp [conditions]), lineStart,
    lineEnd, if_neg (by decide), classMap, if_neg (by decide)]
  cases t.transitionsValid <;> rfl

theorem guard_eq_iff {fails : Prop} [Decidable fails] {e : TableError}
    {rest outcome : Except TableError Unit} (other : outcome ≠ .error e) :
    (if fails then .error e else rest) = outcome ↔ ¬fails ∧ rest = outcome := by
  by_cases failed : fails
  · simp [failed, Ne.symm other]
  · simp [failed]

/-- Whatever comes out but an earlier error has been found behind the class map. -/
theorem checksTransitions_of_validate {outcome : Except TableError Unit}
    (checked : t.validate = outcome)
    (later : ∀ place ∈ ["accept table size", "start states", "anchor class", "class map"],
      outcome ≠ .error (.invalid place)) : t.checksTransitions = true := by
  rw [validate, guard_eq_iff (later _ (by simp)), guard_eq_iff (later _ (by simp)),
    guard_eq_iff (later _ (by simp)), guard_eq_iff (later _ (by simp))] at checked
  obtain ⟨accept, starts, anchors, classMap, -⟩ := checked
  simp only [Bool.or_eq_true, Bool.not_eq_true', not_or, Bool.not_eq_false, ne_eq,
    Classical.not_not, decide_eq_true_eq] at accept starts anchors classMap
  simp only [checksTransitions, checksClassMap, Bool.and_eq_true, decide_eq_true_eq]
  exact ⟨⟨⟨accept, starts⟩, anchors⟩, classMap⟩

/-- The check has got as far as the transitions if it fails there or passes. -/
theorem checksTransitions_iff : t.checksTransitions = true ↔
    t.validate = .ok () ∨ t.validate = .error (.invalid "transition table") := by
  constructor
  · intro reached
    rw [validate_of_checksTransitions reached]
    cases t.transitionsValid
    · exact Or.inr rfl
    · exact Or.inl rfl
  · rintro (passed | failed)
    · exact checksTransitions_of_validate passed (by simp)
    · exact checksTransitions_of_validate failed (by decide)

/-! The results of sums and products. -/

theorem computedEnds_inRange {size : Nat} {index : List Nat} (fit : FitWords index) :
    ∀ c ∈ ClassMap.computedEnds size index, c.InRange := by
  induction index with
  | nil => exact List.forall_mem_nil _
  | cons page rest ih =>
    obtain ⟨small, later⟩ := fitWords_cons.mp fit
    rw [ClassMap.computedEnds, List.forall_mem_cons, List.forall_mem_cons]
    refine ⟨?_, ?_, ?_⟩
    · show page + 1 < 2 ^ 64
      omega
    · show (page + 1) * 256 < 2 ^ 64
      omega
    · split
      · exact ih later
      · exact List.forall_mem_nil _

theorem classMap_inRange {map : ClassMap} (fit : FitWords map.numbers) :
    ∀ c ∈ map.computed, c.InRange := by
  cases map with
  | dense classes => exact List.forall_mem_nil _
  | paged index pages =>
    rw [ClassMap.computed]
    split
    · exact computedEnds_inRange (fitWords_append.mp fit).1
    · exact List.forall_mem_nil _

/-- Of words, the greatest one is the only one that is not below another word. -/
theorem missing_mem_iff {columns : List Nat} {greatest : Nat} (fit : FitWords columns)
    (found : columns.max? = some greatest) :
    Bytes.missing ∈ columns ↔ 0x100000000 ≤ greatest + 1 := by
  obtain ⟨listed, above⟩ := List.max?_eq_some_iff.mp found
  have small := fit greatest listed
  have word : Bytes.missing = 0xFFFFFFFF := rfl
  constructor
  · intro member
    have below := above _ member
    omega
  · intro large
    have same : greatest = Bytes.missing := by omega
    rwa [← same]

theorem transitions_inRange_iff {transitions : Transitions} {numStates numClasses : Nat}
    (states : numStates < 0x100000000) (classes : numClasses < 0x100000000)
    (fit : FitWords transitions.numbers) :
    (∀ c ∈ transitions.computed numStates numClasses, c.InRange) ↔ ¬transitions.Overflows := by
  cases transitions with
  | dense successors =>
    have product : numStates * numClasses < 2 ^ 64 :=
      calc numStates * numClasses
          < 0x100000000 * 0x100000000 := Nat.mul_lt_mul'' states classes
        _ = 2 ^ 64 := by decide
    exact iff_of_true (List.forall_mem_singleton.mpr product) id
  | rows stored => exact iff_of_true (List.forall_mem_nil _) id
  | squeezed columns stored =>
    rw [Transitions.computed, Transitions.Overflows, Array.mem_def]
    cases found : columns.toList.max? with
    | none =>
      have nothing := List.max?_eq_none_iff.mp found
      simp [nothing]
    | some greatest =>
      rw [missing_mem_iff (fitWords_append.mp fit).1 found, Nat.not_le]
      simp [Computed.InRange]

/-- The shared columns are counted right if their numbers can be counted on. -/
theorem columnCount_exact_iff {columns : Array Nat} (fit : FitWords columns.toList) :
    (∀ n, n < columnCount columns ↔ ∃ column ∈ columns, n ≤ column) ↔
      Bytes.missing ∉ columns := by
  simp only [Array.mem_def]
  cases found : columns.toList.max? with
  | none =>
    have nothing := List.max?_eq_none_iff.mp found
    simp [columnCount, nothing]
  | some greatest =>
    obtain ⟨listed, above⟩ := List.max?_eq_some_iff.mp found
    have count : columnCount columns = (greatest + 1) % 0x100000000 := by rw [columnCount, found]
    rw [missing_mem_iff fit found, Nat.not_le, count]
    constructor
    · intro right
      -- The greatest number itself is counted.
      have counted := (right greatest).mpr ⟨greatest, listed, Nat.le_refl greatest⟩
      have small := Nat.mod_lt (greatest + 1) (by decide : 0 < 0x100000000)
      have fits := fit greatest listed
      omega
    · intro small n
      rw [Nat.mod_eq_of_lt small, Nat.lt_succ_iff]
      constructor
      · exact fun below => ⟨greatest, listed, below⟩
      · rintro ⟨column, member, below⟩
        exact Nat.le_trans below (above column member)

/-! What a byte string leads to. -/

theorem decode_eq_validate {rest : List UInt8} (read : decodeParts bytes = .ok (t, rest)) :
    decode bytes = t.validate.map fun _ => t := by
  rw [decode, read]

theorem reaches_iff {rest : List UInt8} (read : decodeParts bytes = .ok (t, rest)) :
    t.checksTransitions = true ↔
      decode bytes = .ok t ∨ decode bytes = .error (.invalid "transition table") := by
  rw [checksTransitions_iff, decode_eq_validate read]
  cases t.validate with
  | ok => simp [Except.map]
  | error e => simp [Except.map]

theorem computed_inRange_iff (fit : FitWords t.numbers) : (∀ c ∈ t.computed, c.InRange) ↔
    (t.checksTransitions = true → ¬t.transitions.Overflows) := by
  simp only [numbers, fitWords_append, fitWords_cons] at fit
  obtain ⟨⟨⟨⟨⟨⟨⟨⟨states, classes, _⟩, _⟩, _⟩, _⟩, _⟩, _⟩, classMap⟩, transitions⟩ := fit
  have first : ∀ c ∈ (if t.checksClassMap then t.classMap.computed else []), c.InRange := by
    split
    · exact classMap_inRange classMap
    · exact List.forall_mem_nil _
  rw [computed, List.forall_mem_append, and_iff_right first]
  by_cases reached : t.checksTransitions = true
  · rw [if_pos reached, transitions_inRange_iff states classes transitions]
    exact (imp_iff_right reached).symm
  · rw [if_neg reached]
    exact iff_of_true (List.forall_mem_nil _) fun reached' => absurd reached' reached

/-- All sums and products on the way from bytes to tables stay in range, but for the number of columns
if the check gets there and a column has the greatest word for its number. -/
theorem computedOf_inRange_iff (bytes : List UInt8) :
    (∀ c ∈ computedOf bytes, c.InRange) ↔ ∀ t rest, decodeParts bytes = .ok (t, rest) →
      (decode bytes = .ok t ∨ decode bytes = .error (.invalid "transition table")) →
        ¬t.transitions.Overflows := by
  have parts := parts_gives bytes (Nat.le_refl bytes.length)
  unfold computedOf
  split
  next e failed =>
    refine iff_of_true (List.forall_mem_nil _) fun t rest read => ?_
    rw [failed] at read
    cases read
  next t rest read =>
    rw [read] at parts
    rw [computed_inRange_iff parts.2.1, reaches_iff read]
    constructor
    · intro small t' rest' read'
      cases read.symm.trans read'
      exact small
    · exact fun small => small t rest read

/-- Whatever the bytes, reading tables ends with tables or with one of the known errors. Each number is
a word, no list is longer than there are bytes, so the look at the bytes that are left changes nothing
but saves room. All sums and products stay in range exactly if no column has the greatest word for its
number where the check counts columns, and this is when the columns are counted right. -/
theorem decode_arithmetic (bytes : List UInt8) :
    ((∃ t, decode bytes = .ok t) ∨ ∃ e, decode bytes = .error e ∧ Refusal e) ∧
    Decoder.vector = Decoder.guardedVector ∧
    (∀ t rest, decodeParts bytes = .ok (t, rest) →
      FitWords t.numbers ∧ Counted bytes.length t.lengths) ∧
    ((∀ c ∈ computedOf bytes, c.InRange) ↔ ∀ t rest, decodeParts bytes = .ok (t, rest) →
      (decode bytes = .ok t ∨ decode bytes = .error (.invalid "transition table")) →
        ¬t.transitions.Overflows) ∧
    ∀ t rest columns stored, decodeParts bytes = .ok (t, rest) →
      t.transitions = .squeezed columns stored →
        ((∀ n, n < columnCount columns ↔ ∃ column ∈ columns, n ≤ column) ↔
          ¬t.transitions.Overflows) := by
  have known : ∀ t rest, decodeParts bytes = .ok (t, rest) →
      FitWords t.numbers ∧ Counted bytes.length t.lengths := by
    intro t rest read
    have parts := parts_gives bytes (Nat.le_refl bytes.length)
    rw [read] at parts
    exact parts.2
  refine ⟨?_, Decoder.vector_eq_guarded, known, computedOf_inRange_iff bytes, ?_⟩
  · cases outcome : decode bytes with
    | ok t => exact Or.inl ⟨t, rfl⟩
    | error e => exact Or.inr ⟨e, rfl, refusal_of_decode outcome⟩
  · intro t rest columns stored read encoding
    have fit := (known t rest read).1
    rw [numbers, fitWords_append, encoding] at fit
    rw [encoding, Transitions.Overflows]
    exact columnCount_exact_iff (fitWords_append.mp fit.2).1

/-- The shared columns are counted. -/
theorem sharedColumns_arithmetic :
    decodeParts sharedColumns.encode = .ok (sharedColumns, []) ∧
      decode sharedColumns.encode = .ok sharedColumns ∧
      computedOf sharedColumns.encode = [⟨32, 2⟩] ∧
      ∀ c ∈ computedOf sharedColumns.encode, c.InRange := by
  have parts : decodeParts sharedColumns.encode = .ok (sharedColumns, []) := by decide +kernel
  refine ⟨parts, decode_sharedColumns, by decide +kernel, ?_⟩
  refine (decode_arithmetic sharedColumns.encode).2.2.2.1.mpr fun t rest read _ => ?_
  cases parts.symm.trans read
  show Bytes.missing ∉ #[0, 1, 1]
  decide +kernel

/-- One state with one class, whose column has the greatest word for its number. It is the only column,
and the row leads from it back to the state. -/
def greatestColumn : Tables where
  alphabet := .byte
  numStates := 1
  numClasses := 1
  classMap := .dense #[0]
  transitions := .squeezed #[Bytes.missing] #[⟨none, #[(Bytes.missing, some 0)]⟩]
  accept := #[none]
  starts := #[0]
  endActions := #[none]
  lineStart := none
  lineEnd := none

/-- Counted in 32 bits, there are no columns, so the table is taken for a malformed one. -/
theorem greatestColumn_overflows :
    decodeParts greatestColumn.encode = .ok (greatestColumn, []) ∧
      computedOf greatestColumn.encode = [⟨32, 0x100000000⟩] ∧
      ¬(∀ c ∈ computedOf greatestColumn.encode, c.InRange) ∧
      columnCount #[Bytes.missing] = 0 ∧ greatestColumn.next 0 0 = some 0 ∧
      decode greatestColumn.encode = .error (.invalid "transition table") := by
  decide +kernel

end Tables

end Scangen
