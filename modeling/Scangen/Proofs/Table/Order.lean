import Scangen.Proofs.Table.Codec
import Scangen.Proofs.Table.Read
import Scangen.Proofs.Table.Rows

/-!
The order of the exceptions of rows. Only in ascending order each of them is found, and the check of
tables that were read lets every order pass.
-/

namespace Scangen

namespace Row

variable {entries : Array (Nat × Option Nat)} {row row' : Row} {classId : Nat}

instance : Decidable (Ascending entries) :=
  inferInstanceAs (Decidable (entries.toList.Pairwise fun a b => a.1 < b.1))

/-- The search for the class of an entry ends at this entry. -/
def Located (entries : Array (Nat × Option Nat)) : Prop :=
  ∀ j entry, entries[j]? = some entry → locate entries entry.1 entries.size 0 entries.size = j

/-- One step of the search, with the entry in the middle. -/
theorem locate_step {fuel base size : Nat} {middle : Nat × Option Nat} (more : 1 < size)
    (found : entries[base + size / 2]? = some middle) :
    locate entries classId (fuel + 1) base size = locate entries classId fuel
      (if classId < middle.1 then base else base + size / 2) (size - size / 2) := by
  rw [locate, if_neg (Nat.not_le_of_lt more)]
  dsimp only
  rw [found]
  dsimp only
  by_cases above : classId < middle.1
  · rw [if_pos (decide_eq_true above), if_pos above]
  · rw [if_neg (by simpa using above), if_neg above]

/-- The search does not leave the entries in question. -/
theorem locate_between (fuel base size : Nat) (nonempty : 0 < size)
    (room : base + size ≤ entries.size) :
    base ≤ locate entries classId fuel base size ∧
      locate entries classId fuel base size < base + size := by
  induction fuel generalizing base size with
  | zero => exact ⟨Nat.le_refl _, Nat.lt_add_of_pos_right nonempty⟩
  | succ fuel ih =>
    by_cases more : 1 < size
    · obtain ⟨middle, found⟩ : ∃ middle, entries[base + size / 2]? = some middle :=
        ⟨_, Array.getElem?_eq_getElem (by omega)⟩
      rw [locate_step more found]
      by_cases above : classId < middle.1
      · rw [if_pos above]
        have first := ih base (size - size / 2) (by omega) (by omega)
        omega
      · rw [if_neg above]
        have second := ih (base + size / 2) (size - size / 2) (by omega) (by omega)
        omega
    · rw [locate, if_pos (Nat.le_of_not_lt more)]
      exact ⟨Nat.le_refl _, Nat.lt_add_of_pos_right nonempty⟩

/-- The entries from `base` to `stop` are in order if the search ends at each of them. The halves
overlap in the middle, so the first one is left before it. -/
theorem lt_of_located (fuel base size stop : Nat) (enough : size ≤ fuel + 1)
    (room : base + size ≤ entries.size) (within : stop ≤ base + size)
    (located : ∀ i entry, base ≤ i → i < stop → entries[i]? = some entry →
      locate entries entry.1 fuel base size = i) :
    ∀ i j a b, base ≤ i → i < j → j < stop → entries[i]? = some a → entries[j]? = some b →
      a.1 < b.1 := by
  intro i j a b from_base before to_stop first second
  induction fuel generalizing base size stop with
  | zero => omega
  | succ fuel ih =>
    have more : 1 < size := by omega
    obtain ⟨middle, found⟩ : ∃ middle, entries[base + size / 2]? = some middle :=
      ⟨_, Array.getElem?_eq_getElem (by omega)⟩
    have left : ∀ k entry, base ≤ k → k < stop → k < base + size / 2 → entries[k]? = some entry →
        entry.1 < middle.1 ∧ locate entries entry.1 fuel base (size - size / 2) = k := by
      intro k entry least greatest early listed
      have ends := located k entry least greatest listed
      rw [locate_step more found] at ends
      by_cases above : entry.1 < middle.1
      · rw [if_pos above] at ends
        exact ⟨above, ends⟩
      · rw [if_neg above] at ends
        have between : base + size / 2 ≤ locate entries entry.1 fuel (base + size / 2) _ ∧ _ :=
          locate_between fuel (base + size / 2) (size - size / 2) (by omega) (by omega)
        omega
    have right : ∀ k entry, base + size / 2 ≤ k → k < stop → entries[k]? = some entry →
        middle.1 ≤ entry.1 ∧
          locate entries entry.1 fuel (base + size / 2) (size - size / 2) = k := by
      intro k entry late greatest listed
      have ends := located k entry (by omega) greatest listed
      rw [locate_step more found] at ends
      by_cases above : entry.1 < middle.1
      · rw [if_pos above] at ends
        have between : _ ∧ locate entries entry.1 fuel base (size - size / 2) < _ :=
          locate_between fuel base (size - size / 2) (by omega) (by omega)
        -- only the middle itself lies in both halves
        have here : base + size / 2 = k := by omega
        subst here
        rw [found] at listed
        cases listed
        omega
      · rw [if_neg above] at ends
        exact ⟨by omega, ends⟩
    by_cases late : base + size / 2 ≤ i
    · exact ih (base + size / 2) (size - size / 2) stop (by omega) (by omega) (by omega)
        (fun k entry least greatest listed => (right k entry least greatest listed).2) late to_stop
    · by_cases early : j < base + size / 2
      · exact ih base (size - size / 2) (min stop (base + size / 2)) (by omega) (by omega) (by omega)
          (fun k entry least greatest listed =>
            (left k entry least (by omega) (by omega) listed).2) from_base (by omega)
      · exact Nat.lt_of_lt_of_le (left i a from_base (by omega) (by omega) first).1
          (right j b (by omega) to_stop second).1

/-- The search finds the place of every entry exactly if their classes ascend. -/
theorem located_iff_ascending : Located entries ↔ Ascending entries := by
  constructor
  · intro located
    refine List.pairwise_iff_getElem.mpr fun i j i_lt j_lt before => ?_
    rw [Array.length_toList] at i_lt j_lt
    have whole : 0 + entries.size = entries.size := Nat.zero_add _
    exact lt_of_located entries.size 0 entries.size entries.size (Nat.le_succ _)
      (Nat.le_of_eq whole) (Nat.le_of_eq whole.symm)
      (fun k entry _ _ listed => located k entry listed) i j _ _ (Nat.zero_le i) before j_lt
      (Array.getElem?_eq_getElem i_lt) (Array.getElem?_eq_getElem j_lt)
  · exact fun ascending j entry listed => locate_eq ascending listed

/-- No class has two exceptions, and none of them has the usual successor. -/
structure Frugal (row : Row) : Prop where
  once : (row.exceptions.toList.map Prod.fst).Nodup
  unusual : ∀ entry ∈ row.exceptions, entry.2 ≠ row.usual

/-- Without exceptions that could be left out, ascending order is the only one in which all of them
are found. -/
theorem Frugal.found_iff (frugal : row.Frugal) :
    (∀ entry ∈ row.exceptions, row.lookup entry.1 = entry.2) ↔ Ascending row.exceptions := by
  constructor
  · intro found
    refine located_iff_ascending.mp fun j entry listed => ?_
    have there := found entry (Array.mem_of_getElem? listed)
    have different := frugal.unusual entry (Array.mem_of_getElem? listed)
    unfold lookup at there
    split at there
    next key next ends =>
      by_cases same : key = entry.1
      · have keys := frugal.once
        have first : (row.exceptions.toList.map Prod.fst)[locate row.exceptions entry.1
            row.exceptions.size 0 row.exceptions.size]? = some entry.1 := by
          rw [List.getElem?_map, Array.getElem?_toList, ends, ← same]
          rfl
        have second : (row.exceptions.toList.map Prod.fst)[j]? = some entry.1 := by
          rw [List.getElem?_map, Array.getElem?_toList, listed]
          rfl
        exact (List.getElem?_inj (List.getElem?_eq_some_iff.mp first).1 keys).mp
          (first.trans second.symm)
      · rw [if_neg same] at there
        exact absurd there.symm different
    next => exact absurd there.symm different
  · intro ascending entry member
    obtain ⟨j, listed⟩ := Array.mem_iff_getElem?.mp member
    exact lookup_of_listed ascending listed

theorem frugal_ofList (successors : List (Option Nat)) : (ofList successors).Frugal where
  once := by
    have ascending := exceptions_ascending successors
    exact List.Pairwise.imp Nat.ne_of_lt (List.pairwise_map.mpr ascending)
  unusual := fun _ member => (mem_exceptions.mp member).2

/-- The same exceptions, in whatever order. -/
structure Reorders (row row' : Row) : Prop where
  usual : row'.usual = row.usual
  exceptions : row'.exceptions.toList.Perm row.exceptions.toList

namespace Reorders

theorem mem_iff (reorders : Reorders row row') {entry : Nat × Option Nat} :
    entry ∈ row'.exceptions ↔ entry ∈ row.exceptions := by
  rw [Array.mem_def, Array.mem_def]
  exact reorders.exceptions.mem_iff

theorem valid (reorders : Reorders row row') {numStates width : Nat}
    (valid : row.Valid numStates width) : row'.Valid numStates width where
  usual := by
    rw [reorders.usual]
    exact valid.usual
  exceptions := fun entry member => valid.exceptions entry (reorders.mem_iff.mp member)

theorem fit (reorders : Reorders row row') (fit : FitWords row.numbers) :
    FitWords row'.numbers := by
  obtain ⟨usual, exceptions⟩ := fitWords_append.mp fit
  refine fitWords_append.mpr ⟨by rwa [reorders.usual], fitWords_flatMap.mpr fun entry member => ?_⟩
  exact fitWords_flatMap.mp exceptions entry (reorders.exceptions.mem_iff.mp member)

theorem wordCount (reorders : Reorders row row') : row'.wordCount = row.wordCount := by
  have size := reorders.exceptions.length_eq
  rw [Array.length_toList, Array.length_toList] at size
  rw [Row.wordCount, Row.wordCount, size]

end Reorders

end Row

namespace Transitions

variable {transitions : Transitions} {numStates numClasses s classId : Nat}

/-- The rows, if successors are stored in rows. -/
def stored : Transitions → Array Row
  | dense _ => #[]
  | rows stored => stored
  | squeezed _ stored => stored

/-- The place of a class in the rows. -/
def column : Transitions → Nat → Option Nat
  | dense _, _ => none
  | rows _, classId => some classId
  | squeezed columns _, classId => columns[classId]?

def mapRows (f : Row → Row) : Transitions → Transitions
  | dense successors => dense successors
  | rows stored => rows (stored.map f)
  | squeezed columns stored => squeezed columns (stored.map f)

theorem next_eq_lookup {row : Row} {c : Nat} (listed : transitions.stored[s]? = some row)
    (place : transitions.column classId = some c) :
    transitions.next numClasses s classId = row.lookup c := by
  cases transitions with
  | dense successors => cases place
  | rows stored =>
    cases place
    exact congrArg (Option.bind · _) listed
  | squeezed columns stored =>
    have listed : stored[s]? = some row := listed
    have place : columns[classId]? = some c := place
    rw [next, listed, Option.bind_some, place, Option.bind_some]

section Reorder

variable {reorder : Row → Row} (reorders : ∀ row : Row, row.Reorders (reorder row))
include reorders

theorem valid_mapRows (valid : transitions.Valid numStates numClasses) :
    (transitions.mapRows reorder).Valid numStates numClasses := by
  cases transitions with
  | dense successors => exact valid
  | rows stored =>
    refine ⟨by rw [Array.size_map, valid.1], fun row member => ?_⟩
    obtain ⟨old, listed, rfl⟩ := Array.mem_map.mp member
    exact (reorders old).valid (valid.2 old listed)
  | squeezed columns stored =>
    refine ⟨valid.1, by rw [Array.size_map, valid.2.1], fun row member => ?_⟩
    obtain ⟨old, listed, rfl⟩ := Array.mem_map.mp member
    exact (reorders old).valid (valid.2.2 old listed)

theorem fit_map {stored : Array Row} (fit : FitWords (stored.toList.flatMap Row.numbers)) :
    FitWords ((stored.map reorder).toList.flatMap Row.numbers) := by
  refine fitWords_flatMap.mpr fun row member => ?_
  obtain ⟨old, listed, rfl⟩ := Array.mem_map.mp (Array.mem_def.mpr member)
  exact (reorders old).fit (fitWords_flatMap.mp fit old (Array.mem_def.mp listed))

theorem fit_mapRows (fit : FitWords transitions.numbers) :
    FitWords (transitions.mapRows reorder).numbers := by
  cases transitions with
  | dense successors => exact fit
  | rows stored => exact fit_map reorders fit
  | squeezed columns stored =>
    obtain ⟨first, second⟩ := fitWords_append.mp fit
    exact fitWords_append.mpr ⟨first, fit_map reorders second⟩

theorem lengths_mapRows : (transitions.mapRows reorder).lengths = transitions.lengths := by
  have counts : ∀ stored : Array Row,
      (stored.map reorder).toList.map Row.wordCount = stored.toList.map Row.wordCount := by
    intro stored
    rw [Array.toList_map, List.map_map]
    exact List.map_congr_left fun row _ => (reorders row).wordCount
  cases transitions with
  | dense successors => rfl
  | rows stored => rw [mapRows, lengths, lengths, Array.size_map, counts]
  | squeezed columns stored => rw [mapRows, lengths, lengths, Array.size_map, counts]

end Reorder

/-- Every row that was made from the successors of a state has its exceptions in order. -/
theorem stored_ofRows (rows : List (List (Option Nat))) (numClasses : Nat)
    (compression : Compression) :
    ∀ row ∈ (ofRows rows numClasses compression).stored,
      Row.Ascending row.exceptions ∧ row.Frugal := by
  intro row member
  cases compression with
  | dense => exact absurd member (Array.not_mem_empty row)
  | rows =>
    obtain ⟨successors, _, rfl⟩ := List.mem_map.mp (List.mem_toArray.mp member)
    exact ⟨Row.exceptions_ascending successors, Row.frugal_ofList successors⟩
  | squeezed =>
    obtain ⟨s, _, rfl⟩ := List.mem_map.mp (List.mem_toArray.mp member)
    exact ⟨Row.exceptions_ascending _, Row.frugal_ofList _⟩

end Transitions

namespace Tables

variable {t : Tables} {bytes : List UInt8}

def mapRows (f : Row → Row) (t : Tables) : Tables :=
  { t with transitions := t.transitions.mapRows f }

/-- The number for a missing rule is never read as that of a rule. -/
theorem endActions_decodeParts {rest : List UInt8} (read : decodeParts bytes = .ok (t, rest)) :
    ∀ action ∈ t.endActions, action ≠ some Bytes.missing := by
  unfold decodeParts at read
  iterate 7 obtain ⟨_, _, _, read⟩ := Decoder.bind_eq_ok read
  obtain ⟨words, _, _, read⟩ := Decoder.bind_eq_ok read
  iterate 4 obtain ⟨_, _, _, read⟩ := Decoder.bind_eq_ok read
  cases read
  intro action member same
  obtain ⟨n, _, absent⟩ := Array.mem_map.mp member
  rw [same] at absent
  unfold Decoder.absent at absent
  split at absent
  next => cases absent
  next used =>
    cases absent
    exact used rfl

/-- Tables that were read can be written and read again, with the exceptions in any order. -/
theorem decode_mapRows (decoded : decode bytes = .ok t) {reorder : Row → Row}
    (reorders : ∀ row : Row, row.Reorders (reorder row)) :
    decode (t.mapRows reorder).encode = .ok (t.mapRows reorder) := by
  have valid := decode_valid decoded
  obtain ⟨_, rest, read⟩ := decode_parts decoded
  have parts := parts_gives bytes (Nat.le_refl bytes.length)
  rw [read] at parts
  obtain ⟨_, fit, counted⟩ := parts
  have few : FitWords t.lengths := fun n member => (counted n member).1
  apply decode_encode
  · exact validate_iff.mpr { valid with
      transitions := Transitions.valid_mapRows reorders valid.transitions }
  · show ∀ action ∈ t.endActions, action ≠ some Bytes.missing
    exact endActions_decodeParts read
  · obtain ⟨others, transitions⟩ := fitWords_append.mp fit
    exact fitWords_append.mpr ⟨others, Transitions.fit_mapRows reorders transitions⟩
  · unfold lengths mapRows
    rw [Transitions.lengths_mapRows reorders]
    exact few

end Tables

end Scangen
