import Scangen.Proofs.Table.Checks
import Scangen.Proofs.Table.Words

/-!
Valid tables are read back from their bytes as they were, part by part and then as a whole.
-/

namespace Scangen

/-- What is less than a word is not the greatest word. -/
theorem Below.ne_missing {value : Option Nat} {bound : Nat} (below : Below bound value)
    (fits : bound < 0x100000000) : value ≠ some Bytes.missing := by
  intro same
  have small := below Bytes.missing same
  have greatest : Bytes.missing = 0xFFFFFFFF := rfl
  omega

namespace Tables

open Decoder

/-- A byte that tells the kind, and what is read for this kind. -/
theorem reads_kind {α : Type} {f : UInt8 → Decoder α} {bytes : List UInt8} {value : α} (kind : UInt8)
    (rest : Reads (f kind) bytes value) : Reads (byte >>= f) (kind :: bytes) value :=
  (reads_byte kind).bind rest

theorem reads_magic : Reads decodeMagic magic () := by
  constructor
  · intro rest
    have enough : ¬(magic ++ rest).length < magic.length := by
      rw [List.length_append]
      omega
    rw [decodeMagic, if_neg enough, if_pos List.take_left, List.drop_left]
  · intro front inside short
    refine if_pos (Nat.lt_of_le_of_ne inside.length_le fun count => ?_)
    exact short (inside.eq_of_length count)

theorem reads_alphabet (alphabet : Alphabet) :
    Reads decodeAlphabet [alphabetByte alphabet] alphabet := by
  cases alphabet with
  | byte => exact reads_kind 0 (Reads.pure _)
  | unicode => exact reads_kind 1 (Reads.pure _)

/-- Three numbers in a row. -/
theorem reads_three {α : Type} {f : Nat → Nat → Nat → Decoder α} {value : α} {a b c : Nat}
    (fit : FitWords [a, b, c]) (last : Reads (f a b c) [] value) :
    Reads (word >>= fun a => word >>= fun b => word >>= fun c => f a b c)
      (Bytes.word a ++ (Bytes.word b ++ Bytes.word c)) value := by
  rw [fitWords_cons, fitWords_cons, fitWords_cons] at fit
  obtain ⟨a_fits, b_fits, c_fits, _⟩ := fit
  rw [← List.append_nil (Bytes.word c)]
  exact (reads_word a_fits).bind ((reads_word b_fits).bind ((reads_word c_fits).bind last))

theorem reads_tag {tag : Option Tag} (fit : FitWords (tagNumbers tag)) :
    Reads decodeTag (encodeTag tag) tag := by
  cases tag with
  | none => exact reads_kind 0 (Reads.pure none)
  | some tag =>
    obtain ⟨rule, priority, trailing⟩ := tag
    cases trailing with
    | whole => exact reads_kind 1 (reads_three fit (Reads.pure _))
    | head n => exact reads_kind 2 (reads_three fit (Reads.pure _))
    | tail n => exact reads_kind 3 (reads_three fit (Reads.pure _))

theorem reads_array {words : Array Nat} (few : words.size < 0x100000000)
    (fit : FitWords words.toList) : Reads vector (Bytes.vector words.toList) words := by
  have read := reads_vector few fit
  rwa [Array.toArray_toList] at read

theorem reads_classMap {map : ClassMap} (fit : FitWords map.numbers) (few : FitWords map.lengths) :
    Reads decodeClassMap (encodeClassMap map) map := by
  cases map with
  | dense classes =>
    exact reads_kind 0 ((reads_array (fitWords_cons.mp few).1 fit).map (g := ClassMap.dense))
  | paged index pages =>
    obtain ⟨index_fits, pages_fits⟩ := fitWords_append.mp fit
    rw [ClassMap.lengths, fitWords_cons, fitWords_cons] at few
    exact reads_kind 1 ((reads_array few.1 index_fits).bind
      ((reads_array few.2.1 pages_fits).map (g := ClassMap.paged index)))

/-! Successors in one piece. -/

theorem map_absent {values : Array (Option Nat)} (used : ∀ v ∈ values, v ≠ some Bytes.missing) :
    (values.toList.map successorWord).toArray.map absent = values := by
  have same : ∀ v ∈ values.toList, (absent ∘ successorWord) v = id v :=
    fun v member => absent_getD (used v (Array.mem_def.mpr member))
  rw [List.map_toArray, List.map_map, List.map_congr_left same, List.map_id, Array.toArray_toList]

theorem reads_successors {values : Array (Option Nat)} (few : values.size < 0x100000000)
    (fit : FitWords (values.toList.flatMap Option.toList)) :
    Reads vector (Bytes.vector (values.toList.map successorWord))
      (values.toList.map successorWord).toArray := by
  refine reads_vector (by rwa [List.length_map]) fun n member => ?_
  obtain ⟨v, inside, rfl⟩ := List.mem_map.mp member
  exact getD_fits (fitWords_flatMap.mp fit v inside)

/-! Rows. -/

variable {numStates numClasses width : Nat}

theorem pairs_flatMap {entries : List (Nat × Option Nat)}
    (used : ∀ entry ∈ entries, entry.2 ≠ some Bytes.missing) :
    pairs (entries.flatMap fun (classId, next) => [classId, successorWord next]) =
      some entries := by
  induction entries with
  | nil => rfl
  | cons entry rest ih =>
    have later := ih fun e member => used e (List.mem_cons_of_mem _ member)
    rw [List.flatMap_cons]
    show (pairs _).map ((entry.1, absent (entry.2.getD Bytes.missing)) :: ·) = _
    rw [absent_getD (used entry List.mem_cons_self)]
    exact congrArg (Option.map _) later

theorem length_pairs (entries : List (Nat × Option Nat)) :
    (entries.flatMap fun (classId, next) => [classId, successorWord next]).length =
      2 * entries.length := by
  induction entries with
  | nil => rfl
  | cons entry rest ih =>
    simp only [List.flatMap_cons, List.length_append, ih, List.length_cons, List.length_nil]
    omega

theorem reads_row {row : Row} (valid : row.Valid numStates width) (states : numStates < 0x100000000)
    (fit : FitWords row.numbers) (few : row.wordCount < 0x100000000) :
    Reads decodeRow (encodeRow row) row := by
  obtain ⟨usual_fits, entries_fit⟩ := fitWords_append.mp fit
  have used : ∀ entry ∈ row.exceptions.toList, entry.2 ≠ some Bytes.missing := fun entry member =>
    (valid.exceptions entry (Array.mem_def.mpr member)).2.ne_missing states
  have flat : FitWords (row.exceptions.toList.flatMap fun (classId, next) =>
      [classId, successorWord next]) := by
    intro n member
    obtain ⟨entry, listed, inside⟩ := List.mem_flatMap.mp member
    obtain ⟨classId_fits, next_fits⟩ := fitWords_cons.mp (fitWords_flatMap.mp entries_fit _ listed)
    rcases List.mem_cons.mp inside with rfl | next
    · exact classId_fits
    · rw [List.mem_singleton.mp next]
      exact getD_fits next_fits
  have count : (row.exceptions.toList.flatMap fun (classId, next) =>
      [classId, successorWord next]).length < 0x100000000 := by
    rw [length_pairs]
    exact few
  unfold decodeRow encodeRow
  refine (reads_optional (valid.usual.ne_missing states) usual_fits).bind ?_
  rw [← List.append_nil (Bytes.vector _)]
  refine (reads_vector count flat).bind ?_
  rw [pairs_flatMap used]
  exact Reads.pure _

theorem reads_rows {stored : Array Row} (valid : ∀ row ∈ stored, row.Valid numStates width)
    (states : numStates < 0x100000000) (fit : FitWords (stored.toList.flatMap Row.numbers))
    (few : FitWords (stored.size :: stored.toList.map Row.wordCount)) :
    Reads decodeRows (encodeRows stored) stored := by
  obtain ⟨count, each⟩ := fitWords_cons.mp few
  have items := reads_repeated encodeRow (fun row member =>
    reads_row (valid row (Array.mem_def.mpr member)) states (fitWords_flatMap.mp fit row member)
      (each _ (List.mem_map_of_mem member))) #[]
  rw [Array.empty_append, Array.toArray_toList] at items
  exact (reads_word count).bind items

theorem reads_transitions {transitions : Transitions}
    (valid : transitions.Valid numStates numClasses) (states : numStates < 0x100000000)
    (fit : FitWords transitions.numbers) (few : FitWords transitions.lengths) :
    Reads decodeTransitions (encodeTransitions transitions) transitions := by
  cases transitions with
  | dense successors =>
    have read := (reads_successors (fitWords_cons.mp few).1 fit).map
      (g := fun next => Transitions.dense (next.map absent))
    rw [map_absent fun next member => (valid.2 next member).ne_missing states] at read
    exact reads_kind 0 read
  | rows stored =>
    exact reads_kind 1 ((reads_rows valid.2 states fit few).map (g := Transitions.rows))
  | squeezed columns stored =>
    obtain ⟨columns_fit, rows_fit⟩ := fitWords_append.mp fit
    obtain ⟨count, rows_few⟩ := fitWords_cons.mp few
    exact reads_kind 2 ((reads_array count columns_fit).bind
      ((reads_rows valid.2.2 states rows_fit rows_few).map (g := Transitions.squeezed columns)))

/-! The tables as a whole. -/

variable {t : Tables}

/-- What is read in front of the transitions. -/
def decodeFront : Decoder (Transitions → Tables) := do
  decodeMagic
  let alphabet ← decodeAlphabet
  let numStates ← word
  let numClasses ← word
  let lineStart ← optional
  let lineEnd ← optional
  let starts ← vector
  let endActions ← vector
  let count ← word
  let accept ← repeated decodeTag count #[]
  let classMap ← decodeClassMap
  pure fun transitions => {
    alphabet, numStates, numClasses, classMap, transitions, accept, starts
    endActions := endActions.map absent, lineStart, lineEnd }

theorem decodeParts_eq_bind : decodeParts = decodeFront >>= fun tables =>
    decodeTransitions >>= fun transitions => pure (tables transitions) := by
  simp only [decodeParts, decodeFront, bind_assoc, pure_bind]

/-- The lengths of the lists in front of the transitions. -/
def frontLengths (t : Tables) : List Nat :=
  [t.starts.size, t.endActions.size, t.accept.size] ++ t.classMap.lengths

def encodeFront (t : Tables) : List UInt8 :=
  magic ++ alphabetByte t.alphabet :: Bytes.word t.numStates ++ Bytes.word t.numClasses ++
    Bytes.optional t.lineStart ++ Bytes.optional t.lineEnd ++ Bytes.vector t.starts.toList ++
    Bytes.vector (t.endActions.toList.map successorWord) ++ Bytes.word t.accept.size ++
    t.accept.toList.flatMap encodeTag ++ encodeClassMap t.classMap

theorem encode_eq_append (t : Tables) :
    t.encode = t.encodeFront ++ encodeTransitions t.transitions := rfl

theorem reads_front (valid : t.Valid) (used : ∀ action ∈ t.endActions, action ≠ some Bytes.missing)
    (fit : FitWords t.numbers) (few : FitWords t.frontLengths) :
    Reads decodeFront t.encodeFront fun transitions => { t with transitions } := by
  simp only [numbers, frontLengths, fitWords_append, fitWords_cons] at fit few
  obtain ⟨⟨⟨⟨⟨⟨⟨⟨states, classes, _⟩, lineStart⟩, lineEnd⟩, starts⟩, endActions⟩, accept⟩,
    classMap⟩, -⟩ := fit
  obtain ⟨⟨starts_few, endActions_few, accept_few, _⟩, classMap_few⟩ := few
  have tags := reads_repeated encodeTag (fun tag member =>
    reads_tag (fitWords_flatMap.mp accept tag member)) #[]
  rw [Array.empty_append, Array.toArray_toList] at tags
  have layout : t.encodeFront = magic ++ ([alphabetByte t.alphabet] ++ (Bytes.word t.numStates ++
      (Bytes.word t.numClasses ++ (Bytes.optional t.lineStart ++ (Bytes.optional t.lineEnd ++
      (Bytes.vector t.starts.toList ++ (Bytes.vector (t.endActions.toList.map successorWord) ++
      (Bytes.word t.accept.size ++ (t.accept.toList.flatMap encodeTag ++
      encodeClassMap t.classMap))))))))) := by
    simp only [encodeFront, List.append_assoc, List.cons_append, List.nil_append]
  suffices Reads decodeFront t.encodeFront fun transitions =>
      { t with
        transitions
        endActions := (t.endActions.toList.map successorWord).toArray.map absent } by
    rwa [map_absent used] at this
  rw [layout]
  unfold decodeFront
  refine reads_magic.bind ?_
  refine (reads_alphabet _).bind ?_
  refine (reads_word states).bind ?_
  refine (reads_word classes).bind ?_
  refine (reads_optional (valid.lineStart.ne_missing classes) lineStart).bind ?_
  refine (reads_optional (valid.lineEnd.ne_missing classes) lineEnd).bind ?_
  refine (reads_array starts_few starts).bind ?_
  refine (reads_successors endActions_few endActions).bind ?_
  refine (reads_word accept_few).bind ?_
  refine tags.bind ?_
  exact (reads_classMap classMap classMap_few).map

theorem reads_parts (valid : t.Valid) (used : ∀ action ∈ t.endActions, action ≠ some Bytes.missing)
    (fit : FitWords t.numbers) (few : FitWords t.lengths) : Reads decodeParts t.encode t := by
  obtain ⟨front_few, transitions_few⟩ := fitWords_append.mp few
  have states := (fitWords_cons.mp fit).1
  have transitions := (fitWords_append.mp fit).2
  rw [decodeParts_eq_bind, encode_eq_append]
  exact (reads_front valid used fit front_few).bind
    (reads_transitions valid.transitions states transitions transitions_few).map

/-- Tables that pass the check come back as they were. -/
theorem decode_encode (checked : t.validate = .ok ())
    (used : ∀ action ∈ t.endActions, action ≠ some Bytes.missing)
    (fit : FitWords t.numbers) (few : FitWords t.lengths) : decode t.encode = .ok t := by
  have read := (reads_parts (validate_iff.mp checked) used fit few).whole []
  rw [List.append_nil] at read
  rw [decode, read]
  dsimp only
  rw [checked]
  rfl

end Tables

end Scangen
