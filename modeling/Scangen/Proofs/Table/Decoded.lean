import Scangen.Proofs.Scan.Trace
import Scangen.Proofs.Table.Checks
import Scangen.Proofs.Table.Transitions
import Scangen.Proofs.Table.Words

/-!
Tables read from any bytes that pass the check are safe to walk. A longest match stays at states and
classes that exist, and every place that it looks up is inside of its list.
-/

namespace Scangen

/-! What a decoder that succeeds has read. -/

namespace Decoder

variable {α β : Type} {bytes rest : List UInt8}

theorem bind_eq_ok {d : Decoder α} {f : α → Decoder β} {result : β × List UInt8}
    (read : (d >>= f) bytes = .ok result) :
    ∃ value rest, d bytes = .ok (value, rest) ∧ f value rest = .ok result := by
  rw [bind_apply] at read
  cases first : d bytes with
  | error e =>
    rw [first] at read
    cases read
  | ok found =>
    rw [first] at read
    exact ⟨found.1, found.2, rfl, read⟩

theorem word_lt {n : Nat} (read : word bytes = .ok (n, rest)) : n < 0x100000000 := by
  unfold word at read
  split at read
  next a b c d _ =>
    have first := a.toNat_lt
    have second := b.toNat_lt
    have third := c.toNat_lt
    have fourth := d.toNat_lt
    cases read
    omega
  next => cases read

theorem size_repeated {item : Decoder α} {count : Nat} {items values : Array α}
    (read : repeated item count items bytes = .ok (values, rest)) :
    values.size = items.size + count := by
  induction count generalizing items bytes with
  | zero =>
    cases read
    rfl
  | succ count ih =>
    rw [repeated_succ] at read
    obtain ⟨value, later, _, read⟩ := bind_eq_ok read
    rw [ih read, Array.size_push, Nat.add_right_comm, Nat.add_assoc]

/-- The number of words in front of a vector is a word itself. -/
theorem size_vector_lt {values : Array Nat} (read : vector bytes = .ok (values, rest)) :
    values.size < 0x100000000 := by
  obtain ⟨count, later, counted, read⟩ := bind_eq_ok read
  rw [size_repeated read, Array.size_empty, Nat.zero_add]
  exact word_lt counted

end Decoder

namespace Tables

open Decoder

variable {t : Tables} {bytes rest : List UInt8}

/-- Successors in one piece can be counted in 32 bits. -/
theorem size_lt_of_decodeTransitions {successors : Array (Option Nat)}
    (read : decodeTransitions bytes = .ok (.dense successors, rest)) :
    successors.size < 0x100000000 := by
  obtain ⟨kind, later, _, read⟩ := bind_eq_ok read
  split at read
  next =>
    obtain ⟨next, last, words, read⟩ := bind_eq_ok read
    cases read
    rw [Array.size_map]
    exact size_vector_lt words
  next =>
    split at read
    next =>
      obtain ⟨stored, last, _, read⟩ := bind_eq_ok read
      cases read
    next =>
      split at read
      next =>
        obtain ⟨columns, middle, _, read⟩ := bind_eq_ok read
        obtain ⟨stored, last, _, read⟩ := bind_eq_ok read
        cases read
      next => cases read

theorem transitions_of_decodeParts (read : decodeParts bytes = .ok (t, rest)) :
    ∃ front, decodeTransitions front = .ok (t.transitions, rest) := by
  unfold decodeParts at read
  -- eleven parts stand in front of the transitions
  iterate 11 obtain ⟨_, _, _, read⟩ := bind_eq_ok read
  obtain ⟨transitions, last, found, read⟩ := bind_eq_ok read
  cases read
  exact ⟨_, found⟩

/-- What was decoded has passed the check. -/
theorem decode_parts (decoded : decode bytes = .ok t) :
    t.validate = .ok () ∧ ∃ rest, decodeParts bytes = .ok (t, rest) := by
  unfold decode at decoded
  cases read : decodeParts bytes with
  | error e =>
    rw [read] at decoded
    cases decoded
  | ok found =>
    obtain ⟨tables, rest⟩ := found
    rw [read] at decoded
    dsimp only at decoded
    cases checked : tables.validate with
    | error e =>
      rw [checked] at decoded
      cases decoded
    | ok =>
      rw [checked] at decoded
      cases decoded
      exact ⟨checked, rest, rfl⟩

theorem decode_valid (decoded : decode bytes = .ok t) : t.Valid :=
  validate_iff.mp (decode_parts decoded).1

theorem decode_size_lt {successors : Array (Option Nat)} (decoded : decode bytes = .ok t)
    (encoding : t.transitions = .dense successors) : successors.size < 0x100000000 := by
  obtain ⟨_, rest, read⟩ := decode_parts decoded
  obtain ⟨front, found⟩ := transitions_of_decodeParts read
  rw [encoding] at found
  exact size_lt_of_decodeTransitions found

/-- Tables that were read can be looked up everywhere. -/
theorem decode_addressable (decoded : decode bytes = .ok t) : t.Addressable := by
  have valid := (decode_valid decoded).transitions
  unfold Addressable
  cases encoding : t.transitions with
  | dense successors =>
    rw [encoding] at valid
    show t.numStates * t.numClasses ≤ UInt32.size
    rw [valid.1]
    exact Nat.le_of_lt (decode_size_lt decoded encoding)
  | rows | squeezed => trivial

end Tables

/-! What the check allows to be followed leads to states and classes again. -/

section Valid

variable {numStates numClasses width s classId : Nat}

theorem Row.Valid.lookup_below {row : Row} (valid : row.Valid numStates width) :
    Below numStates (row.lookup classId) := by
  unfold Row.lookup
  split
  next key next found =>
    split
    next => exact (valid.exceptions (key, next) (Array.mem_of_getElem? found)).2
    next => exact valid.usual
  next => exact valid.usual

theorem Transitions.Valid.next_below {transitions : Transitions}
    (valid : transitions.Valid numStates numClasses) :
    Below numStates (transitions.next numClasses s classId) := by
  intro next found
  cases transitions with
  | dense successors =>
    have entry := Option.join_eq_some_iff.mp found
    exact valid.2 (some next) (Array.mem_of_getElem? entry) next rfl
  | rows stored =>
    obtain ⟨row, listed, stepped⟩ := Option.bind_eq_some_iff.mp found
    exact (valid.2 row (Array.mem_of_getElem? listed)).lookup_below next stepped
  | squeezed columns stored =>
    obtain ⟨row, listed, found⟩ := Option.bind_eq_some_iff.mp found
    obtain ⟨column, _, stepped⟩ := Option.bind_eq_some_iff.mp found
    exact (valid.2.2 row (Array.mem_of_getElem? listed)).lookup_below next stepped

theorem ClassMap.Valid.lookup_lt {map : ClassMap} (valid : map.Valid numClasses) {c : Nat}
    (found : map.lookup c = some classId) : classId < numClasses := by
  cases map with
  | dense classes => exact valid classId (Array.mem_of_getElem? found)
  | paged index pages =>
    unfold ClassMap.lookup at found
    dsimp only at found
    split at found
    next => cases found
    next => exact valid.2.2 classId (Array.mem_of_getElem? found)

/-- States of valid tables lead to states of the tables. -/
theorem Tables.Valid.keeps {t : Tables} (valid : t.Valid) :
    t.recognizer.Keeps (fun state => state < t.numStates) t.numClasses where
  bounded := {
    symbols := fun found => valid.classMap.lookup_lt found
    lineStart := fun used => valid.lineStart _ used
    lineEnd := fun used => valid.lineEnd _ used }
  start := fun found => valid.starts _ (Array.mem_of_getElem? found)
  step := fun _ _ stepped => valid.transitions.next_below _ stepped

end Valid

/-- The place of a successor is inside of its list. In one piece, it is counted in 32 bits. -/
def Transitions.InRange (numClasses s classId : Nat) : Transitions → Prop
  | .dense successors =>
    s * numClasses + classId < successors.size ∧ s * numClasses + classId < 0x100000000
  | .rows stored => s < stored.size
  | .squeezed columns stored => classId < columns.size ∧ s < stored.size

namespace Tables

/-- A lookup asks for a state and a class that exist, and finds them inside of all lists. -/
def InRange (t : Tables) : Lookup Nat → Prop
  | .start condition => condition < t.starts.size
  | .tag state => state < t.numStates ∧ state < t.accept.size
  | .successor state classId =>
    state < t.numStates ∧ classId < t.numClasses ∧
      t.transitions.InRange t.numClasses state classId

variable {t : Tables} {bytes : List UInt8} {condition : Nat}

theorem transitions_inRange (decoded : decode bytes = .ok t) {s classId : Nat}
    (state : s < t.numStates) (small : classId < t.numClasses) :
    t.transitions.InRange t.numClasses s classId := by
  have valid := (decode_valid decoded).transitions
  cases encoding : t.transitions with
  | dense successors =>
    rw [encoding] at valid
    have place := Transitions.index_lt state small
    rw [valid.1] at place
    exact ⟨place, Nat.lt_trans place (decode_size_lt decoded encoding)⟩
  | rows stored =>
    rw [encoding] at valid
    exact Nat.lt_of_lt_of_eq state valid.1.symm
  | squeezed columns stored =>
    rw [encoding] at valid
    exact ⟨Nat.lt_of_lt_of_eq small valid.1.symm, Nat.lt_of_lt_of_eq state valid.2.1.symm⟩

/-- Whatever the bytes, a longest match on the tables read from them stays in range with everything
that it looks up. And that is all it depends on: with the same at these places it finds the same. -/
theorem decode_inRange (decoded : decode bytes = .ok t) (declared : condition < t.starts.size)
    (input : List Nat) (atLineStart : Bool) :
    (∀ lookup ∈ t.recognizer.lookups condition input atLineStart, t.InRange lookup) ∧
    ∀ r : Recognizer Nat, r.classOf = t.classOf → r.lineStart = t.lineStart →
      r.lineEnd = t.lineEnd →
      (∀ lookup ∈ t.recognizer.lookups condition input atLineStart,
        t.recognizer.Agrees r lookup) →
      r.longestMatch condition input atLineStart =
        t.recognizer.longestMatch condition input atLineStart := by
  have valid := decode_valid decoded
  constructor
  · apply valid.keeps.lookups (P := t.InRange)
    · intro state inside
      exact ⟨inside, Nat.lt_of_lt_of_eq inside valid.accept.symm⟩
    · intro state classId inside small
      exact ⟨inside, small, transitions_inRange decoded inside small⟩
    · exact declared
  · intro r classes lineStart lineEnd agrees
    exact Recognizer.longestMatch_eq_of_agrees classes lineStart lineEnd agrees

/-- Runs of one symbol in three states. The classes behind it stand for the start and the end of a
line, and share a column. -/
def sharedColumns : Tables where
  alphabet := .byte
  numStates := 3
  numClasses := 3
  classMap := .dense #[0]
  transitions := .squeezed #[0, 1, 1]
    #[⟨none, #[(0, some 1), (1, some 0)]⟩, ⟨some 1, #[(1, some 2)]⟩, ⟨none, #[]⟩]
  accept := #[none, some ⟨1, 1, .whole⟩, some ⟨0, 0, .whole⟩]
  starts := #[0]
  endActions := #[none]
  lineStart := some 1
  lineEnd := some 2

theorem decode_sharedColumns : decode sharedColumns.encode = .ok sharedColumns := by
  decide +kernel

/-- Through the start of a line, two symbols and the end of the line. -/
theorem sharedColumns_inRange :
    decode sharedColumns.encode = .ok sharedColumns ∧ 0 < sharedColumns.starts.size ∧
      sharedColumns.recognizer.longestMatch 0 [0, 0] true = some ⟨0, 2, 2⟩ ∧
      ∀ lookup ∈ sharedColumns.recognizer.lookups 0 [0, 0] true,
        sharedColumns.InRange lookup :=
  ⟨decode_sharedColumns, Nat.zero_lt_one, by decide,
    (decode_inRange decode_sharedColumns Nat.zero_lt_one [0, 0] true).1⟩

end Tables

end Scangen
