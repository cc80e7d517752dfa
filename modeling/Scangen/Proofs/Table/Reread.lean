import Scangen.Proofs.Table.Codec
import Scangen.Proofs.Table.Decoded

/-!
Tables that are read back from what was written, whether it could be written as it was or not. A list
of successors that is too long to be counted is not taken for a shorter one, and bytes that end early
are never taken for other tables or for malformed ones, wherever they are cut off.
-/

namespace Scangen.Tables

open Decoder

variable {t u : Tables} {successors : Array (Option Nat)}

theorem exists_transitions (valid : t.Valid)
    (used : ∀ action ∈ t.endActions, action ≠ some Bytes.missing) (fit : FitWords t.numbers)
    (few : FitWords t.frontLengths) (decoded : decode t.encode = .ok u) :
    ∃ transitions rest, decodeTransitions (encodeTransitions t.transitions) =
      .ok (transitions, rest) ∧ u = { t with transitions } := by
  obtain ⟨-, rest, read⟩ := decode_parts decoded
  rw [decodeParts_eq_bind, encode_eq_append, bind_apply,
    (reads_front valid used fit few).whole] at read
  obtain ⟨transitions, later, found, read⟩ := bind_eq_ok read
  cases read
  exact ⟨transitions, _, found, rfl⟩

theorem exists_dense {bytes rest : List UInt8} {transitions : Transitions}
    (read : decodeTransitions (0 :: bytes) = .ok (transitions, rest)) :
    ∃ successors, transitions = .dense successors := by
  have dense : decodeTransitions (0 :: bytes) =
      (vector >>= fun next => pure (Transitions.dense (next.map absent))) bytes := rfl
  rw [dense] at read
  obtain ⟨next, _, _, read⟩ := bind_eq_ok read
  cases read
  exact ⟨_, rfl⟩

/-- The check compares the numbers of states and classes with the successors that were counted. -/
theorem size_lt_of_decode_encode (valid : t.Valid)
    (used : ∀ action ∈ t.endActions, action ≠ some Bytes.missing) (fit : FitWords t.numbers)
    (few : FitWords t.frontLengths) (encoding : t.transitions = .dense successors)
    (decoded : decode t.encode = .ok u) : successors.size < 0x100000000 := by
  obtain ⟨transitions, rest, read, rfl⟩ := exists_transitions valid used fit few decoded
  rw [encoding] at read
  obtain ⟨counted, rfl⟩ := exists_dense read
  have short := decode_size_lt decoded rfl
  have checked := (decode_valid decoded).transitions.1
  have whole := valid.transitions
  rw [encoding] at whole
  rw [← whole.1, checked]
  exact short

/-- Bytes that can be read back at all stand for the tables that were written. -/
theorem eq_of_decode_encode (valid : t.Valid)
    (used : ∀ action ∈ t.endActions, action ≠ some Bytes.missing) (fit : FitWords t.numbers)
    (few : FitWords t.frontLengths)
    (short : (∀ successors, t.transitions ≠ .dense successors) → FitWords t.transitions.lengths)
    (decoded : decode t.encode = .ok u) : u = t := by
  have lengths : FitWords t.transitions.lengths := by
    cases encoding : t.transitions with
    | dense successors =>
      exact fitWords_cons.mpr ⟨size_lt_of_decode_encode valid used fit few encoding decoded,
        fitWords_nil⟩
    | rows | squeezed =>
      rw [encoding] at short
      exact short (by simp)
  have again := decode_encode (validate_iff.mpr valid) used fit (fitWords_append.mpr ⟨few, lengths⟩)
  rw [decoded] at again
  exact Except.ok.inj again

/-! Bytes that end early. -/

variable {front : List UInt8}

/-- What cannot be read before the check is not checked. -/
theorem decode_of_parts_error {bytes : List UInt8} {e : TableError}
    (failed : decodeParts bytes = .error e) : decode bytes = .error e := by
  rw [decode, failed]

/-- Of tables that pass the check, everything but the whole is recognized as cut off. -/
theorem decode_truncated (checked : t.validate = .ok ())
    (used : ∀ action ∈ t.endActions, action ≠ some Bytes.missing) (fit : FitWords t.numbers)
    (few : FitWords t.lengths) (inside : front <+: t.encode) (short : front ≠ t.encode) :
    decode front = .error .truncated := by
  have parts := reads_parts (validate_iff.mp checked) used fit few
  exact decode_of_parts_error (parts.cut front inside short)

/-- Cut off behind the second of three rows. -/
theorem sharedColumns_truncated :
    sharedColumns.validate = .ok () ∧
      (∀ action ∈ sharedColumns.endActions, action ≠ some Bytes.missing) ∧
      FitWords sharedColumns.numbers ∧ FitWords sharedColumns.lengths ∧
      sharedColumns.encode.take 142 ≠ sharedColumns.encode ∧
      decode (sharedColumns.encode.take 142) = .error .truncated := by
  have checked : sharedColumns.validate = .ok () := by decide +kernel
  have used : ∀ action ∈ sharedColumns.endActions, action ≠ some Bytes.missing := by
    decide +kernel
  have fit : FitWords sharedColumns.numbers := by decide +kernel
  have few : FitWords sharedColumns.lengths := by decide +kernel
  have short : sharedColumns.encode.take 142 ≠ sharedColumns.encode := by decide +kernel
  exact ⟨checked, used, fit, few, short,
    decode_truncated checked used fit few (List.take_prefix 142 _) short⟩

end Scangen.Tables
