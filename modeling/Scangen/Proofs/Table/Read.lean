import Scangen.Proofs.Table.Decoded
import Scangen.Table.Computed

/-!
What reading gives, whatever the bytes: numbers that fit in words, lists that are not longer than the
bytes that they were read from, and no other errors than the known ones.
-/

namespace Scangen

open Tables (Refusal places)

/-- Lengths of lists that were read from so many bytes. -/
def Counted (limit : Nat) (lengths : List Nat) : Prop := ∀ n ∈ lengths, n < 0x100000000 ∧ n ≤ limit

section Counted

variable {limit : Nat} {lengths lengths' : List Nat}

theorem counted_append :
    Counted limit (lengths ++ lengths') ↔ Counted limit lengths ∧ Counted limit lengths' :=
  List.forall_mem_append

theorem counted_cons {n : Nat} :
    Counted limit (n :: lengths) ↔ (n < 0x100000000 ∧ n ≤ limit) ∧ Counted limit lengths :=
  List.forall_mem_cons

theorem counted_nil : Counted limit [] := List.forall_mem_nil _

end Counted

/-- Out of not more than `limit` bytes, at least `least` are taken for a value like this. -/
def Decoder.Gives {α : Type} (d : Decoder α) (limit least : Nat) (P : α → Prop) : Prop :=
  ∀ bytes, bytes.length ≤ limit → match d bytes with
    | .ok (value, rest) => rest.length + least ≤ bytes.length ∧ P value
    | .error e => Refusal e

namespace Decoder

variable {α β : Type} {limit least enough : Nat} {d d' : Decoder α} {f : α → Decoder β}
  {P : α → Prop} {Q : β → Prop}

namespace Gives

theorem pure {value : α} (holds : P value) : Gives (Pure.pure value) limit 0 P :=
  fun _ _ => ⟨Nat.le_refl _, holds⟩

theorem bind (first : Gives d limit enough P) (second : ∀ a, P a → Gives (f a) limit 0 Q)
    (fewer : least ≤ enough) : Gives (d >>= f) limit least Q := by
  intro bytes small
  rw [bind_apply]
  have step := first bytes small
  split at step
  next value rest read =>
    obtain ⟨taken, holds⟩ := step
    have more := second value holds rest (by omega)
    rw [read]
    dsimp only
    split at more
    next result last found =>
      rw [found]
      exact ⟨by omega, more.2⟩
    next e failed =>
      rw [failed]
      exact more
  next e failed =>
    rw [failed]
    exact step

theorem map {g : α → β} (first : Gives d limit enough P) (each : ∀ a, P a → Q (g a))
    (fewer : least ≤ enough) : Gives (d >>= fun a => Pure.pure (g a)) limit least Q :=
  first.bind (fun a holds => pure (each a holds)) fewer

theorem mono (gives : Gives d limit enough P) {P' : α → Prop} (each : ∀ a, P a → P' a)
    (fewer : least ≤ enough) : Gives d limit least P' := by
  intro bytes small
  have known := gives bytes small
  split at known
  next value rest read => exact ⟨by omega, each value known.2⟩
  next e failed => exact known

/-- What was taken had been there. -/
theorem taken (gives : Gives d limit enough P) :
    Gives d limit enough fun value => P value ∧ enough ≤ limit := by
  intro bytes small
  have known := gives bytes small
  split at known
  next value rest read => exact ⟨known.1, known.2, by omega⟩
  next e failed => exact known

theorem ite {c : Prop} [Decidable c] (left : Gives d limit least P) (right : Gives d' limit least P) :
    Gives (if c then d else d') limit least P := by
  split
  · exact left
  · exact right

end Gives

theorem invalid_gives {place : String} (known : place ∈ places) :
    Gives (Tables.invalid place : Decoder α) limit least P :=
  fun _ _ => Or.inr (Or.inr ⟨place, known, rfl⟩)

theorem byte_gives : Gives byte limit 1 fun _ => True := by
  intro bytes _
  cases bytes with
  | nil => exact Or.inr (Or.inl rfl)
  | cons b rest => exact ⟨Nat.le_refl _, trivial⟩

theorem word_length {bytes rest : List UInt8} {n : Nat} (read : word bytes = .ok (n, rest)) :
    rest.length + 4 = bytes.length := by
  unfold word at read
  split at read
  next =>
    cases read
    rfl
  next => cases read

theorem word_error {bytes : List UInt8} {e : TableError} (failed : word bytes = .error e) :
    e = .truncated := by
  unfold word at failed
  split at failed
  next => cases failed
  next =>
    cases failed
    rfl

theorem word_gives : Gives word limit 4 (· < 0x100000000) := by
  intro bytes _
  split
  next n rest read => exact ⟨Nat.le_of_eq (word_length read), word_lt read⟩
  next e failed => exact Or.inr (Or.inl (word_error failed))

theorem absent_fits {n : Nat} (small : n < 0x100000000) : FitWords (absent n).toList := by
  unfold absent
  split
  · exact fitWords_nil
  · exact fitWords_cons.mpr ⟨small, fitWords_nil⟩

theorem absents_fit {values : Array Nat} (fit : FitWords values.toList) :
    FitWords ((values.map absent).toList.flatMap Option.toList) := by
  refine fitWords_flatMap.mpr fun value member => ?_
  obtain ⟨n, listed, rfl⟩ := Array.mem_map.mp (Array.mem_def.mpr member)
  exact absent_fits (fit n (Array.mem_def.mp listed))

theorem optional_gives : Gives optional limit 4 fun value => FitWords value.toList := by
  exact word_gives.map (fun n small => absent_fits small) (Nat.le_refl 4)

/-- Each item takes bytes of its own. -/
theorem repeated_gives {item : Decoder α} (each : Gives item limit enough P) (count : Nat)
    {items : Array α} (known : ∀ v ∈ items, P v) :
    Gives (repeated item count items) limit (count * enough) fun values =>
      values.size = items.size + count ∧ ∀ v ∈ values, P v := by
  induction count generalizing items with
  | zero =>
    rw [Nat.zero_mul]
    exact Gives.pure ⟨rfl, known⟩
  | succ count ih =>
    intro bytes small
    rw [repeated_succ, bind_apply]
    have first := each bytes small
    cases read : item bytes with
    | error e =>
      rw [read] at first
      exact first
    | ok found =>
      obtain ⟨value, rest⟩ := found
      rw [read] at first
      obtain ⟨taken, holds⟩ := first
      have grown : ∀ v ∈ items.push value, P v := by
        intro v member
        rcases Array.mem_push.mp member with old | rfl
        · exact known v old
        · exact holds
      have more := ih grown rest (by omega)
      dsimp only
      split at more
      next values last found =>
        obtain ⟨left, size, all⟩ := more
        rw [found]
        rw [Array.size_push] at size
        exact ⟨by rw [Nat.succ_mul]; omega, by omega, all⟩
      next e failed =>
        rw [failed]
        exact more

theorem vector_gives : Gives vector limit 4 fun values =>
    FitWords values.toList ∧ Counted limit [values.size] := by
  refine word_gives.bind (fun count small => ?_) (Nat.le_refl 4)
  refine (repeated_gives word_gives count (by simp)).taken.mono (fun values known => ?_) (Nat.zero_le _)
  obtain ⟨⟨size, fit⟩, taken⟩ := known
  rw [Array.size_empty, Nat.zero_add] at size
  refine ⟨fun n member => fit n (Array.mem_def.mpr member), counted_cons.mpr ⟨?_, counted_nil⟩⟩
  exact ⟨by omega, by omega⟩

end Decoder

namespace Tables

open Decoder

variable {limit : Nat}

theorem magic_gives : Gives decodeMagic limit 0 fun _ => True := by
  intro bytes _
  unfold decodeMagic
  by_cases short : bytes.length < magic.length
  · rw [if_pos short]
    exact Or.inr (Or.inl rfl)
  · rw [if_neg short]
    by_cases same : bytes.take magic.length = magic
    · rw [if_pos same]
      exact ⟨by rw [List.length_drop]; omega, trivial⟩
    · rw [if_neg same]
      exact Or.inl rfl

theorem alphabet_gives : Gives decodeAlphabet limit 0 fun _ => True :=
  byte_gives.bind (fun _ _ => .ite (.pure trivial) (.ite (.pure trivial) (invalid_gives (by decide))))
    (Nat.zero_le 1)

theorem tag_gives : Gives decodeTag limit 1 fun tag => FitWords (tagNumbers tag) := by
  refine byte_gives.bind (fun kind _ => .ite (.pure fitWords_nil) ?_) (Nat.le_refl 1)
  refine word_gives.bind (fun rule rule_fits => ?_) (Nat.zero_le 4)
  refine word_gives.bind (fun priority priority_fits => ?_) (Nat.zero_le 4)
  refine word_gives.bind (fun n n_fits => ?_) (Nat.zero_le 4)
  have fit : ∀ last < 0x100000000, FitWords [rule, priority, last] := fun last small =>
    fitWords_cons.mpr ⟨rule_fits, fitWords_cons.mpr ⟨priority_fits, fitWords_cons.mpr
      ⟨small, fitWords_nil⟩⟩⟩
  refine .ite (.pure (fit 0 (by decide))) (.ite (.pure (fit n n_fits)) (.ite (.pure (fit n n_fits)) ?_))
  exact invalid_gives (by decide)

theorem classMap_gives : Gives decodeClassMap limit 0 fun map =>
    FitWords map.numbers ∧ Counted limit map.lengths := by
  refine byte_gives.bind (fun kind _ => .ite ?_ (.ite ?_ (invalid_gives (by decide)))) (Nat.zero_le 1)
  · exact vector_gives.map (fun classes known => known) (Nat.zero_le 4)
  · refine vector_gives.bind (fun index known => ?_) (Nat.zero_le 4)
    refine vector_gives.map (fun pages known' => ?_) (Nat.zero_le 4)
    exact ⟨fitWords_append.mpr ⟨known.1, known'.1⟩, counted_append.mpr ⟨known.2, known'.2⟩⟩

/-- Pairs take two words each. -/
theorem pairs_known {flat : List Nat} {entries : List (Nat × Option Nat)}
    (made : pairs flat = some entries) (fit : FitWords flat) :
    flat.length = 2 * entries.length ∧
      FitWords (entries.flatMap fun (classId, next) => classId :: next.toList) := by
  fun_induction pairs flat generalizing entries with
  | case1 =>
    cases made
    exact ⟨rfl, fitWords_nil⟩
  | case2 => cases made
  | case3 classId next rest ih =>
    obtain ⟨others, found, rfl⟩ := Option.map_eq_some_iff.mp made
    obtain ⟨classId_fits, later⟩ := fitWords_cons.mp fit
    obtain ⟨next_fits, rest_fit⟩ := fitWords_cons.mp later
    obtain ⟨count, known⟩ := ih found rest_fit
    refine ⟨by simp only [List.length_cons, count]; omega, ?_⟩
    rw [List.flatMap_cons, fitWords_append, fitWords_cons]
    refine ⟨⟨classId_fits, ?_⟩, known⟩
    exact absent_fits next_fits

theorem row_gives : Gives decodeRow limit 1 fun row =>
    FitWords row.numbers ∧ Counted limit [row.wordCount] := by
  refine optional_gives.bind (fun usual usual_fits => ?_) (by decide)
  refine vector_gives.bind (fun flat known => ?_) (Nat.zero_le 4)
  split
  next entries made =>
    obtain ⟨count, fit⟩ := pairs_known made known.1
    refine .pure ⟨fitWords_append.mpr ⟨usual_fits, fit⟩, ?_⟩
    rw [Row.wordCount, List.size_toArray, ← count]
    exact known.2
  next => exact invalid_gives (by decide)

theorem rows_gives : Gives decodeRows limit 0 fun stored =>
    FitWords (stored.toList.flatMap Row.numbers) ∧
      Counted limit (stored.size :: stored.toList.map Row.wordCount) := by
  refine word_gives.bind (fun count small => ?_) (Nat.zero_le 4)
  refine (repeated_gives row_gives count (by simp)).taken.mono (fun stored known => ?_)
    (Nat.zero_le _)
  obtain ⟨⟨size, each⟩, taken⟩ := known
  rw [Array.size_empty, Nat.zero_add] at size
  constructor
  · exact fitWords_flatMap.mpr fun row member => (each row (Array.mem_def.mpr member)).1
  · refine counted_cons.mpr ⟨⟨by omega, by omega⟩, fun n member => ?_⟩
    obtain ⟨row, listed, rfl⟩ := List.mem_map.mp member
    exact (counted_cons.mp (each row (Array.mem_def.mpr listed)).2).1

theorem transitions_gives : Gives decodeTransitions limit 0 fun transitions =>
    FitWords transitions.numbers ∧ Counted limit transitions.lengths := by
  refine byte_gives.bind (fun kind _ => .ite ?_ (.ite ?_ (.ite ?_ (invalid_gives (by decide)))))
    (Nat.zero_le 1)
  · refine vector_gives.map (fun next known => ?_) (Nat.zero_le 4)
    refine ⟨absents_fit known.1, ?_⟩
    rw [Transitions.lengths, Array.size_map]
    exact known.2
  · exact rows_gives.map (fun stored known => known) (Nat.le_refl 0)
  · refine vector_gives.bind (fun columns known => ?_) (Nat.zero_le 4)
    refine rows_gives.map (fun stored known' => ?_) (Nat.le_refl 0)
    exact ⟨fitWords_append.mpr ⟨known.1, known'.1⟩, counted_append.mpr ⟨known.2, known'.2⟩⟩

theorem parts_gives : Gives decodeParts limit 0 fun t =>
    FitWords t.numbers ∧ Counted limit t.lengths := by
  refine magic_gives.bind (fun _ _ => ?_) (Nat.le_refl 0)
  refine alphabet_gives.bind (fun alphabet _ => ?_) (Nat.le_refl 0)
  refine word_gives.bind (fun numStates states => ?_) (Nat.zero_le 4)
  refine word_gives.bind (fun numClasses classes => ?_) (Nat.zero_le 4)
  refine optional_gives.bind (fun lineStart lineStart_fits => ?_) (Nat.zero_le 4)
  refine optional_gives.bind (fun lineEnd lineEnd_fits => ?_) (Nat.zero_le 4)
  refine vector_gives.bind (fun starts starts_known => ?_) (Nat.zero_le 4)
  refine vector_gives.bind (fun endActions endActions_known => ?_) (Nat.zero_le 4)
  refine word_gives.bind (fun count small => ?_) (Nat.zero_le 4)
  refine (repeated_gives tag_gives count (by simp)).taken.bind (fun accept tags => ?_) (Nat.zero_le _)
  refine classMap_gives.bind (fun classMap classMap_known => ?_) (Nat.le_refl 0)
  refine transitions_gives.map (fun transitions transitions_known => ?_) (Nat.le_refl 0)
  obtain ⟨⟨size, each⟩, taken⟩ := tags
  rw [Array.size_empty, Nat.zero_add] at size
  have accept_fits : FitWords (accept.toList.flatMap tagNumbers) :=
    fitWords_flatMap.mpr fun tag member => each tag (Array.mem_def.mpr member)
  constructor
  · simp only [numbers, fitWords_append, fitWords_cons]
    exact ⟨⟨⟨⟨⟨⟨⟨⟨states, classes, fitWords_nil⟩, lineStart_fits⟩, lineEnd_fits⟩, starts_known.1⟩,
      absents_fit endActions_known.1⟩, accept_fits⟩, classMap_known.1⟩, transitions_known.1⟩
  · simp only [lengths, Array.size_map, counted_append, counted_cons]
    refine ⟨⟨⟨(counted_cons.mp starts_known.2).1, (counted_cons.mp endActions_known.2).1, ?_,
      counted_nil⟩, classMap_known.2⟩, transitions_known.2⟩
    exact ⟨by omega, by omega⟩

end Tables

end Scangen
