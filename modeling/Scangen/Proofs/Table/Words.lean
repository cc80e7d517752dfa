import Mathlib.Data.List.Basic
import Scangen.Table.Stored

/-!
Reading back what was written. A decoder reads some bytes as a value if it takes just these from the
front of whatever begins with them, and misses bytes in everything that ends within them.
-/

namespace Scangen

section FitWords

variable {numbers numbers' : List Nat}

theorem fitWords_append :
    FitWords (numbers ++ numbers') ↔ FitWords numbers ∧ FitWords numbers' :=
  List.forall_mem_append

theorem fitWords_cons {n : Nat} :
    FitWords (n :: numbers) ↔ n < 0x100000000 ∧ FitWords numbers :=
  List.forall_mem_cons

theorem fitWords_nil : FitWords [] := List.forall_mem_nil _

theorem fitWords_flatMap {α : Type} {numbers : α → List Nat} {items : List α} :
    FitWords (items.flatMap numbers) ↔ ∀ item ∈ items, FitWords (numbers item) := by
  constructor
  · exact fun fit item member n inside => fit n (List.mem_flatMap.mpr ⟨item, member, inside⟩)
  · intro each n inside
    obtain ⟨item, member, inside⟩ := List.mem_flatMap.mp inside
    exact each item member n inside

end FitWords

/-- The bytes stand for the value, and none of them can be left out at the end. -/
structure Decoder.Reads {α : Type} (d : Decoder α) (bytes : List UInt8) (value : α) : Prop where
  whole : ∀ rest, d (bytes ++ rest) = .ok (value, rest)
  cut : ∀ front, front <+: bytes → front ≠ bytes → d front = .error .truncated

namespace Decoder

variable {α β : Type} {bytes bytes' : List UInt8} {value : α} {value' : β} {d : Decoder α}
  {f : α → Decoder β}

theorem bind_apply (d : Decoder α) (f : α → Decoder β) (bytes : List UInt8) :
    (d >>= f) bytes = match d bytes with
      | .error e => .error e
      | .ok (a, rest) => f a rest := by
  show (d bytes).bind _ = _
  cases d bytes <;> rfl

namespace Reads

theorem pure (value : α) : Reads (Pure.pure value) [] value := by
  refine ⟨fun rest => rfl, fun front inside short => ?_⟩
  exact absurd (List.prefix_nil.mp inside) short

/-- One value behind another. -/
theorem bind (first : Reads d bytes value) (second : Reads (f value) bytes' value') :
    Reads (d >>= f) (bytes ++ bytes') value' := by
  constructor
  · intro rest
    rw [bind_apply, List.append_assoc, first.whole]
    exact second.whole rest
  · intro front inside short
    rw [bind_apply]
    rcases List.prefix_or_prefix_of_prefix inside (List.prefix_append bytes bytes') with
      early | late
    · by_cases all : front = bytes
      · have missing : ([] : List UInt8) ≠ bytes' := by
          intro nothing
          rw [all, ← nothing, List.append_nil] at short
          exact short rfl
        have read := first.whole []
        rw [List.append_nil] at read
        rw [all, read]
        exact second.cut [] List.nil_prefix missing
      · rw [first.cut front early all]
    · obtain ⟨later, rfl⟩ := late
      rw [first.whole]
      refine second.cut later ((List.prefix_append_right_inj bytes).mp inside) fun all => ?_
      exact short (by rw [all])

/-- What is made of a value once it has been read. -/
theorem map {g : α → β} (reads : Reads d bytes value) :
    Reads (d >>= fun a => Pure.pure (g a)) bytes (g value) := by
  have both := reads.bind (f := fun a => Pure.pure (g a)) (pure (g value))
  rwa [List.append_nil] at both

end Reads

theorem reads_byte (b : UInt8) : Reads byte [b] b := by
  refine ⟨fun rest => rfl, fun front inside short => ?_⟩
  cases front with
  | nil => rfl
  | cons c front =>
    have count := inside.length_le
    have nothing : front = [] := List.eq_nil_of_length_eq_zero (by simpa using count)
    exact absurd (inside.eq_of_length (by rw [nothing]; rfl)) short

theorem word_short {front : List UInt8} (short : front.length < 4) :
    word front = .error .truncated := by
  match front with
  | [] => rfl
  | [_] => rfl
  | [_, _] => rfl
  | [_, _, _] => rfl
  | _ :: _ :: _ :: _ :: _ =>
    simp only [List.length_cons] at short
    omega

theorem reads_word {n : Nat} (small : n < 0x100000000) : Reads word (Bytes.word n) n := by
  constructor
  · intro rest
    have value : (UInt8.ofNat n).toNat + (UInt8.ofNat (n / 0x100)).toNat * 0x100 +
        (UInt8.ofNat (n / 0x10000)).toNat * 0x10000 +
        (UInt8.ofNat (n / 0x1000000)).toNat * 0x1000000 = n := by
      simp only [UInt8.toNat_ofNat']
      omega
    show Except.ok (_, rest) = Except.ok (n, rest)
    rw [value]
  · intro front inside short
    refine word_short (Nat.lt_of_le_of_ne inside.length_le fun count => ?_)
    exact short (inside.eq_of_length count)

theorem repeated_succ (item : Decoder α) (count : Nat) (items : Array α) :
    repeated item (count + 1) items =
      (item >>= fun value => repeated item count (items.push value)) := by
  funext bytes
  cases read : item bytes with
  | error e => simp only [bind_apply, repeated, read]
  | ok found => simp only [bind_apply, repeated, read]

/-- As many items as were written, each as it was. -/
theorem reads_repeated {item : Decoder α} (encode : α → List UInt8) {values : List α}
    (each : ∀ v ∈ values, Reads item (encode v) v) (items : Array α) :
    Reads (repeated item values.length items) (values.flatMap encode) (items ++ values.toArray) := by
  induction values generalizing items with
  | nil =>
    rw [Array.append_empty]
    exact Reads.pure items
  | cons first rest ih =>
    rw [List.length_cons, repeated_succ, List.flatMap_cons]
    have more := ih (fun v member => each v (List.mem_cons_of_mem _ member)) (items.push first)
    have all : items.push first ++ rest.toArray = items ++ (first :: rest).toArray := by simp
    rw [all] at more
    exact (each first List.mem_cons_self).bind more

theorem reads_vector {words : List Nat} (few : words.length < 0x100000000)
    (fit : FitWords words) : Reads vector (Bytes.vector words) words.toArray := by
  have items := reads_repeated Bytes.word (fun n member => reads_word (fit n member)) #[]
  rw [Array.empty_append] at items
  exact (reads_word few).bind items

/-! A missing value and the number that stands for it. -/

theorem absent_getD {value : Option Nat} (used : value ≠ some Bytes.missing) :
    absent (value.getD Bytes.missing) = value := by
  cases value with
  | none => rfl
  | some n => exact if_neg fun same => used (congrArg some same)

theorem getD_fits {value : Option Nat} (fit : FitWords value.toList) :
    value.getD Bytes.missing < 0x100000000 := by
  cases value with
  | none => decide
  | some n => exact fit n (by simp)

theorem reads_optional {value : Option Nat} (used : value ≠ some Bytes.missing)
    (fit : FitWords value.toList) : Reads optional (Bytes.optional value) value := by
  have read := (reads_word (getD_fits fit)).map (g := absent)
  rwa [absent_getD used] at read

end Decoder

end Scangen
