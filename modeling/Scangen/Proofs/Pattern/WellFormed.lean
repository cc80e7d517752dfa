import Scangen.Pattern.Writer
import Scangen.Proofs.Pattern.Read
import Scangen.Proofs.Text.Numeral

/-!
Whatever a reader makes of a text is well-formed. What it has read and what it keeps for later is so from
the start, and every character leaves it so.
-/

namespace Scangen

section Symbols

theorem isScalar_toNat (c : Char) : Regex.IsScalar c.toNat := c.valid

/-- An end of the hull of two ranges is an end of one of them. -/
theorem SymbolSet.forall_mem_insertRange {P : SymbolRange → Prop} {r : SymbolRange}
    {l : List SymbolRange} (hull : ∀ a b, P a → P b → P (a.hull b)) (new : P r)
    (old : ∀ s ∈ l, P s) : ∀ s ∈ insertRange r l, P s := by
  induction l generalizing r with
  | nil => simpa [insertRange] using new
  | cons head rest ih =>
    obtain ⟨first, later⟩ := List.forall_mem_cons.mp old
    rw [insertRange]
    split
    next => exact List.forall_mem_cons.mpr ⟨new, old⟩
    next =>
      split
      next => exact List.forall_mem_cons.mpr ⟨first, ih new later⟩
      next => exact ih (hull _ _ new first) later

def SymbolRange.ScalarEnds (r : SymbolRange) : Prop := Regex.IsScalar r.low ∧ Regex.IsScalar r.high

theorem SymbolRange.ScalarEnds.hull {a b : SymbolRange} (first : a.ScalarEnds)
    (second : b.ScalarEnds) : (a.hull b).ScalarEnds := by
  constructor
  · rcases Nat.le_total a.low b.low with less | less
    · simpa [SymbolRange.hull, less] using first.1
    · simpa [SymbolRange.hull, less] using second.1
  · rcases Nat.le_total a.high b.high with less | less
    · simpa [SymbolRange.hull, less] using second.2
    · simpa [SymbolRange.hull, less] using first.2

theorem SymbolSet.scalarEnds_ofRanges {l : List SymbolRange} (ends : ∀ r ∈ l, r.ScalarEnds) :
    ∀ r ∈ (ofRanges l).ranges, r.ScalarEnds := by
  induction l with
  | nil => exact fun _ member => nomatch member
  | cons head rest ih =>
    obtain ⟨first, later⟩ := List.forall_mem_cons.mp ends
    exact forall_mem_insertRange (fun _ _ => .hull) first (ih later)

theorem SymbolSet.ofRanges_ne_empty {l : List SymbolRange} (nonempty : l ≠ []) :
    ofRanges l ≠ ∅ := by
  obtain ⟨r, member⟩ := List.exists_mem_of_ne_nil l nonempty
  have low : r.low ∈ ofRanges l := mem_ofRanges.mpr ⟨r, member, r.low_mem⟩
  intro empty
  rw [empty] at low
  exact not_mem_empty _ low

end Symbols

namespace Regex

theorem allWellFormed_iff {rs : List Regex} : AllWellFormed rs ↔ ∀ r ∈ rs, r.WellFormed := by
  induction rs with
  | nil => simp [AllWellFormed]
  | cons r rest ih => simp [AllWellFormed, ih]

theorem wellFormed_sequence {factors : List Regex} (known : ∀ r ∈ factors, r.WellFormed) :
    (sequence factors).WellFormed := by
  match factors with
  | [] => trivial
  | [factor] => exact known factor List.mem_cons_self
  | first :: second :: others => exact ⟨by simp, allWellFormed_iff.mpr known⟩

theorem wellFormed_literal {symbols : List Nat} (scalar : ∀ c ∈ symbols, IsScalar c) :
    (literal symbols).WellFormed := by
  apply wellFormed_sequence
  intro r member
  obtain ⟨c, listed, rfl⟩ := List.mem_map.mp member
  exact scalar c listed

theorem wellFormed_anyButLineFeed : (symbolClass .anyButLineFeed).WellFormed := by
  have nonempty : (SymbolSet.single lineFeed) ≠ ∅ := by decide
  have scalar : IsScalar lineFeed := by
    unfold IsScalar
    decide
  exact ⟨nonempty, by simpa [SymbolClass.anyButLineFeed, SymbolSet.single, SymbolSet.ofRange,
    SymbolRange.single] using scalar⟩

end Regex

namespace Level

variable {level finished : Level} {regex : Regex}

structure WellFormed (level : Level) : Prop where
  alternates : ∀ r ∈ level.alternates, r.WellFormed
  factors : ∀ r ∈ level.factors, r.WellFormed

theorem wellFormed_fresh : fresh.WellFormed := ⟨by simp [fresh], by simp [fresh]⟩

theorem WellFormed.push (known : level.WellFormed) (factor : regex.WellFormed) :
    (level.push regex).WellFormed :=
  ⟨known.alternates, List.forall_mem_cons.mpr ⟨factor, known.factors⟩⟩

theorem WellFormed.finishAlternate (known : level.WellFormed)
    (made : level.finishAlternate = .ok finished) :
    finished.WellFormed ∧ finished.alternates ≠ [] := by
  unfold Level.finishAlternate at made
  split at made
  next => cases made
  next =>
    cases made
    have last : (Regex.sequence level.factors.reverse).WellFormed :=
      Regex.wellFormed_sequence (by simpa using known.factors)
    refine ⟨⟨?_, by simp⟩, by simp⟩
    intro r member
    rcases List.mem_append.mp member with old | new
    · exact known.alternates r old
    · exact List.mem_singleton.mp new ▸ last

theorem WellFormed.close (known : level.WellFormed) (made : level.close = .ok regex) :
    regex.WellFormed := by
  obtain ⟨finished, last, rfl⟩ := exists_of_map made
  obtain ⟨known, nonempty⟩ := known.finishAlternate last
  split
  next only alternates => exact known.alternates only (by simp [alternates])
  next several =>
    refine ⟨?_, Regex.allWellFormed_iff.mpr known.alternates⟩
    match alternates : finished.alternates with
    | [] => exact absurd alternates nonempty
    | [only] => exact absurd alternates (several only)
    | _ :: _ :: _ => simp

end Level

namespace Escape

variable {e : Escape} {c : Char} {n : Nat}

/-- Two digits at most belong to the number of a byte. -/
def Short : Escape → Prop
  | byteCode digits => digits.length ≤ 1
  | _ => True

/-- What may come out of a step. -/
def Sound : Escape ⊕ Nat → Prop
  | .inl more => more.Short
  | .inr n => Regex.IsScalar n

theorem isScalar_of_codePointValue {digits : List Char} (made : codePointValue digits = .ok n) :
    Regex.IsScalar n := by
  unfold codePointValue at made
  split at made
  next value found =>
    cases made
    have valid : n.isValidChar := of_decide_eq_true (Option.filter_eq_some_iff.mp found).2
    exact valid
  next => cases made

theorem isScalar_of_byte (small : n < 16 ^ 2) : Regex.IsScalar n := by
  unfold Regex.IsScalar Nat.isValidChar
  omega

theorem sound_of_next {result : Escape ⊕ Nat} (short : e.Short) (made : e.next c = .ok result) :
    Sound result := by
  unfold next at made
  split at made
  case h_1 | h_2 | h_3 | h_4 | h_5 | h_6 | h_7 =>
    -- a control character
    cases made
    exact isScalar_of_byte (by decide)
  case h_8 | h_9 | h_11 | h_13 | h_14 | h_17 =>
    -- more characters follow
    cases made
    simp [Sound, Short]
  case h_10 =>
    cases made
    exact isScalar_toNat c
  case h_12 digits c _ =>
    split at made
    next found =>
      cases made
      have small := Text.readWord_lt (by decide) found
      rw [List.length_append] at small
      apply isScalar_of_byte
      exact Nat.lt_of_lt_of_le small (Nat.pow_le_pow_right (by decide) (Nat.succ_le_succ short))
    next => cases made
  case h_15 =>
    split at made
    next =>
      cases made
      trivial
    next =>
      obtain ⟨n, value, rfl⟩ := exists_of_map made
      exact isScalar_of_codePointValue value
  case h_16 =>
    obtain ⟨n, value, rfl⟩ := exists_of_map made
    exact isScalar_of_codePointValue value

end Escape

theorem Reader.readNumber_small {text part : List Char} {n : Nat}
    (made : readNumber text part = .ok n) : n < UInt32.size := by
  unfold readNumber at made
  split at made
  next found =>
    cases made
    exact Text.readWord_small found
  next => cases made

/-- A count that is read is one of 32 bits, and in order. -/
theorem Reader.readCount_spec {text : List Char} {least : Nat} {most : Option Nat}
    (made : readCount text = .ok (least, most)) :
    least < UInt32.size ∧ ∀ limit ∈ most, least ≤ limit ∧ limit < UInt32.size := by
  unfold readCount at made
  split at made
  next =>
    obtain ⟨n, number, same⟩ := exists_of_map made
    obtain ⟨rfl, rfl⟩ := Prod.mk.inj same
    simpa using readNumber_small number
  next =>
    split at made
    next => cases made
    next first =>
      split at made
      next =>
        cases made
        simpa using readNumber_small first
      next =>
        split at made
        next => cases made
        next second =>
          split at made
          next => cases made
          next ordered =>
            cases made
            simpa using ⟨readNumber_small first, Nat.le_of_not_lt ordered, readNumber_small second⟩

def ClassItems.WellFormed (items : ClassItems) : Prop := ∀ r ∈ items.ranges, r.ScalarEnds

/-- What a mode keeps is made of characters. -/
def Mode.WellFormed : Mode → Prop
  | plain | dollar | count _ | classStart => True
  | escape e => e.Short
  | quoted symbols => ∀ c ∈ symbols, Regex.IsScalar c
  | quotedEscape symbols e => (∀ c ∈ symbols, Regex.IsScalar c) ∧ e.Short
  | classItem items => items.WellFormed
  | classEscape items e => items.WellFormed ∧ e.Short
  | classLow items low => items.WellFormed ∧ Regex.IsScalar low
  | classHyphen items low => items.WellFormed ∧ Regex.IsScalar low
  | classHighEscape items low e => items.WellFormed ∧ Regex.IsScalar low ∧ e.Short

theorem ClassItems.WellFormed.pushSymbol {items : ClassItems} {c : Nat} (known : items.WellFormed)
    (scalar : Regex.IsScalar c) : (Reader.ClassItems.pushSymbol items c).WellFormed := by
  have single : (SymbolRange.single c).ScalarEnds := ⟨scalar, scalar⟩
  exact List.forall_mem_cons.mpr ⟨single, known⟩

namespace Reader

variable {r r' : Reader} {c : Char} {regex : Regex} {items : ClassItems}

structure WellFormed (r : Reader) : Prop where
  body : ∀ regex ∈ r.body, regex.WellFormed
  enclosing : ∀ level ∈ r.enclosing, level.WellFormed
  level : r.level.WellFormed
  mode : r.mode.WellFormed

theorem wellFormed_start (inRule lineStart : Bool) : (start inRule lineStart).WellFormed where
  body := by simp [start]
  enclosing := by simp [start]
  level := Level.wellFormed_fresh
  mode := trivial

namespace WellFormed

variable (known : r.WellFormed)

include known

theorem withMode {mode : Mode} (kept : mode.WellFormed) : ({ r with mode } : Reader).WellFormed :=
  { known with mode := kept }

theorem push (factor : regex.WellFormed) : (r.push regex).WellFormed :=
  { known with level := known.level.push factor, mode := trivial }

theorem close (made : r.close = .ok regex) : regex.WellFormed := by
  unfold Reader.close at made
  split at made
  next => cases made
  next closed =>
    split at made
    next =>
      cases made
      exact known.level.close closed
    next => cases made

theorem postfixed {operator : Char} {apply : Regex → Regex}
    (applied : r.postfixed operator apply = .ok r')
    (kept : ∀ factor : Regex, factor.WellFormed → (apply factor).WellFormed) : r'.WellFormed := by
  unfold Reader.postfixed at applied
  split at applied
  next => cases applied
  next factor others factors =>
    cases applied
    have parts := known.level.factors
    rw [factors, List.forall_mem_cons] at parts
    have level : Level.WellFormed { r.level with factors := apply factor :: others } :=
      ⟨known.level.alternates, List.forall_mem_cons.mpr ⟨kept factor parts.1, parts.2⟩⟩
    exact { known with level }

theorem stepPlain (stepped : r.stepPlain c = .ok r') : r'.WellFormed := by
  cases plainStep_of_stepPlain stepped with
  | alternate made => exact { known with level := (known.level.finishAlternate made).1 }
  | opens =>
    have enclosing := List.forall_mem_cons.mpr ⟨known.level, known.enclosing⟩
    exact { known with enclosing, level := Level.wellFormed_fresh }
  | closes made enclosing =>
    have levels := known.enclosing
    rw [enclosing, List.forall_mem_cons] at levels
    exact { known with enclosing := levels.2, level := levels.1.push (known.level.close made) }
  | operator listed applied =>
    have kept : ∀ apply ∈ operators, ∀ factor : Regex, factor.WellFormed →
        (apply factor).WellFormed := by simp [operators, Regex.WellFormed]
    exact known.postfixed applied (kept _ listed)
  | starts listed =>
    have empty : ∀ mode ∈ startingModes, mode.WellFormed := by
      simp [startingModes, Mode.WellFormed, Escape.Short]
    exact known.withMode (empty _ listed)
  | pushes listed =>
    apply known.push
    simp only [List.mem_cons, List.not_mem_nil, or_false] at listed
    rcases listed with rfl | rfl
    · exact isScalar_toNat c
    · exact Regex.wellFormed_anyButLineFeed
  | @context body made nothing =>
    have body : ∀ regex ∈ some body, regex.WellFormed := by simpa using known.close made
    exact { known with body, level := Level.wellFormed_fresh }

theorem stepClass (fit : items.WellFormed) (stepped : r.stepClass items c = .ok r') :
    r'.WellFormed := by
  unfold Reader.stepClass at stepped
  split at stepped
  next =>
    split at stepped
    next => cases stepped
    next nonempty =>
      cases stepped
      apply known.push
      exact ⟨SymbolSet.ofRanges_ne_empty (by simpa using nonempty),
        SymbolSet.scalarEnds_ofRanges fit⟩
  next =>
    cases stepped
    exact known.withMode ⟨fit, trivial⟩
  next =>
    cases stepped
    exact known.withMode ⟨fit, isScalar_toNat c⟩

theorem pushRange {low high : Nat} (fit : items.WellFormed) (first : Regex.IsScalar low)
    (second : Regex.IsScalar high) (stepped : r.pushRange items low high = .ok r') :
    r'.WellFormed := by
  unfold Reader.pushRange at stepped
  split at stepped
  next =>
    cases stepped
    exact known.withMode (List.forall_mem_cons.mpr ⟨⟨first, second⟩, fit⟩)
  next => cases stepped

theorem stepEscape {e : Escape} {during : Escape → Mode} {after : Nat → Except PatternError Reader}
    (short : e.Short) (stepped : r.stepEscape e c during after = .ok r')
    (more : ∀ e : Escape, e.Short → (during e).WellFormed)
    (symbol : ∀ n, Regex.IsScalar n → ∀ r', after n = .ok r' → r'.WellFormed) : r'.WellFormed := by
  unfold Reader.stepEscape at stepped
  split at stepped
  next => cases stepped
  next later made =>
    cases stepped
    exact known.withMode (more later (Escape.sound_of_next short made))
  next n made => exact symbol n (Escape.sound_of_next short made) r' stepped

theorem step_quoted {symbols : List Nat} (mode : r.mode = .quoted symbols)
    (stepped : r.step c = .ok r') : r'.WellFormed := by
  have kept := known.mode
  rw [mode] at kept
  rcases cases_step_quoted mode stepped with rfl | rfl | rfl
  · exact known.push (Regex.wellFormed_literal kept)
  · exact known.withMode ⟨kept, trivial⟩
  · exact known.withMode (List.forall_mem_append.mpr ⟨kept, by simpa using isScalar_toNat c⟩)

theorem step_quotedEscape {symbols : List Nat} {e : Escape} (mode : r.mode = .quotedEscape symbols e)
    (stepped : r.step c = .ok r') : r'.WellFormed := by
  have kept := known.mode
  rw [mode] at kept
  rw [Reader.step, mode] at stepped
  refine known.stepEscape kept.2 stepped (fun _ short => ⟨kept.1, short⟩) fun n scalar r' pushed => ?_
  cases pushed
  exact known.withMode (List.forall_mem_append.mpr ⟨kept.1, by simpa using scalar⟩)

theorem step_count {text : List Char} (mode : r.mode = .count text) (stepped : r.step c = .ok r') :
    r'.WellFormed := by
  rcases cases_step_count mode stepped with ⟨least, most, counted, applied⟩ | rfl
  · obtain ⟨small, ordered⟩ := readCount_spec counted
    have plain : ({ r with mode := .plain } : Reader).WellFormed := known.withMode trivial
    exact plain.postfixed applied fun factor inner => ⟨small, ordered, inner⟩
  · exact known.withMode trivial

theorem step_classStart (mode : r.mode = .classStart) (stepped : r.step c = .ok r') :
    r'.WellFormed := by
  have empty : ∀ negated, ClassItems.WellFormed ⟨negated, []⟩ := by simp [ClassItems.WellFormed]
  rcases cases_step_classStart mode stepped with rfl | made
  · exact known.withMode (empty true)
  · exact known.stepClass (empty false) made

theorem step_classLow {low : Nat} (mode : r.mode = .classLow items low)
    (stepped : r.step c = .ok r') : r'.WellFormed := by
  have kept := known.mode
  rw [mode] at kept
  rcases cases_step_classLow mode stepped with rfl | made
  · exact known.withMode kept
  · exact known.stepClass (kept.1.pushSymbol kept.2) made

theorem step_classHyphen {low : Nat} (mode : r.mode = .classHyphen items low)
    (stepped : r.step c = .ok r') : r'.WellFormed := by
  have kept := known.mode
  rw [mode] at kept
  rcases cases_step_classHyphen mode stepped with made | rfl | made
  · have hyphen := (kept.1.pushSymbol kept.2).pushSymbol (isScalar_toNat '-')
    exact known.stepClass hyphen made
  · exact known.withMode ⟨kept.1, kept.2, trivial⟩
  · exact known.pushRange kept.1 kept.2 (isScalar_toNat c) made

theorem step (stepped : r.step c = .ok r') : r'.WellFormed := by
  have kept := known.mode
  cases mode : r.mode with
  | plain =>
    rw [Reader.step, mode] at stepped
    exact known.stepPlain stepped
  | dollar =>
    rw [Reader.step, mode] at stepped
    have dollar : (Regex.symbol '$'.toNat).WellFormed := isScalar_toNat '$'
    exact (known.push dollar).stepPlain stepped
  | escape e =>
    rw [Reader.step, mode] at stepped
    rw [mode] at kept
    refine known.stepEscape kept stepped (fun _ short => short) fun n scalar r' pushed => ?_
    cases pushed
    exact known.push scalar
  | quoted symbols => exact known.step_quoted mode stepped
  | quotedEscape symbols e => exact known.step_quotedEscape mode stepped
  | count text => exact known.step_count mode stepped
  | classStart => exact known.step_classStart mode stepped
  | classItem items =>
    rw [Reader.step, mode] at stepped
    rw [mode] at kept
    exact known.stepClass kept stepped
  | classEscape items e =>
    rw [Reader.step, mode] at stepped
    rw [mode] at kept
    refine known.stepEscape kept.2 stepped (fun _ short => ⟨kept.1, short⟩)
      fun n scalar r' pushed => ?_
    cases pushed
    exact known.withMode ⟨kept.1, scalar⟩
  | classLow items low => exact known.step_classLow mode stepped
  | classHyphen items low => exact known.step_classHyphen mode stepped
  | classHighEscape items low e =>
    rw [Reader.step, mode] at stepped
    rw [mode] at kept
    refine known.stepEscape kept.2.2 stepped (fun _ short => ⟨kept.1, kept.2.1, short⟩)
      fun n scalar r' pushed => ?_
    exact known.pushRange kept.1 kept.2.1 scalar pushed

theorem read {text : List Char} (reached : r.read text = .ok r') : r'.WellFormed :=
  holds_of_foldlM (fun _ _ _ stepped known => known.step stepped) known reached

theorem finish {pattern : Pattern} (finished : r.finish = .ok pattern) : pattern.WellFormed := by
  unfold Reader.finish at finished
  dsimp only at finished
  split at finished
  case h_1 | h_2 =>
    obtain ⟨regex, closed, rfl⟩ := exists_of_map finished
    have last := known.close closed
    split
    next => exact ⟨last, by simp⟩
    next body held => exact ⟨known.body body held, by simpa using last⟩
  all_goals cases finished

end WellFormed

end Reader

theorem Pattern.wellFormed_of_ofText {text : List Char} {pattern : Pattern}
    (made : Pattern.ofText text = .ok pattern) : pattern.WellFormed := by
  have known : ∀ lineStart rest, ((Reader.start true lineStart).read rest).bind Reader.finish =
      .ok pattern → pattern.WellFormed := by
    intro lineStart rest made
    obtain ⟨r, reached, finished⟩ := exists_of_bind made
    exact ((Reader.wellFormed_start true lineStart).read reached).finish finished
  unfold Pattern.ofText at made
  split at made
  next => exact known _ _ made
  next => exact known _ _ made

theorem Regex.wellFormed_of_ofText {text : List Char} {regex : Regex}
    (made : Regex.ofText text = .ok regex) : regex.WellFormed := by
  obtain ⟨r, reached, made⟩ := exists_of_bind made
  obtain ⟨pattern, finished, rfl⟩ := exists_of_map made
  exact (((Reader.wellFormed_start false false).read reached).finish finished).1

/-- Reading ends for every text, with a well-formed result or with an error. -/
theorem ofText_wellFormed (text : List Char) :
    ((∃ regex, Regex.ofText text = .ok regex ∧ regex.WellFormed) ∨
      ∃ e, Regex.ofText text = .error e) ∧
    ((∃ pattern, Pattern.ofText text = .ok pattern ∧ pattern.WellFormed) ∨
      ∃ e, Pattern.ofText text = .error e) := by
  constructor
  · cases made : Regex.ofText text with
    | ok regex => exact Or.inl ⟨regex, rfl, Regex.wellFormed_of_ofText made⟩
    | error e => exact Or.inr ⟨e, rfl⟩
  · cases made : Pattern.ofText text with
    | ok pattern => exact Or.inl ⟨pattern, rfl, Pattern.wellFormed_of_ofText made⟩
    | error e => exact Or.inr ⟨e, rfl⟩

end Scangen
