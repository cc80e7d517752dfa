import Scangen.Pattern.Writer
import Scangen.Proofs.Pattern.WellFormed
import Scangen.Proofs.Symbol.Runs
import Scangen.Proofs.Text.Numeral

/-!
Reading takes a written expression back to the expression. The full form is built from texts of two
kinds: those that add one factor wherever a factor may stand, and those that a group may hold alone.
-/

namespace Scangen

namespace Escape

/-- A character has its own number, written in hexadecimal digits. -/
theorem codePointValue_toDigits {c : Nat} (scalar : Regex.IsScalar c) :
    codePointValue (Nat.toDigits 16 c) = .ok c := by
  have valid : c.isValidChar := scalar
  have small : c < UInt32.size := by
    unfold Nat.isValidChar at valid
    have size : UInt32.size = 4294967296 := rfl
    omega
  have read : Text.readWord 16 (Nat.toDigits 16 c) = some c :=
    Text.readWord_toDigits (by decide) (by decide) small
  simp only [codePointValue, read, Option.filter, decide_eq_true valid, if_true]

theorem next_braced {c : Char} {digits : List Char} (inside : c ≠ '\x7d') :
    (braced digits).next c = .ok (.inl (braced (digits ++ [c]))) := by
  unfold next
  split <;> simp_all

end Escape

namespace SymbolSet

theorem ranges_ne_nil {s : SymbolSet} (nonempty : s ≠ ∅) : s.ranges ≠ [] := by
  intro none
  apply nonempty
  cases s
  cases none
  rfl

theorem ofRanges_reverse_ranges (s : SymbolSet) : ofRanges s.ranges.reverse = s := by
  apply ext
  simp [mem_def (s := s)]

end SymbolSet

namespace Reader

variable {r s : Reader} {c : Nat}

theorem read_cons (r : Reader) (first : Char) (rest : List Char) :
    r.read (first :: rest) = (r.step first).bind fun s => s.read rest := rfl

theorem read_cons_of {first : Char} (stepped : r.step first = .ok s) (rest : List Char) :
    r.read (first :: rest) = s.read rest := by
  rw [read_cons, stepped]
  rfl

theorem read_append_of {first : List Char} (reached : r.read first = .ok s) (second : List Char) :
    r.read (first ++ second) = s.read second := by
  rw [read_append, reached]
  rfl

theorem read_single (r : Reader) (c : Char) : r.read [c] = r.step c := by
  rw [read_cons]
  cases r.step c <;> rfl

/-- Everything in front of the closing brace is kept, where every other character is. -/
theorem read_braced (during : List Char → Mode) {more : List Char}
    (kept : ∀ text c, c ≠ '\x7d' → ({ r with mode := during text } : Reader).step c =
      .ok { r with mode := during (text ++ [c]) })
    (inside : '\x7d' ∉ more) (text : List Char) :
    ({ r with mode := during text } : Reader).read more =
      .ok { r with mode := during (text ++ more) } := by
  induction more generalizing text with
  | nil =>
    rw [List.append_nil]
    rfl
  | cons c rest ih =>
    obtain ⟨first, later⟩ := not_or.mp (mt List.mem_cons.mpr inside)
    rw [read_cons_of (kept text c (Ne.symm first)), ih later, List.append_assoc,
      List.singleton_append]

/-- Escape sequences are read in these modes, and then the reader does what `after` says. -/
def Escapes (r : Reader) (during : Escape → Mode)
    (after : Nat → Except PatternError Reader) : Prop :=
  ∀ e c, ({ r with mode := during e } : Reader).step c = r.stepEscape e c during after

namespace Escapes

variable {during : Escape → Mode} {after : Nat → Except PatternError Reader}

/-- What stands behind the backslash of a written symbol. -/
theorem read_symbol (escapes : r.Escapes during after) (scalar : Regex.IsScalar c) :
    ({ r with mode := during .start } : Reader).read (writeSymbol c).tail = after c := by
  have text : (writeSymbol c).tail = 'u' :: '\x7b' :: (Nat.toDigits 16 c ++ ['\x7d']) := rfl
  have letter := escapes .start 'u'
  have brace := escapes .codePoint '\x7b'
  have kept : ∀ digits d, d ≠ '\x7d' →
      ({ r with mode := during (.braced digits) } : Reader).step d =
        .ok { r with mode := during (.braced (digits ++ [d])) } := by
    intro digits d inside
    rw [escapes, stepEscape, Escape.next_braced inside]
  have inside : '\x7d' ∉ Nat.toDigits 16 c :=
    Text.not_mem_toDigits (by decide) (by decide) (by decide) c
  have digits := read_braced (fun digits => during (.braced digits)) kept inside []
  rw [text, read_cons_of letter, read_cons_of brace, read_append_of digits, List.nil_append,
    read_single, escapes, stepEscape, Escape.next, Escape.codePointValue_toDigits scalar]
  rfl

end Escapes

/-- The reader with another innermost group, where a factor or an operator may stand. -/
def withLevel (r : Reader) (level : Level) : Reader := { r with level, mode := .plain }

variable {level : Level}

theorem push_withLevel (r : Reader) (level : Level) (factor : Regex) :
    (r.withLevel level).push factor = r.withLevel (level.push factor) := rfl

theorem step_withLevel (r : Reader) (level : Level) (c : Char) :
    (r.withLevel level).step c = (r.withLevel level).stepPlain c := rfl

/-- The text adds one factor. -/
def IsFactor (text : List Char) (regex : Regex) : Prop :=
  ∀ (r : Reader) (level : Level),
    (r.withLevel level).read text = .ok (r.withLevel (level.push regex))

/-- The text is all that a group holds. -/
def IsGroup (text : List Char) (regex : Regex) : Prop :=
  ∀ r : Reader, ∃ level, (r.withLevel .fresh).read text = .ok (r.withLevel level) ∧
    level.close = .ok regex

theorem isFactor_writeSymbol (scalar : Regex.IsScalar c) :
    IsFactor (writeSymbol c) (.symbol c) := by
  intro r level
  have backslash : (r.withLevel level).step '\\' =
      .ok { r.withLevel level with mode := .escape .start } := rfl
  have escapes : (r.withLevel level).Escapes .escape
      fun n => .ok (r.withLevel (level.push (.symbol n))) := fun e c => rfl
  exact (read_cons_of backslash _).trans (escapes.read_symbol scalar)

section Classes

/-- The symbols of a class in the modes where the next one may start. In front of a backslash or a
bracket, the last symbol is not the low end of a range. -/
inductive Between : ClassItems → Mode → Prop
  | start : Between ⟨false, []⟩ .classStart
  | item (items : ClassItems) : Between items (.classItem items)
  | low (items : ClassItems) (low : Nat) :
      Between (ClassItems.pushSymbol items low) (.classLow items low)

variable {items : ClassItems} {mode : Mode} {range : SymbolRange}

theorem Between.step_backslash (between : Between items mode) :
    ({ r with mode } : Reader).step '\\' = .ok { r with mode := .classEscape items .start } := by
  cases between <;> rfl

theorem Between.step_bracket (between : Between items mode) (nonempty : items.ranges ≠ []) :
    ({ r with mode } : Reader).step ']' =
      .ok (r.push (.symbolClass ⟨.ofRanges items.ranges, items.negated⟩)) := by
  have step : ({ r with mode } : Reader).step ']' = r.stepClass items ']' := by
    cases between <;> rfl
  rw [step, stepClass, if_neg (by simpa using nonempty)]

theorem Between.read_symbol (between : Between items mode) (scalar : Regex.IsScalar c) :
    ({ r with mode } : Reader).read (writeSymbol c) = .ok { r with mode := .classLow items c } := by
  have escapes : r.Escapes (.classEscape items) fun n => .ok { r with mode := .classLow items n } :=
    fun e c => rfl
  exact (read_cons_of between.step_backslash _).trans (escapes.read_symbol scalar)

theorem read_high (ordered : range.low ≤ range.high) (scalar : Regex.IsScalar range.high) :
    ({ r with mode := .classHyphen items range.low } : Reader).read (writeSymbol range.high) =
      .ok { r with mode := .classItem { items with ranges := range :: items.ranges } } := by
  have escapes : r.Escapes (.classHighEscape items range.low) (r.pushRange items range.low) :=
    fun e c => rfl
  have backslash : ({ r with mode := .classHyphen items range.low } : Reader).step '\\' =
      .ok { r with mode := .classHighEscape items range.low .start } := rfl
  have pushed : r.pushRange items range.low range.high =
      .ok { r with mode := .classItem { items with ranges := range :: items.ranges } } :=
    dif_pos ordered
  exact (read_cons_of backslash _).trans ((escapes.read_symbol scalar).trans pushed)

theorem Between.read_range (between : Between items mode) (ends : range.ScalarEnds) :
    ∃ after, ({ r with mode } : Reader).read range.write = .ok { r with mode := after } ∧
      Between { items with ranges := range :: items.ranges } after := by
  rw [SymbolRange.write]
  split
  next same =>
    have single : range = .single range.low := by
      cases range
      cases same
      rfl
    have low : Between { items with ranges := range :: items.ranges }
        (.classLow items range.low) := by
      rw [single]
      exact .low items range.low
    exact ⟨_, between.read_symbol ends.1, low⟩
  next =>
    have hyphen : ({ r with mode := .classLow items range.low } : Reader).step '-' =
        .ok { r with mode := .classHyphen items range.low } := rfl
    refine ⟨_, ?_, .item _⟩
    rw [read_append_of (between.read_symbol ends.1), read_cons_of hyphen]
    exact read_high range.low_le_high ends.2

theorem Between.read_ranges {ranges : List SymbolRange} (between : Between items mode)
    (ends : ∀ range ∈ ranges, range.ScalarEnds) :
    ∃ after, ({ r with mode } : Reader).read (ranges.flatMap SymbolRange.write) =
        .ok { r with mode := after } ∧
      Between { items with ranges := ranges.reverse ++ items.ranges } after := by
  induction ranges generalizing items mode with
  | nil => exact ⟨mode, rfl, between⟩
  | cons range rest ih =>
    obtain ⟨first, later⟩ := List.forall_mem_cons.mp ends
    obtain ⟨next, one, between⟩ := between.read_range (r := r) first
    obtain ⟨after, others, between⟩ := ih between later
    refine ⟨after, ?_, ?_⟩
    · rw [List.flatMap_cons, read_append_of one, others]
    · rw [List.reverse_cons, List.append_assoc]
      exact between

theorem isFactor_writeClass {symbols : SymbolClass} (nonempty : symbols.ranges ≠ ∅)
    (ends : ∀ range ∈ symbols.ranges.ranges, range.ScalarEnds) :
    IsFactor symbols.write (.symbolClass symbols) := by
  intro outer level
  generalize start : outer.withLevel level = r
  have bracket : r.step '[' = .ok { r with mode := .classStart } := by
    rw [← start]
    rfl
  have negation : ∃ mode, ({ r with mode := .classStart } : Reader).read
      (if symbols.negated then ['^'] else []) = .ok { r with mode } ∧
        Between ⟨symbols.negated, []⟩ mode := by
    cases symbols.negated with
    | true => exact ⟨_, rfl, .item _⟩
    | false => exact ⟨_, rfl, .start⟩
  obtain ⟨first, negated, between⟩ := negation
  obtain ⟨last, items, between⟩ := between.read_ranges (r := r) ends
  rw [List.append_nil] at between
  have members : symbols.ranges.ranges.reverse ≠ [] := by
    simpa using SymbolSet.ranges_ne_nil nonempty
  calc
    r.read symbols.write
    _ = ({ r with mode := first } : Reader).read
          (symbols.ranges.ranges.flatMap SymbolRange.write ++ [']']) := by
      rw [SymbolClass.write, List.cons_append, List.cons_append, List.append_assoc,
        read_cons_of bracket, read_append_of negated]
    _ = ({ r with mode := last } : Reader).step ']' := by rw [read_append_of items, read_single]
    _ = .ok (r.push (.symbolClass ⟨.ofRanges symbols.ranges.ranges.reverse, symbols.negated⟩)) :=
      between.step_bracket members
    _ = .ok (r.push (.symbolClass symbols)) := by rw [SymbolSet.ofRanges_reverse_ranges]
    _ = .ok (outer.withLevel (level.push (.symbolClass symbols))) := by rw [← start, push_withLevel]

end Classes

section Operators

variable {regex : Regex} {least : Nat} {most : Option Nat}

theorem readCount_written (small : least < UInt32.size)
    (ordered : ∀ limit ∈ most, least ≤ limit ∧ limit < UInt32.size) :
    readCount (Nat.toDigits 10 least ++ ',' :: (most.map (Nat.toDigits 10)).getD []) =
      .ok (least, most) := by
  have visible : ∀ n, ∀ c ∈ Nat.toDigits 10 n, Text.isBlank c = false := by
    intro n c member
    obtain ⟨digit, small, rfl⟩ := Text.exists_of_mem_toDigits (by decide) member
    exact (by decide : ∀ digit < 10, Text.isBlank digit.digitChar = false) digit small
  have number : ∀ text n, n < UInt32.size → readNumber text (Nat.toDigits 10 n) = .ok n := by
    intro text n small
    have read : Text.readWord 10 (Nat.toDigits 10 n) = some n :=
      Text.readWord_toDigits (by decide) (by decide) small
    rw [readNumber, Text.trim_eq_self (visible n), read]
  have comma : ',' ∉ Nat.toDigits 10 least :=
    Text.not_mem_toDigits (by decide) (by decide) (by decide) least
  rw [readCount, Text.splitFirst_append comma]
  dsimp only
  rw [number _ least small]
  cases most with
  | none => rfl
  | some limit =>
    obtain ⟨least_le, small⟩ := ordered limit rfl
    have written : (Text.trim (Nat.toDigits 10 limit)).isEmpty = false := by
      rw [Text.trim_eq_self (visible limit)]
      simp [Nat.toDigits_ne_nil]
    simp [written, number _ limit small, least_le]

theorem step_count {text : List Char} {c : Char} (inside : c ≠ '\x7d') :
    ({ r with mode := .count text } : Reader).step c =
      .ok { r with mode := .count (text ++ [c]) } := by
  unfold step
  dsimp only
  split
  next => exact absurd rfl inside
  next => rfl

theorem read_writeCount (small : least < UInt32.size)
    (ordered : ∀ limit ∈ most, least ≤ limit ∧ limit < UInt32.size) :
    (r.withLevel (level.push regex)).read (writeCount least most) =
      .ok (r.withLevel (level.push (.repetition regex least most))) := by
  have brace : (r.withLevel (level.push regex)).step '\x7b' =
      .ok { r.withLevel (level.push regex) with mode := .count [] } := rfl
  have inside : '\x7d' ∉ Nat.toDigits 10 least ++ ',' :: (most.map (Nat.toDigits 10)).getD [] := by
    have digits : ∀ n, '\x7d' ∉ Nat.toDigits 10 n :=
      Text.not_mem_toDigits (by decide) (by decide) (by decide)
    cases most with
    | none => simp [digits least]
    | some limit => simp [digits least, digits limit]
  have count := read_braced (r := r.withLevel (level.push regex)) .count
    (fun _ _ => step_count) inside []
  rw [writeCount, List.cons_append, List.cons_append, read_cons_of brace,
    read_append_of count, List.nil_append, read_single]
  show ({ r.withLevel (level.push regex) with mode := .count _ } : Reader).step '\x7d' = _
  simp only [step, readCount_written small ordered]
  rfl

end Operators

section Groups

variable {text : List Char} {regex : Regex}

theorem IsFactor.isGroup (factor : IsFactor text regex) : IsGroup text regex :=
  fun r => ⟨Level.fresh.push regex, factor r .fresh, rfl⟩

theorem IsGroup.inParentheses (group : IsGroup text regex) :
    IsFactor (inParentheses text) regex := by
  intro r outer
  have opening : (r.withLevel outer).step '(' =
      .ok (withLevel { r with enclosing := outer :: r.enclosing } .fresh) := rfl
  obtain ⟨level, inside, closed⟩ := group { r with enclosing := outer :: r.enclosing }
  have closing : (withLevel { r with enclosing := outer :: r.enclosing } level).step ')' =
      .ok (r.withLevel (outer.push regex)) := by
    rw [step_withLevel, stepPlain]
    simp only [withLevel, closed]
  rw [Scangen.inParentheses, List.cons_append, read_cons_of opening, read_append_of inside,
    read_single, closing]

/-- An operator behind a group is put on all of it. -/
theorem IsGroup.operated {operator : List Char} (group : IsGroup text regex)
    (apply : Regex → Regex)
    (applied : ∀ (r : Reader) (level : Level), (r.withLevel (level.push regex)).read operator =
      .ok (r.withLevel (level.push (apply regex)))) :
    IsGroup (Scangen.inParentheses text ++ operator) (apply regex) := by
  apply IsFactor.isGroup
  intro r level
  rw [read_append_of (group.inParentheses r level), applied]

theorem isFactor_empty : IsFactor ['"', '"'] .empty := fun _ _ => rfl

section Parts

variable {parts : List Regex}
  (known : ∀ part ∈ parts, IsFactor (Scangen.inParentheses part.write) part)

include known

theorem read_writeFactors (r : Reader) (level : Level) :
    (r.withLevel level).read (Regex.writeFactors parts) =
      .ok (r.withLevel ⟨level.alternates, parts.reverse ++ level.factors⟩) := by
  induction parts generalizing level with
  | nil => rfl
  | cons first rest ih =>
    obtain ⟨one, others⟩ := List.forall_mem_cons.mp known
    rw [Regex.writeFactors, read_append_of (one r level), ih others, List.reverse_cons,
      List.append_assoc]
    rfl

theorem isGroup_writeFactors (several : 2 ≤ parts.length) :
    IsGroup (Regex.writeFactors parts) (.concatenation parts) := by
  intro r
  refine ⟨_, read_writeFactors known r .fresh, ?_⟩
  match parts, several with
  | first :: second :: others, _ =>
    simp [Level.close, Level.finishAlternate, Level.fresh, Regex.sequence, Except.map]

/-- The alternates that are read, with the last one not yet finished. -/
theorem read_writeAlternates (nonempty : parts ≠ []) (r : Reader) (before : List Regex) :
    ∃ level,
      (r.withLevel ⟨before, []⟩).read (Regex.writeAlternates parts) = .ok (r.withLevel level) ∧
      level.finishAlternate = .ok ⟨before ++ parts, []⟩ := by
  induction parts generalizing before with
  | nil => exact absurd rfl nonempty
  | cons first rest ih =>
    obtain ⟨one, others⟩ := List.forall_mem_cons.mp known
    have finished : (Level.push ⟨before, []⟩ first).finishAlternate =
        .ok ⟨before ++ [first], []⟩ := rfl
    match rest with
    | [] => exact ⟨_, one r ⟨before, []⟩, finished⟩
    | second :: more =>
      have bar : (r.withLevel (Level.push ⟨before, []⟩ first)).step '|' =
          .ok (r.withLevel ⟨before ++ [first], []⟩) := rfl
      obtain ⟨level, reached, last⟩ := ih others (List.cons_ne_nil _ _) (before ++ [first])
      refine ⟨level, ?_, ?_⟩
      · rw [Regex.writeAlternates, read_append_of (one r _), read_cons_of bar, reached]
      · rw [last, List.append_assoc, List.singleton_append]

theorem isGroup_writeAlternates (several : 2 ≤ parts.length) :
    IsGroup (Regex.writeAlternates parts) (.alternation parts) := by
  intro r
  match parts, several with
  | first :: second :: others, _ =>
    obtain ⟨level, reached, last⟩ := read_writeAlternates known (List.cons_ne_nil _ _) r []
    refine ⟨level, reached, ?_⟩
    rw [Level.close, last]
    rfl

end Parts

end Groups

end Reader

namespace Regex

open Reader

mutual

theorem isGroup_write : ∀ r : Regex, r.WellFormed → IsGroup r.write r
  | alternation alternates, ⟨several, parts⟩ =>
    isGroup_writeAlternates (isFactor_write_of_mem alternates parts) several
  | concatenation factors, ⟨several, parts⟩ =>
    isGroup_writeFactors (isFactor_write_of_mem factors parts) several
  | star inner, known => (isGroup_write inner known).operated star fun _ _ => rfl
  | plus inner, known => (isGroup_write inner known).operated plus fun _ _ => rfl
  | optional inner, known => (isGroup_write inner known).operated optional fun _ _ => rfl
  | repetition inner least most, ⟨small, ordered, known⟩ =>
    (isGroup_write inner known).operated (repetition · least most)
      fun _ _ => read_writeCount small ordered
  | symbol _, scalar => (isFactor_writeSymbol scalar).isGroup
  | symbolClass _, ⟨nonempty, ends⟩ => (isFactor_writeClass nonempty ends).isGroup
  | empty, _ => isFactor_empty.isGroup

theorem isFactor_write_of_mem : ∀ rs : List Regex, AllWellFormed rs →
    ∀ r ∈ rs, IsFactor (inParentheses r.write) r
  | [], _ => fun _ member => nomatch member
  | first :: rest, ⟨known, others⟩ => List.forall_mem_cons.mpr
    ⟨(isGroup_write first known).inParentheses, isFactor_write_of_mem rest others⟩

end

/-- A written expression starts with a parenthesis, a backslash, a bracket or a quotation mark. -/
theorem head?_write_ne_caret {r : Regex} (known : r.WellFormed) : r.write.head? ≠ some '^' := by
  cases r with
  | alternation alternates =>
    match alternates, known.1 with
    | first :: second :: others, _ => simp [write, writeAlternates, inParentheses]
  | concatenation factors =>
    match factors, known.1 with
    | first :: others, _ => simp [write, writeFactors, inParentheses]
  | star | plus | optional | repetition => simp [write, inParentheses]
  | symbol c => simp [write, writeSymbol]
  | symbolClass c => simp [write, SymbolClass.write]
  | empty => simp [write]

end Regex

/-- The reader of a whole text starts in a group without parentheses. -/
theorem Reader.IsGroup.finish {text : List Char} {r : Regex} (group : IsGroup text r)
    (inRule lineStart : Bool) :
    ((start inRule lineStart).read text).bind Reader.finish = .ok ⟨lineStart, r, none, false⟩ := by
  obtain ⟨level, reached, closed⟩ := group (start inRule lineStart)
  have whole : (start inRule lineStart).read text =
      .ok ((start inRule lineStart).withLevel level) := reached
  have body : ((start inRule lineStart).withLevel level).close = .ok r := by
    simp [Reader.close, withLevel, closed, start]
  calc
    ((start inRule lineStart).read text).bind Reader.finish
    _ = ((start inRule lineStart).withLevel level).finish := by
      rw [whole]
      rfl
    _ = ((start inRule lineStart).withLevel level).close.map fun regex =>
          ⟨lineStart, regex, none, false⟩ := rfl
    _ = .ok ⟨lineStart, r, none, false⟩ := by
      rw [body]
      rfl

/-- Reading inverts writing, both for expressions and for patterns of rules. -/
theorem ofText_write (r : Regex) (known : r.WellFormed) :
    Regex.ofText r.write = .ok r ∧ Pattern.ofText r.write = .ok (.ofRegex r) := by
  have group := Regex.isGroup_write r known
  constructor
  · have read := group.finish false false
    obtain ⟨reader, reached, finished⟩ := exists_of_bind read
    rw [Regex.ofText, reached, Except.bind, finished]
    rfl
  · have first := Regex.head?_write_ne_caret known
    unfold Pattern.ofText
    split
    next same => exact absurd (by rw [same]; rfl) first
    next => exact group.finish true false

/-- An expression with every operator, and with a class that has several ranges. -/
def everyForm : Regex :=
  .alternation
    [.concatenation
        [.star (.symbol 0x61),
          .symbolClass ⟨.ofRanges [⟨0x30, 0x37, by decide⟩, .single 0x2D], true⟩],
      .repetition (.plus (.optional .empty)) 2 (some 5), .repetition (.symbol 0x10FFFF) 0 none]

theorem everyForm_wellFormed : everyForm.WellFormed := by
  simp only [everyForm, Regex.WellFormed, Regex.AllWellFormed, Regex.IsScalar]
  decide

theorem everyForm_read : everyForm.WellFormed ∧ Regex.ofText everyForm.write = .ok everyForm ∧
    Pattern.ofText everyForm.write = .ok (.ofRegex everyForm) :=
  ⟨everyForm_wellFormed, ofText_write everyForm everyForm_wellFormed⟩

example : String.ofList everyForm.write =
    "(((\\u\x7b61\x7d)*)([^\\u\x7b2d\x7d\\u\x7b30\x7d-\\u\x7b37\x7d]))|" ++
      "((((\"\")?)+)\x7b2,5\x7d)|((\\u\x7b10ffff\x7d)\x7b0,\x7d)" := by
  decide

end Scangen
