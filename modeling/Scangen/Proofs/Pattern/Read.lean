import Scangen.Finite.Total
import Scangen.Pattern.Computed
import Scangen.Pattern.Reader

/-!
What a reader makes of a text: an expression with no more symbols and classes than the text has
characters. Each character adds at most one to what has been read and what is kept for later.
-/

namespace Scangen

section Results

variable {ε α β : Type} {result : Except ε α} {b : β}

theorem exists_of_map {f : α → β} (made : result.map f = .ok b) :
    ∃ a, result = .ok a ∧ f a = b := by
  cases result with
  | error e => cases made
  | ok a =>
    cases made
    exact ⟨a, rfl, rfl⟩

theorem exists_of_bind {f : α → Except ε β} (made : result.bind f = .ok b) :
    ∃ a, result = .ok a ∧ f a = .ok b := by
  cases result with
  | error e => cases made
  | ok a => exact ⟨a, rfl, made⟩

/-- What every step keeps holds at the end. -/
theorem holds_of_foldlM {P : β → Prop} {f : β → α → Except ε β} {l : List α} {done : β}
    (kept : ∀ before a after, f before a = .ok after → P before → P after) (start : P b)
    (made : l.foldlM f b = .ok done) : P done := by
  induction l generalizing b with
  | nil =>
    cases made
    exact start
  | cons a rest ih =>
    obtain ⟨next, stepped, made⟩ := exists_of_bind (f := fun next => rest.foldlM f next) made
    exact ih (kept b a next stepped start) made

end Results

namespace Regex

theorem leavesOfAll_append (first second : List Regex) :
    leavesOfAll (first ++ second) = leavesOfAll first + leavesOfAll second := by
  induction first with
  | nil => exact (Nat.zero_add _).symm
  | cons r rest ih => rw [List.cons_append, leavesOfAll, leavesOfAll, ih, Nat.add_assoc]

theorem leavesOfAll_reverse (rs : List Regex) : leavesOfAll rs.reverse = leavesOfAll rs := by
  induction rs with
  | nil => rfl
  | cons r rest ih =>
    rw [List.reverse_cons, leavesOfAll_append, ih, leavesOfAll, leavesOfAll, leavesOfAll,
      Nat.add_zero, Nat.add_comm]

theorem leaves_sequence (factors : List Regex) : (sequence factors).leaves = leavesOfAll factors := by
  match factors with
  | [] => rfl
  | [factor] => rfl
  | first :: second :: others => rfl

theorem leaves_literal (symbols : List Nat) : (literal symbols).leaves = symbols.length := by
  rw [literal, leaves_sequence]
  induction symbols with
  | nil => rfl
  | cons c rest ih => rw [List.map_cons, leavesOfAll, leaves, ih, List.length_cons, Nat.add_comm]

end Regex

namespace Level

variable {level finished : Level} {regex : Regex}

def leaves (level : Level) : Nat :=
  Regex.leavesOfAll level.alternates + Regex.leavesOfAll level.factors

theorem leaves_fresh : fresh.leaves = 0 := rfl

theorem leaves_push (level : Level) (factor : Regex) :
    (level.push factor).leaves = level.leaves + factor.leaves := by
  simp only [leaves, push, Regex.leavesOfAll]
  omega

theorem finishAlternate_spec (made : level.finishAlternate = .ok finished) :
    finished.leaves = level.leaves ∧ finished.factors = [] := by
  unfold finishAlternate at made
  split at made
  next => cases made
  next =>
    cases made
    simp only [leaves, Regex.leavesOfAll_append, Regex.leavesOfAll, Regex.leaves_sequence,
      Regex.leavesOfAll_reverse, Nat.add_zero, and_self]

theorem leaves_close (made : level.close = .ok regex) : regex.leaves = level.leaves := by
  obtain ⟨finished, last, made⟩ := exists_of_map made
  obtain ⟨same, empty⟩ := finishAlternate_spec last
  rw [← same, leaves, empty, Regex.leavesOfAll, Nat.add_zero, ← made]
  split
  next only alternates => rw [alternates, Regex.leavesOfAll, Regex.leavesOfAll, Nat.add_zero]
  next => rfl

end Level

/-- The symbols that are kept until the end of a string or a rule. -/
def Mode.pending : Mode → Nat
  | dollar => 1
  | quoted symbols => symbols.length
  | quotedEscape symbols _ => symbols.length
  | _ => 0

namespace Reader

variable {r r' : Reader} {c : Char}

/-- The symbols and classes in the body and in all open groups. -/
def stored (r : Reader) : Nat :=
  r.body.elim 0 Regex.leaves + total Level.leaves r.enclosing + r.level.leaves

/-- The symbols and classes that have been read. -/
def leaves (r : Reader) : Nat := r.stored + r.mode.pending

theorem leaves_push (r : Reader) (factor : Regex) :
    (r.push factor).leaves = r.stored + factor.leaves := by
  simp only [leaves, stored, push, Mode.pending, Level.leaves_push]
  omega

theorem leaves_postfixed {operator : Char} {apply : Regex → Regex}
    (stepped : r.postfixed operator apply = .ok r')
    (kept : ∀ factor, (apply factor).leaves = factor.leaves) : r'.leaves = r.leaves := by
  unfold postfixed at stepped
  split at stepped
  next => cases stepped
  next factor others factors =>
    cases stepped
    simp only [leaves, stored, Level.leaves, factors, Regex.leavesOfAll, kept]

theorem leaves_close {regex : Regex} (made : r.close = .ok regex) :
    regex.leaves = r.level.leaves := by
  unfold close at made
  split at made
  next => cases made
  next inner closed =>
    split at made
    next =>
      cases made
      exact Level.leaves_close closed
    next => cases made

/-- What a character may apply to the factor in front of it. -/
def operators : List (Regex → Regex) := [.star, .plus, .optional]

/-- The modes for what has several characters, and for a dollar sign. -/
def startingModes : List Mode := [.count [], .classStart, .quoted [], .escape .start, .dollar]

/-- What a character does where a factor or an operator may stand. -/
inductive PlainStep (r : Reader) (c : Char) : Reader → Prop
  | alternate {level : Level} : r.level.finishAlternate = .ok level → PlainStep r c { r with level }
  | opens : PlainStep r c { r with enclosing := r.level :: r.enclosing, level := .fresh }
  | closes {regex : Regex} {outer : Level} {others : List Level} :
      r.level.close = .ok regex → r.enclosing = outer :: others →
      PlainStep r c { r with enclosing := others, level := outer.push regex }
  | operator {apply : Regex → Regex} {r' : Reader} : apply ∈ operators →
      r.postfixed c apply = .ok r' → PlainStep r c r'
  | starts {mode : Mode} : mode ∈ startingModes → PlainStep r c { r with mode }
  | pushes {factor : Regex} : factor ∈ [.symbol c.toNat, .symbolClass .anyButLineFeed] →
      PlainStep r c (r.push factor)
  /-- The body of a rule ends, and its context starts. -/
  | context {body : Regex} : r.close = .ok body → r.body = none →
      PlainStep r c { r with body := some body, level := .fresh }

theorem plainStep_of_stepPlain (stepped : r.stepPlain c = .ok r') : PlainStep r c r' := by
  unfold stepPlain at stepped
  split at stepped
  case h_1 =>
    obtain ⟨level, made, rfl⟩ := exists_of_map stepped
    exact .alternate made
  case h_2 =>
    cases stepped
    exact .opens
  case h_3 =>
    split at stepped
    next => cases stepped
    next => cases stepped
    next made enclosing =>
      cases stepped
      exact .closes made enclosing
  case h_4 | h_5 | h_6 => exact .operator (by simp [operators]) stepped
  case h_7 =>
    -- only a count looks for a factor before it starts
    obtain ⟨_, _, rfl⟩ := exists_of_map stepped
    exact .starts (by simp [startingModes])
  case h_8 | h_9 | h_10 =>
    cases stepped
    exact .starts (by simp [startingModes])
  case h_11 =>
    cases stepped
    exact .pushes (by simp)
  case h_12 =>
    split at stepped
    next =>
      split at stepped
      next => cases stepped
      next => cases stepped
      next made nothing =>
        cases stepped
        exact .context made nothing
    next =>
      cases stepped
      exact .pushes (by simp)
  case h_13 =>
    split at stepped
    next =>
      cases stepped
      exact .starts (by simp [startingModes])
    next =>
      cases stepped
      exact .pushes (by simp)
  case h_14 =>
    cases stepped
    exact .pushes (by simp)

theorem leaves_stepPlain (idle : r.mode.pending = 0) (stepped : r.stepPlain c = .ok r') :
    r'.leaves ≤ r.stored + 1 := by
  have plain : r.leaves = r.stored := by rw [leaves, idle, Nat.add_zero]
  cases plainStep_of_stepPlain stepped with
  | alternate made =>
    have same := (Level.finishAlternate_spec made).1
    simp only [leaves, stored, idle, same]
    omega
  | opens =>
    simp only [leaves, stored, idle, total, Level.leaves_fresh]
    omega
  | closes made enclosing =>
    have same := Level.leaves_close made
    simp only [leaves, stored, idle, enclosing, total, Level.leaves_push, same]
    omega
  | operator known applied =>
    have kept : ∀ apply ∈ operators, ∀ factor, (apply factor).leaves = factor.leaves := by
      simp [operators, Regex.leaves]
    rw [leaves_postfixed applied (kept _ known), plain]
    exact Nat.le_succ _
  | @starts mode known =>
    have few : ∀ mode ∈ startingModes, mode.pending ≤ 1 := by simp [startingModes, Mode.pending]
    exact Nat.add_le_add_left (few mode known) r.stored
  | @pushes factor known =>
    have one : factor.leaves = 1 := by
      simp only [List.mem_cons, List.not_mem_nil, or_false] at known
      rcases known with rfl | rfl <;> rfl
    exact Nat.le_of_eq (by rw [leaves_push, one])
  | context made nothing =>
    have same := leaves_close made
    simp only [leaves, stored, idle, nothing, same, Level.leaves_fresh, Option.elim]
    omega

theorem leaves_stepClass {items : ClassItems} (stepped : r.stepClass items c = .ok r') :
    r'.leaves ≤ r.stored + 1 := by
  unfold stepClass at stepped
  split at stepped
  next =>
    split at stepped
    next => cases stepped
    next =>
      cases stepped
      exact Nat.le_of_eq (leaves_push r _)
  next =>
    cases stepped
    exact Nat.le_succ _
  next =>
    cases stepped
    exact Nat.le_succ _

theorem leaves_pushRange {items : ClassItems} {low high : Nat}
    (stepped : r.pushRange items low high = .ok r') : r'.leaves ≤ r.stored + 1 := by
  unfold pushRange at stepped
  split at stepped
  next =>
    cases stepped
    exact Nat.le_succ _
  next => cases stepped

/-- An escape sequence stands for one symbol at its end. -/
theorem leaves_stepEscape {e : Escape} {during : Escape → Mode}
    {after : Nat → Except PatternError Reader} {kept : Nat}
    (stepped : r.stepEscape e c during after = .ok r') (more : ∀ e, (during e).pending = kept)
    (symbol : ∀ n r', after n = .ok r' → r'.leaves ≤ r.stored + kept + 1) :
    r'.leaves ≤ r.stored + kept + 1 := by
  unfold stepEscape at stepped
  split at stepped
  next => cases stepped
  next later _ =>
    cases stepped
    show r.stored + (during later).pending ≤ _
    rw [more]
    exact Nat.le_succ _
  next n _ => exact symbol n r' stepped

/-! What a character does inside a quotation, a count or a class. -/

theorem cases_step_quoted {symbols : List Nat} (mode : r.mode = .quoted symbols)
    (stepped : r.step c = .ok r') :
    r' = r.push (.literal symbols) ∨ r' = { r with mode := .quotedEscape symbols .start } ∨
      r' = { r with mode := .quoted (symbols ++ [c.toNat]) } := by
  rw [step, mode] at stepped
  dsimp only at stepped
  split at stepped <;> cases stepped
  · exact Or.inl rfl
  · exact Or.inr (Or.inl rfl)
  · exact Or.inr (Or.inr rfl)

theorem cases_step_count {text : List Char} (mode : r.mode = .count text)
    (stepped : r.step c = .ok r') :
    (∃ least most, readCount text = .ok (least, most) ∧ ({ r with mode := .plain } : Reader).postfixed
      c (fun factor => .repetition factor least most) = .ok r') ∨
      r' = { r with mode := .count (text ++ [c]) } := by
  rw [step, mode] at stepped
  dsimp only at stepped
  split at stepped
  next =>
    split at stepped
    next => cases stepped
    next least most counted => exact Or.inl ⟨least, most, counted, stepped⟩
  next =>
    cases stepped
    exact Or.inr rfl

theorem cases_step_classStart (mode : r.mode = .classStart) (stepped : r.step c = .ok r') :
    r' = { r with mode := .classItem ⟨true, []⟩ } ∨ r.stepClass ⟨false, []⟩ c = .ok r' := by
  rw [step, mode] at stepped
  dsimp only at stepped
  split at stepped
  next =>
    cases stepped
    exact Or.inl rfl
  next => exact Or.inr stepped

theorem cases_step_classLow {items : ClassItems} {low : Nat} (mode : r.mode = .classLow items low)
    (stepped : r.step c = .ok r') :
    r' = { r with mode := .classHyphen items low } ∨
      r.stepClass (ClassItems.pushSymbol items low) c = .ok r' := by
  rw [step, mode] at stepped
  dsimp only at stepped
  split at stepped
  next =>
    cases stepped
    exact Or.inl rfl
  next => exact Or.inr stepped

theorem cases_step_classHyphen {items : ClassItems} {low : Nat}
    (mode : r.mode = .classHyphen items low) (stepped : r.step c = .ok r') :
    r.stepClass (ClassItems.pushSymbol (ClassItems.pushSymbol items low) '-'.toNat) c = .ok r' ∨
      r' = { r with mode := .classHighEscape items low .start } ∨
      r.pushRange items low c.toNat = .ok r' := by
  rw [step, mode] at stepped
  dsimp only at stepped
  split at stepped
  next => exact Or.inl stepped
  next =>
    cases stepped
    exact Or.inr (Or.inl rfl)
  next => exact Or.inr (Or.inr stepped)

theorem leaves_step_quoted {symbols : List Nat} (mode : r.mode = .quoted symbols)
    (stepped : r.step c = .ok r') : r'.leaves ≤ r.stored + symbols.length + 1 := by
  rcases cases_step_quoted mode stepped with rfl | rfl | rfl
  · rw [leaves_push, Regex.leaves_literal]
    exact Nat.le_succ _
  · exact Nat.le_succ _
  · show r.stored + (symbols ++ [_]).length ≤ _
    rw [List.length_append]
    exact Nat.le_refl _

theorem leaves_step_quotedEscape {symbols : List Nat} {e : Escape}
    (mode : r.mode = .quotedEscape symbols e) (stepped : r.step c = .ok r') :
    r'.leaves ≤ r.stored + symbols.length + 1 := by
  rw [step, mode] at stepped
  refine leaves_stepEscape stepped (fun _ => rfl) fun n r' pushed => ?_
  cases pushed
  show r.stored + (symbols ++ [n]).length ≤ _
  rw [List.length_append]
  exact Nat.le_refl _

theorem leaves_step_count {text : List Char} (mode : r.mode = .count text)
    (stepped : r.step c = .ok r') : r'.leaves ≤ r.stored + 1 := by
  rcases cases_step_count mode stepped with ⟨least, most, _, applied⟩ | rfl
  · rw [leaves_postfixed applied fun _ => rfl]
    exact Nat.le_succ _
  · exact Nat.le_succ _

theorem leaves_step_classHyphen {items : ClassItems} {low : Nat}
    (mode : r.mode = .classHyphen items low) (stepped : r.step c = .ok r') :
    r'.leaves ≤ r.stored + 1 := by
  rcases cases_step_classHyphen mode stepped with made | rfl | made
  · exact leaves_stepClass made
  · exact Nat.le_succ _
  · exact leaves_pushRange made

/-- Every character adds at most one symbol or class. -/
theorem leaves_step (stepped : r.step c = .ok r') : r'.leaves ≤ r.leaves + 1 := by
  show r'.leaves ≤ r.stored + r.mode.pending + 1
  cases mode : r.mode with
  | plain =>
    rw [step, mode] at stepped
    exact leaves_stepPlain (by rw [mode]; rfl) stepped
  | dollar =>
    rw [step, mode] at stepped
    have pushed : (r.push (.symbol '$'.toNat)).stored = r.stored + 1 := leaves_push r _
    have more := leaves_stepPlain rfl stepped
    rwa [pushed] at more
  | escape e =>
    rw [step, mode] at stepped
    refine leaves_stepEscape stepped (fun _ => rfl) fun n r' pushed => ?_
    cases pushed
    exact Nat.le_of_eq (leaves_push r _)
  | quoted symbols => exact leaves_step_quoted mode stepped
  | quotedEscape symbols e => exact leaves_step_quotedEscape mode stepped
  | count text => exact leaves_step_count mode stepped
  | classStart =>
    rcases cases_step_classStart mode stepped with rfl | made
    · exact Nat.le_succ _
    · exact leaves_stepClass made
  | classItem items =>
    rw [step, mode] at stepped
    exact leaves_stepClass stepped
  | classEscape items e =>
    rw [step, mode] at stepped
    refine leaves_stepEscape stepped (fun _ => rfl) fun n r' pushed => ?_
    cases pushed
    exact Nat.le_succ _
  | classLow items low =>
    rcases cases_step_classLow mode stepped with rfl | made
    · exact Nat.le_succ _
    · exact leaves_stepClass made
  | classHyphen items low => exact leaves_step_classHyphen mode stepped
  | classHighEscape items low e =>
    rw [step, mode] at stepped
    exact leaves_stepEscape stepped (fun _ => rfl) fun n r' pushed => leaves_pushRange pushed

theorem leaves_read {text : List Char} (reached : r.read text = .ok r') :
    r'.leaves ≤ r.leaves + text.length := by
  induction text generalizing r with
  | nil =>
    cases reached
    exact Nat.le_refl _
  | cons c rest ih =>
    obtain ⟨next, stepped, reached⟩ := exists_of_bind (f := fun next => read next rest) reached
    have later := ih reached
    have one := leaves_step stepped
    rw [List.length_cons]
    omega

theorem leaves_finish {pattern : Pattern} (finished : r.finish = .ok pattern) :
    pattern.body.leaves ≤ r.leaves := by
  have context : ∀ regex, r.close = .ok regex → regex.leaves ≤ r.leaves := by
    intro regex closed
    simp only [leaves, stored, leaves_close closed]
    omega
  have body : ∀ regex, r.body = some regex → regex.leaves ≤ r.leaves := by
    intro regex held
    simp only [leaves, stored, held, Option.elim]
    omega
  unfold finish at finished
  dsimp only at finished
  split at finished
  case h_1 | h_2 =>
    obtain ⟨regex, closed, rfl⟩ := exists_of_map finished
    split
    next => exact context regex closed
    next held => exact body _ held
  all_goals cases finished

end Reader

/-- Texts are at least as long as the expressions that are read from them. -/
theorem Regex.leaves_ofText {text : List Char} {r : Regex} (accepted : Regex.ofText text = .ok r) :
    r.leaves ≤ text.length := by
  obtain ⟨reader, reached, made⟩ := exists_of_bind accepted
  obtain ⟨pattern, finished, rfl⟩ := exists_of_map made
  have whole := Reader.leaves_finish finished
  have characters := Reader.leaves_read reached
  have nothing : (Reader.start false false).leaves = 0 := rfl
  omega

end Scangen
