import Scangen.Proofs.Pattern.Read

/-!
The place where a reader stands: in a rule or not, at the start of a line, behind a body. It matters
to slashes and dollar signs where a factor may stand, and to no other character.
-/

namespace Scangen.Reader

variable {r r' s : Reader} {c : Char} {inRule lineStart : Bool} {body : Option Regex}

/-- The reader with the same open groups at another place of a rule, or in no rule at all. -/
def moved (r : Reader) (inRule lineStart : Bool) (body : Option Regex) : Reader :=
  { r with inRule, lineStart, body }

theorem postfixed_moved (r : Reader) (operator : Char) (apply : Regex → Regex) :
    (r.moved inRule lineStart body).postfixed operator apply =
      (r.postfixed operator apply).map fun s => s.moved inRule lineStart body := by
  have level : (r.moved inRule lineStart body).level = r.level := rfl
  unfold postfixed
  rw [level]
  cases r.level.factors <;> rfl

theorem stepPlain_moved (r : Reader) (other : c ≠ '/') (ordinary : c = '$' → inRule = r.inRule) :
    (r.moved inRule lineStart body).stepPlain c =
      (r.stepPlain c).map fun s => s.moved inRule lineStart body := by
  have level : (r.moved inRule lineStart body).level = r.level := rfl
  have enclosing : (r.moved inRule lineStart body).enclosing = r.enclosing := rfl
  unfold stepPlain
  split
  case h_1 =>
    rw [level]
    cases r.level.finishAlternate <;> rfl
  case h_2 => rfl
  case h_3 =>
    rw [level, enclosing]
    cases r.level.close with
    | error e => rfl
    | ok regex => cases r.enclosing <;> rfl
  case h_4 | h_5 | h_6 => exact postfixed_moved r _ _
  case h_7 =>
    rw [postfixed_moved]
    cases r.postfixed '\x7b' id <;> rfl
  case h_8 | h_9 | h_10 | h_11 => rfl
  case h_12 => exact absurd rfl other
  case h_13 =>
    obtain rfl : inRule = r.inRule := ordinary rfl
    have place : (r.moved r.inRule lineStart body).inRule = r.inRule := rfl
    rw [place]
    cases r.inRule <;> rfl
  case h_14 => rfl

/-- A factor or an operator may start here. -/
def AtFactor (r : Reader) : Prop := r.mode = .plain ∨ r.mode = .dollar

theorem step_plain (plain : r.mode = .plain) (c : Char) : r.step c = r.stepPlain c := by
  rw [step, plain]

theorem step_dollar (dollar : r.mode = .dollar) (c : Char) :
    r.step c = (r.push (.symbol '$'.toNat)).stepPlain c := by
  rw [step, dollar]

/-- What a character does inside of something that has several characters. -/
inductive Outcome where
  | fails (e : PatternError)
  | pushes (factor : Regex)
  | goesOn (mode : Mode) (inside : mode ≠ .dollar)
  | applies (operator : Char) (apply : Regex → Regex)

def Outcome.on (r : Reader) : Outcome → Except PatternError Reader
  | fails e => .error e
  | pushes factor => .ok (r.push factor)
  | goesOn mode _ => .ok { r with mode }
  | applies operator apply => ({ r with mode := .plain } : Reader).postfixed operator apply

theorem stepClass_outcome (items : ClassItems) (c : Char) :
    ∃ outcome : Outcome, ∀ r : Reader, r.stepClass items c = outcome.on r := by
  unfold stepClass
  split
  next =>
    split
    next => exact ⟨.fails _, fun _ => rfl⟩
    next => exact ⟨.pushes _, fun _ => rfl⟩
  next => exact ⟨.goesOn (.classEscape items .start) (by simp), fun _ => rfl⟩
  next => exact ⟨.goesOn (.classLow items c.toNat) (by simp), fun _ => rfl⟩

theorem pushRange_outcome (items : ClassItems) (low high : Nat) :
    ∃ outcome : Outcome, ∀ r : Reader, r.pushRange items low high = outcome.on r := by
  unfold pushRange
  split
  next ordered =>
    exact ⟨.goesOn (.classItem { items with ranges := ⟨low, high, ordered⟩ :: items.ranges })
      (by simp), fun _ => rfl⟩
  next => exact ⟨.fails _, fun _ => rfl⟩

theorem stepEscape_outcome (e : Escape) (c : Char) {during : Escape → Mode}
    {after : Reader → Nat → Except PatternError Reader} (more : ∀ e, during e ≠ .dollar)
    (symbol : ∀ n, ∃ outcome : Outcome, ∀ r, after r n = outcome.on r) :
    ∃ outcome : Outcome, ∀ r : Reader, r.stepEscape e c during (after r) = outcome.on r := by
  unfold stepEscape
  split
  next => exact ⟨.fails _, fun _ => rfl⟩
  next => exact ⟨.goesOn _ (more _), fun _ => rfl⟩
  next => exact symbol _

/-- It depends on the mode of the reader alone. -/
theorem step_outcome (inside : ¬r.AtFactor) (c : Char) :
    ∃ outcome : Outcome, ∀ s : Reader, s.mode = r.mode → s.step c = outcome.on s := by
  suffices ∃ outcome : Outcome, ∀ s : Reader, ({ s with mode := r.mode } : Reader).step c =
      outcome.on s by
    obtain ⟨outcome, same⟩ := this
    refine ⟨outcome, fun s mode => ?_⟩
    rw [← same s, ← mode]
  cases mode : r.mode with
  | plain => exact absurd (Or.inl mode) inside
  | dollar => exact absurd (Or.inr mode) inside
  | escape e => exact stepEscape_outcome e c (by simp) fun n => ⟨.pushes _, fun _ => rfl⟩
  | quoted symbols =>
    unfold step
    dsimp only
    split
    next => exact ⟨.pushes _, fun _ => rfl⟩
    next => exact ⟨.goesOn (.quotedEscape symbols .start) (by simp), fun _ => rfl⟩
    next => exact ⟨.goesOn (.quoted (symbols ++ [Char.toNat _])) (by simp), fun _ => rfl⟩
  | quotedEscape symbols e =>
    exact stepEscape_outcome e c (by simp) fun n =>
      ⟨.goesOn (.quoted (symbols ++ [n])) (by simp), fun _ => rfl⟩
  | count text =>
    unfold step
    dsimp only
    split
    next =>
      split
      next => exact ⟨.fails _, fun _ => rfl⟩
      next => exact ⟨.applies _ _, fun _ => rfl⟩
    next => exact ⟨.goesOn (.count (text ++ [_])) (by simp), fun _ => rfl⟩
  | classStart =>
    unfold step
    dsimp only
    split
    next => exact ⟨.goesOn (.classItem ⟨true, []⟩) (by simp), fun _ => rfl⟩
    next => exact stepClass_outcome _ c
  | classItem items => exact stepClass_outcome items c
  | classEscape items e =>
    exact stepEscape_outcome e c (by simp) fun n =>
      ⟨.goesOn (.classLow items n) (by simp), fun _ => rfl⟩
  | classLow items low =>
    unfold step
    dsimp only
    split
    next => exact ⟨.goesOn (.classHyphen items low) (by simp), fun _ => rfl⟩
    next => exact stepClass_outcome _ c
  | classHyphen items low =>
    unfold step
    dsimp only
    split
    next =>
      -- the hyphen is a symbol of its own
      exact stepClass_outcome
        (ClassItems.pushSymbol (ClassItems.pushSymbol items low) '-'.toNat) ']'
    next => exact ⟨.goesOn (.classHighEscape items low .start) (by simp), fun _ => rfl⟩
    next => exact pushRange_outcome items low _
  | classHighEscape items low e =>
    exact stepEscape_outcome e c (by simp) fun n => pushRange_outcome items low n

theorem step_moved (inside : ¬r.AtFactor) (c : Char) :
    (r.moved inRule lineStart body).step c =
      (r.step c).map fun s => s.moved inRule lineStart body := by
  obtain ⟨outcome, same⟩ := step_outcome inside c
  rw [same r rfl, same (r.moved inRule lineStart body) rfl]
  cases outcome with
  | applies operator apply => exact postfixed_moved { r with mode := .plain } operator apply
  | fails | pushes | goesOn => rfl

theorem eq_moved_of_map {result : Except PatternError Reader}
    (same : result = result.map fun s => s.moved inRule lineStart body) (made : result = .ok s) :
    s = s.moved inRule lineStart body := by
  rw [made] at same
  exact Except.ok.inj same

/-- A step leaves the reader where it is, unless a slash ends the body. -/
structure Keeps (r : Reader) (c : Char) (r' : Reader) : Prop where
  inRule : r'.inRule = r.inRule
  lineStart : r'.lineStart = r.lineStart
  body : r'.body = r.body ∨ c = '/' ∧ r.body = none

theorem Keeps.of_moved (same : r' = r'.moved r.inRule r.lineStart r.body) : r.Keeps c r' :=
  ⟨by rw [same]; rfl, by rw [same]; rfl, Or.inl (by rw [same]; rfl)⟩

theorem stepPlain_slash (r : Reader) :
    r.stepPlain '/' =
      if r.inRule then
        match r.close, r.body with
        | .error e, _ => .error e
        | .ok _, some _ => .error (.unexpected '/')
        | .ok body, none => .ok { r with body := some body, level := .fresh }
      else .ok (r.push (.symbol '/'.toNat)) := rfl

theorem stepPlain_keeps (stepped : r.stepPlain c = .ok r') : r.Keeps c r' := by
  by_cases slash : c = '/'
  · subst slash
    rw [stepPlain_slash] at stepped
    split at stepped
    · split at stepped
      · cases stepped
      · cases stepped
      next _ nothing =>
        cases stepped
        exact ⟨rfl, rfl, Or.inr ⟨rfl, nothing⟩⟩
    · cases stepped
      exact ⟨rfl, rfl, Or.inl rfl⟩
  · exact .of_moved (eq_moved_of_map (stepPlain_moved r slash fun _ => rfl) stepped)

theorem step_keeps (stepped : r.step c = .ok r') : r.Keeps c r' := by
  by_cases outside : r.AtFactor
  · rcases outside with mode | mode
    · rw [step_plain mode] at stepped
      exact stepPlain_keeps stepped
    · rw [step_dollar mode] at stepped
      have kept := stepPlain_keeps stepped
      exact ⟨kept.inRule, kept.lineStart, kept.body⟩
  · exact .of_moved (eq_moved_of_map (step_moved outside c) stepped)

theorem mode_postfixed {operator : Char} {apply : Regex → Regex}
    (applied : r.postfixed operator apply = .ok r') : r'.mode = r.mode := by
  unfold postfixed at applied
  split at applied
  · cases applied
  · cases applied
    rfl

theorem stepPlain_ne_dollar (plain : r.mode = .plain) (ordinary : c ≠ '$')
    (stepped : r.stepPlain c = .ok r') : r'.mode ≠ .dollar := by
  unfold stepPlain at stepped
  split at stepped
  case h_1 =>
    obtain ⟨level, _, rfl⟩ := exists_of_map stepped
    simp [plain]
  case h_3 =>
    split at stepped <;> cases stepped
    simp [plain]
  case h_4 | h_5 | h_6 => simp [mode_postfixed stepped, plain]
  case h_7 =>
    obtain ⟨_, _, rfl⟩ := exists_of_map stepped
    simp
  case h_12 =>
    split at stepped
    · split at stepped <;> cases stepped
      simp [plain]
    · cases stepped
      simp [push]
  case h_13 => exact absurd rfl ordinary
  all_goals
    cases stepped
    simp [push, plain]

/-- Only a dollar sign where a factor may stand can be one at the end. -/
theorem step_ne_dollar (ordinary : r.AtFactor → c ≠ '$') (stepped : r.step c = .ok r') :
    r'.mode ≠ .dollar := by
  by_cases outside : r.AtFactor
  · rcases outside with mode | mode
    · rw [step_plain mode] at stepped
      exact stepPlain_ne_dollar mode (ordinary (Or.inl mode)) stepped
    · rw [step_dollar mode] at stepped
      exact stepPlain_ne_dollar rfl (ordinary (Or.inr mode)) stepped
  · obtain ⟨outcome, same⟩ := step_outcome outside c
    rw [same r rfl] at stepped
    cases outcome with
    | fails => cases stepped
    | pushes factor =>
      cases stepped
      simp [push]
    | goesOn mode inside =>
      cases stepped
      exact inside
    | applies operator apply => simp [mode_postfixed stepped]

end Scangen.Reader
