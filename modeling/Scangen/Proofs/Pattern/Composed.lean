import Scangen.Proofs.Pattern.Moved
import Scangen.Proofs.Pattern.Written

/-!
Rules put together from expressions. What stands around an expression in a rule does not change how it
is read, and in a text without the operators of a rule all of it is one expression.
-/

namespace Scangen

namespace Reader

variable {r r' s : Reader} {c : Char} {regex : Regex}

theorem read_keeps {text : List Char} (reached : r.read text = .ok s) :
    s.inRule = r.inRule ∧ s.lineStart = r.lineStart ∧ ∀ body ∈ r.body, s.body = some body := by
  refine holds_of_foldlM (P := fun s => s.inRule = r.inRule ∧ s.lineStart = r.lineStart ∧
    ∀ body ∈ r.body, s.body = some body) ?_ ⟨rfl, rfl, fun _ held => held⟩ reached
  intro before c after stepped kept
  have step := step_keeps stepped
  refine ⟨step.inRule.trans kept.1, step.lineStart.trans kept.2.1, fun body held => ?_⟩
  rcases step.body with same | ⟨_, nothing⟩
  · rw [same, kept.2.2 body held]
  · rw [kept.2.2 body held] at nothing
    cases nothing

/-- Characters that end no body are read alike in the body and in the context, at the start of a line
or not. -/
theorem step_elsewhere (lineStart : Bool) (body : Option Regex) (stepped : r.step c = .ok r')
    (bare : r'.body = none) :
    (r.moved r.inRule lineStart body).step c = .ok (r'.moved r.inRule lineStart body) := by
  have plain : ∀ {r : Reader}, r.stepPlain c = .ok r' →
      (r.moved r.inRule lineStart body).stepPlain c =
        .ok (r'.moved r.inRule lineStart body) := by
    intro r stepped
    by_cases slash : c = '/'
    · subst slash
      rw [stepPlain_slash] at stepped ⊢
      split at stepped
      · split at stepped <;> cases stepped
        cases bare
      next outside =>
        cases stepped
        exact if_neg outside
    · rw [stepPlain_moved r slash fun _ => rfl, stepped]
      rfl
  by_cases outside : r.AtFactor
  · rcases outside with mode | mode
    · rw [step_plain mode] at stepped
      rw [step_plain (r := r.moved r.inRule lineStart body) mode]
      exact plain stepped
    · rw [step_dollar mode] at stepped
      rw [step_dollar (r := r.moved r.inRule lineStart body) mode]
      exact plain stepped
  · rw [step_moved outside, stepped]
    rfl

theorem read_elsewhere {text : List Char} (lineStart : Bool) (body : Option Regex)
    (reached : r.read text = .ok s) (bare : s.body = none) :
    (r.moved r.inRule lineStart body).read text = .ok (s.moved r.inRule lineStart body) := by
  induction text generalizing r with
  | nil =>
    cases reached
    rfl
  | cons c rest ih =>
    obtain ⟨next, stepped, reached⟩ := exists_of_bind (f := fun next => read next rest) reached
    have before : next.body = none := by
      cases held : next.body with
      | none => rfl
      | some body =>
        rw [(read_keeps reached).2.2 body held] at bare
        cases bare
    have later := ih reached
    rw [(step_keeps stepped).inRule] at later
    rw [read_cons_of (step_elsewhere lineStart body stepped before), later]

/-- The reader has read all of this expression and nothing else of a rule. -/
structure Holds (s : Reader) (regex : Regex) : Prop where
  inRule : s.inRule = true
  mode : s.mode = .plain
  body : s.body = none
  closed : s.close = .ok regex

theorem finish_spec {p : Pattern} (finished : r.finish = .ok p) :
    ∃ regex, r.close = .ok regex ∧ p.lineStart = r.lineStart ∧
      (p.lineEnd = false → r.mode = .plain) ∧
      (p.context = none → r.body = none ∧ p.body = regex) := by
  unfold finish at finished
  dsimp only at finished
  split at finished
  case h_1 mode | h_2 mode =>
    obtain ⟨regex, closed, rfl⟩ := exists_of_map finished
    cases r.body with
    | none => exact ⟨regex, closed, rfl, by simp [mode], fun _ => ⟨rfl, rfl⟩⟩
    | some body => exact ⟨regex, closed, rfl, by simp [mode], by simp⟩
  all_goals cases finished

theorem exists_holds_of_ofText {text : List Char} {regex : Regex}
    (made : Pattern.ofText text = .ok (.ofRegex regex)) :
    (∃ s, (start true false).read text = .ok s ∧ s.Holds regex) ∧ text.head? ≠ some '^' := by
  have known : ∀ lineStart rest, ((start true lineStart).read rest).bind Reader.finish =
      .ok (.ofRegex regex) →
      lineStart = false ∧ ∃ s, (start true lineStart).read rest = .ok s ∧ s.Holds regex := by
    intro lineStart rest made
    obtain ⟨s, reached, finished⟩ := exists_of_bind made
    obtain ⟨inRule, begin, -⟩ := read_keeps reached
    obtain ⟨inner, closed, first, last, alone⟩ := finish_spec finished
    obtain ⟨body, same⟩ := alone rfl
    cases same
    exact ⟨begin.symm.trans first.symm, s, reached, inRule, last rfl, body, closed⟩
  unfold Pattern.ofText at made
  split at made
  next rest => exact absurd (known _ _ made).1 (by simp)
  next other =>
    refine ⟨(known _ _ made).2, ?_⟩
    cases text with
    | nil => simp
    | cons c rest =>
      intro caret
      cases caret
      exact other rest rfl

/-- A dollar sign may follow at the end. -/
theorem Holds.finish (holds : s.Holds regex) (lineStart : Bool) (body : Option Regex)
    (lineEnd : Bool) :
    ((s.moved true lineStart body).read (if lineEnd then ['$'] else [])).bind Reader.finish =
      .ok ⟨lineStart, body.getD regex, body.map fun _ => regex, lineEnd⟩ := by
  have closed : (s.moved true lineStart body).close = .ok regex := holds.closed
  have mode : (s.moved true lineStart body).mode = .plain := holds.mode
  cases lineEnd with
  | false =>
    show (s.moved true lineStart body).finish = _
    rw [Reader.finish, mode]
    dsimp only
    rw [closed]
    cases body <;> rfl
  | true =>
    have dollar : (s.moved true lineStart body).step '$' =
        .ok { s.moved true lineStart body with mode := .dollar } := by
      rw [step, mode]
      rfl
    show ((s.moved true lineStart body).read ['$']).bind Reader.finish = _
    rw [read_single, dollar]
    show Except.map _ (s.moved true lineStart body).close = _
    rw [closed]
    cases body <;> rfl

/-- Behind a slash, the reader starts anew. -/
theorem Holds.slash (holds : s.Holds regex) (lineStart : Bool) :
    (s.moved true lineStart none).step '/' =
      .ok ((start true false).moved true lineStart (some regex)) := by
  have closed : (s.moved true lineStart none).close = .ok regex := holds.closed
  have mode : (s.moved true lineStart none).mode = .plain := holds.mode
  have enclosing : (s.moved true lineStart none).enclosing = [] := by
    unfold close at closed
    split at closed
    · cases closed
    · split at closed
      next alone => exact List.isEmpty_iff.mp alone
      next => cases closed
  rw [step, mode]
  dsimp only
  rw [stepPlain_slash, closed]
  show Except.ok _ = _
  rw [enclosing, mode]
  rfl

/-- The same reader outside of any rule, where a dollar sign is a symbol as soon as it is read. -/
def asExpression (r : Reader) : Reader :=
  match r.mode with
  | .dollar => (r.push (.symbol '$'.toNat)).moved false r.lineStart r.body
  | _ => r.moved false r.lineStart r.body

theorem asExpression_of_ne_dollar (ordinary : r.mode ≠ .dollar) :
    r.asExpression = r.moved false r.lineStart r.body := by
  unfold asExpression
  split
  next dollar => exact absurd dollar ordinary
  next => rfl

theorem map_asExpression {result : Except PatternError Reader}
    (kept : ∀ s, result = .ok s → s.lineStart = r.lineStart ∧ s.body = r.body ∧ s.mode ≠ .dollar) :
    (result.map fun s => s.moved false r.lineStart r.body) = result.map asExpression := by
  cases result with
  | error e => rfl
  | ok s =>
    obtain ⟨lineStart, body, ordinary⟩ := kept s rfl
    rw [Except.map, Except.map, asExpression_of_ne_dollar ordinary, lineStart, body]

theorem stepPlain_asExpression (inRule : r.inRule = true) (plain : r.mode = .plain)
    (other : c ≠ '/') :
    (r.moved false r.lineStart r.body).stepPlain c = (r.stepPlain c).map asExpression := by
  by_cases dollar : c = '$'
  · subst dollar
    have symbol : r.stepPlain '$' = .ok { r with mode := .dollar } := if_pos inRule
    rw [symbol]
    rfl
  · rw [stepPlain_moved r other fun same => absurd same dollar]
    apply map_asExpression
    intro s stepped
    have kept := stepPlain_keeps stepped
    exact ⟨kept.lineStart, kept.body.resolve_right fun slash => other slash.1,
      stepPlain_ne_dollar plain dollar stepped⟩

theorem step_asExpression (inRule : r.inRule = true) (other : c ≠ '/') :
    r.asExpression.step c = (r.step c).map asExpression := by
  by_cases outside : r.AtFactor
  · rcases outside with mode | mode
    · rw [asExpression_of_ne_dollar (by simp [mode]), step_plain mode,
        step_plain (r := r.moved false r.lineStart r.body) mode]
      exact stepPlain_asExpression inRule mode other
    · -- in a rule, the dollar sign becomes a symbol only now
      rw [step_dollar mode, asExpression, mode, step_plain rfl]
      exact stepPlain_asExpression (r := r.push (.symbol '$'.toNat)) inRule rfl other
  · rw [asExpression_of_ne_dollar fun mode => outside (Or.inr mode), step_moved outside]
    apply map_asExpression
    intro s stepped
    have kept := step_keeps stepped
    exact ⟨kept.lineStart, kept.body.resolve_right fun slash => other slash.1,
      step_ne_dollar (fun inside => absurd inside outside) stepped⟩

theorem read_asExpression {text : List Char} (inRule : r.inRule = true) (single : '/' ∉ text) :
    r.asExpression.read text = (r.read text).map asExpression := by
  induction text generalizing r with
  | nil => rfl
  | cons c rest ih =>
    obtain ⟨first, later⟩ := not_or.mp (mt List.mem_cons.mpr single)
    rw [read_cons, read_cons, step_asExpression inRule (Ne.symm first)]
    cases stepped : r.step c with
    | error e => rfl
    | ok next => exact ih ((step_keeps stepped).inRule.trans inRule) later

/-- Without a slash no body ends. -/
theorem body_read {text : List Char} (reached : r.read text = .ok s) (single : '/' ∉ text) :
    s.body = r.body := by
  induction text generalizing r with
  | nil =>
    cases reached
    rfl
  | cons c rest ih =>
    obtain ⟨first, later⟩ := not_or.mp (mt List.mem_cons.mpr single)
    obtain ⟨next, stepped, reached⟩ := exists_of_bind (f := fun next => read next rest) reached
    rw [ih reached later]
    exact (step_keeps stepped).body.resolve_right fun slash => first slash.1.symm

theorem read_ne_dollar {text : List Char} (reached : r.read text = .ok s) (plain : r.mode ≠ .dollar)
    (ordinary : text.getLast? ≠ some '$') : s.mode ≠ .dollar := by
  rcases List.eq_nil_or_concat text with rfl | ⟨front, last, rfl⟩
  · cases reached
    exact plain
  · rw [List.concat_eq_append, read_append] at reached
    obtain ⟨before, -, stepped⟩ := exists_of_bind reached
    rw [read_single] at stepped
    exact step_ne_dollar (fun _ same => ordinary (by simp [same])) stepped

theorem finish_asExpression (ordinary : r.mode ≠ .dollar) (lineStart : r.lineStart = false)
    (nothing : r.body = none) :
    r.finish = (r.asExpression.finish.map Pattern.body).map .ofRegex := by
  rw [asExpression_of_ne_dollar ordinary]
  have closed : (r.moved false r.lineStart r.body).close = r.close := rfl
  have mode : (r.moved false r.lineStart r.body).mode = r.mode := rfl
  have body : (r.moved false r.lineStart r.body).body = r.body := rfl
  unfold finish
  dsimp only
  rw [mode, closed, body, nothing, lineStart]
  split
  next => cases r.close <;> rfl
  next dollar => exact absurd dollar ordinary
  all_goals rfl

end Reader

theorem Pattern.ofText_of_head {text : List Char} (caret : text.head? ≠ some '^') :
    Pattern.ofText text = ((Reader.start true false).read text).bind Reader.finish := by
  unfold Pattern.ofText
  split
  next => exact absurd rfl caret
  next => rfl

/-- The parts of a rule are read one after the other. -/
theorem Pattern.ofText_ruleText {b c : List Char} {body context : Regex}
    (bodyRead : Pattern.ofText b = .ok (.ofRegex body))
    (contextRead : Pattern.ofText c = .ok (.ofRegex context))
    (lineStart hasContext lineEnd : Bool) :
    Pattern.ofText (ruleText lineStart b (if hasContext then some c else none) lineEnd) =
      .ok ⟨lineStart, body, if hasContext then some context else none, lineEnd⟩ := by
  obtain ⟨⟨s, read, holds⟩, caret⟩ := Reader.exists_holds_of_ofText bodyRead
  obtain ⟨⟨t, behind, ends⟩, -⟩ := Reader.exists_holds_of_ofText contextRead
  have first : ((Reader.start true false).moved true lineStart none).read b =
      .ok (s.moved true lineStart none) := Reader.read_elsewhere lineStart none read holds.body
  have second : ((Reader.start true false).moved true lineStart (some body)).read c =
      .ok (t.moved true lineStart (some body)) :=
    Reader.read_elsewhere lineStart (some body) behind ends.body
  generalize following : (if hasContext then some c else none) = context'
  have start : Pattern.ofText (ruleText lineStart b context' lineEnd) =
      (((Reader.start true false).moved true lineStart none).read
        (ruleText false b context' lineEnd)).bind Reader.finish := by
    cases lineStart with
    | true => rfl
    | false =>
      apply Pattern.ofText_of_head
      cases b with
      | nil => cases context' <;> cases lineEnd <;> simp [ruleText]
      | cons d rest => exact caret
  have text : ruleText false b context' lineEnd =
      b ++ ((context'.map ('/' :: ·)).getD [] ++ if lineEnd then ['$'] else []) := by
    simp [ruleText]
  rw [start, text, Reader.read_append_of first, ← following]
  cases hasContext with
  | false => exact holds.finish lineStart none lineEnd
  | true =>
    show (((s.moved true lineStart none).read ('/' :: (c ++ _))).bind Reader.finish) = _
    rw [Reader.read_cons_of (holds.slash lineStart), Reader.read_append_of second]
    exact ends.finish lineStart (some body) lineEnd

/-- Without the operators of a rule, rules and expressions are read alike. -/
theorem Pattern.ofText_eq_map {text : List Char} (single : '/' ∉ text)
    (caret : text.head? ≠ some '^') (dollar : text.getLast? ≠ some '$') :
    Pattern.ofText text = (Regex.ofText text).map .ofRegex := by
  have same : (Reader.start false false).read text =
      ((Reader.start true false).read text).map Reader.asExpression :=
    Reader.read_asExpression (r := Reader.start true false) rfl single
  rw [Pattern.ofText_of_head caret, Regex.ofText, same]
  cases reached : (Reader.start true false).read text with
  | error e => rfl
  | ok s =>
    exact Reader.finish_asExpression (Reader.read_ne_dollar reached (by simp [Reader.start]) dollar)
      (Reader.read_keeps reached).2.1 (Reader.body_read reached single)

/-- A rule that is put together from the texts of two expressions, with anchors or without, has these
expressions as its parts. A text without the operators of a rule is read as a rule just as it is read
as an expression, with the same result or the same error. -/
theorem ofText_composed :
    (∀ (b c : List Char) (body context : Regex), Pattern.ofText b = .ok (.ofRegex body) →
      Pattern.ofText c = .ok (.ofRegex context) → ∀ lineStart hasContext lineEnd : Bool,
      Pattern.ofText (ruleText lineStart b (if hasContext then some c else none) lineEnd) =
        .ok ⟨lineStart, body, if hasContext then some context else none, lineEnd⟩) ∧
    ∀ text : List Char, '/' ∉ text → text.head? ≠ some '^' → text.getLast? ≠ some '$' →
      Pattern.ofText text = (Regex.ofText text).map .ofRegex :=
  ⟨fun _ _ _ _ => Pattern.ofText_ruleText, fun _ => Pattern.ofText_eq_map⟩

/-- Dollar signs and slashes that are no operators: in the middle, in quotes, in a class, escaped. -/
def plainSigns : Regex :=
  .concatenation
    [.symbol 97, .symbol 36,
      .alternation [.literal [47, 36], .symbolClass ⟨.ofRanges [.single 47, .single 36], false⟩],
      .symbol 36]

theorem plainSigns_composed :
    Pattern.ofText "a$(\"/$\"|[$/])\\$".toList = .ok (.ofRegex plainSigns) ∧
    Pattern.ofText "\\/+".toList = .ok (.ofRegex (.plus (.symbol 47))) ∧
    Pattern.ofText "^a$(\"/$\"|[$/])\\$/\\/+$".toList =
      .ok ⟨true, plainSigns, some (.plus (.symbol 47)), true⟩ ∧
    Pattern.ofText "a$(b".toList = (Regex.ofText "a$(b".toList).map .ofRegex ∧
    Regex.ofText "a$(b".toList = .error .unbalanced := by
  have body : Pattern.ofText "a$(\"/$\"|[$/])\\$".toList = .ok (.ofRegex plainSigns) := rfl
  have context : Pattern.ofText "\\/+".toList = .ok (.ofRegex (.plus (.symbol 47))) := rfl
  obtain ⟨composed, alike⟩ := ofText_composed
  exact ⟨body, context, composed _ _ _ _ body context true true true,
    alike _ (by decide) (by decide) (by decide), rfl⟩

end Scangen
