import Scangen.Automaton.Rules
import Scangen.Pattern.Language
import Scangen.Scan.Recognizer
import Scangen.Spec.Basic

/-!
What a longest match is, said without automata: a rule takes the front of an input if its words are
there and its anchors hold, and the best of all rules takes the most symbols or, among equals,
stands first.
-/

namespace Scangen

/-- A line ends where a line feed follows or nothing at all. -/
def EndsLine (rest : List Nat) : Prop := rest.head? = none ∨ rest.head? = some lineFeed

/-- A rule of the specification matches the front of an input in a condition. -/
inductive Spec.Takes (spec : Spec) (charset : Charset) (condition : Nat) (atLineStart : Bool) :
    List Nat → Match → Prop
  | intro {id : Nat} {rule : Rule} {pattern : Pattern} {token following rest : List Nat} :
      spec.rules[id]? = some rule → rule.pattern = .matching pattern →
      condition ∈ spec.activeConditions rule.conditions →
      (pattern.lineStart = true → atLineStart = true) →
      pattern.Matches charset token following →
      (pattern.lineEnd = true → EndsLine rest) →
      Takes spec charset condition atLineStart (token ++ following ++ rest)
        ⟨id, token.length, (token ++ following).length⟩

/-- More symbols, or as many and an earlier rule. -/
def Match.NotWorse (a b : Match) : Prop :=
  b.matched < a.matched ∨ a.matched = b.matched ∧ a.rule ≤ b.rule

/-- The match that a scanner should find, if there is one that reads anything. -/
def Spec.Best (spec : Spec) (charset : Charset) (condition : Nat) (atLineStart : Bool)
    (input : List Nat) (best : Option Match) : Prop :=
  match best with
  | none => ∀ m, spec.Takes charset condition atLineStart input m → m.matched = 0
  | some m =>
    spec.Takes charset condition atLineStart input m ∧ 1 ≤ m.matched ∧
      ∀ other, spec.Takes charset condition atLineStart input other → m.NotWorse other

/-- An active rule with this pattern matches just these symbols, whatever follows them. Limits of
repetitions are read as automata read them. -/
structure Spec.Fits (spec : Spec) (charset : Charset) (condition : Nat) (atLineStart : Bool)
    (read : List Nat) (id : Nat)
    (pattern : Pattern) : Prop where
  active : ∃ rule, spec.rules[id]? = some rule ∧ rule.pattern = .matching pattern ∧
    condition ∈ spec.activeConditions rule.conditions
  lineStart : pattern.lineStart = true → atLineStart = true
  words : ∃ token following, read = token ++ following ∧
    pattern.ordered.Matches charset token following

/-- An active rule with this pattern matches as many symbols at the front of an input, with its
body, its context and its anchors. -/
structure Spec.Fronts (spec : Spec) (charset : Charset) (condition : Nat)
    (atLineStart : Bool) (input : List Nat)
    (matched id : Nat) (pattern : Pattern) : Prop where
  inside : matched ≤ input.length
  fits : spec.Fits charset condition atLineStart (input.take matched) id pattern
  lineEnd : pattern.lineEnd = true → EndsLine (input.drop matched)

/-- The first of the rules that match as many symbols and, just as it does or does not, ask for the
end of the line. -/
structure Spec.Leads (spec : Spec) (charset : Charset) (condition : Nat)
    (atLineStart : Bool) (input : List Nat)
    (matched id : Nat) (pattern : Pattern) : Prop where
  fronts : spec.Fronts charset condition atLineStart input matched id pattern
  first : ∀ {id' pattern'}, spec.Fronts charset condition atLineStart input matched id' pattern' →
    pattern'.lineEnd = pattern.lineEnd → id ≤ id'

/-- A rule matches as many symbols with a token that is not empty, and no earlier rule does. -/
structure Spec.Due (spec : Spec) (charset : Charset) (condition : Nat)
    (atLineStart : Bool) (input : List Nat)
    (matched id : Nat) (pattern : Pattern) : Prop where
  fronts : spec.Fronts charset condition atLineStart input matched id pattern
  token : pattern.cut.tokenLength matched ≠ 0
  earlier : ∀ {id' pattern'}, spec.Fronts charset condition atLineStart input matched id' pattern' →
    id' < id →
    pattern'.cut.tokenLength matched = 0

/-- The best of all that have a property is one that no other beats. Nothing is the best if there is
none. -/
def Chosen {α : Type} (beats : α → α → Prop) (candidate : α → Prop) : Option α → Prop
  | none => ∀ a, ¬candidate a
  | some best => candidate best ∧ ∀ a, candidate a → ¬beats a best

namespace Recognizer

variable {σ : Type}

/-- The state after a word of classes; none if the word leads to the dead state. -/
def follow (r : Recognizer σ) (state : σ) : List Nat → Option σ
  | [] => some state
  | classId :: word => (r.step state classId).bind fun next => r.follow next word

/-- The tag behind a word of classes that starts where a condition does. -/
def tagAfter (r : Recognizer σ) (condition : Nat) (word : List Nat) : Option Tag :=
  ((r.start condition).bind fun state => r.follow state word).bind r.accept

/-- The class of a symbol that has one. -/
def classNumber (r : Recognizer σ) (c : Nat) : Nat := (r.classOf c).getD 0

/-- All of the symbols have a class. -/
def Knows (r : Recognizer σ) (symbols : List Nat) : Prop :=
  ∀ c ∈ symbols, ∃ classId, r.classOf c = some classId

/-- What is read before the first symbol. -/
def opening (r : Recognizer σ) (atLineStart : Bool) : List Nat :=
  if atLineStart then r.lineStart.toList else []

/-- What may be read behind the last symbol if these follow it: nothing or the end of a line. -/
def Closes (r : Recognizer σ) (rest ending : List Nat) : Prop :=
  ending = [] ∨ EndsLine rest ∧ ∃ classId, r.lineEnd = some classId ∧ ending = [classId]

/-- A tag is behind the first symbols of an input. -/
def Meets (r : Recognizer σ) (condition : Nat) (atLineStart : Bool) (input : List Nat)
    (met : Candidate) : Prop :=
  ∃ read rest ending, input = read ++ rest ∧ met.matched = read.length ∧ r.Knows read ∧
    r.Closes rest ending ∧
    r.tagAfter condition (r.opening atLineStart ++ read.map r.classNumber ++ ending) = some met.tag

/-- A tag is behind the first symbols of an input, and its token is not empty. -/
def Finds (r : Recognizer σ) (condition : Nat) (atLineStart : Bool) (input : List Nat)
    (found : Candidate) : Prop :=
  r.Meets condition atLineStart input found ∧ found.length ≠ 0

end Recognizer

end Scangen
