import Scangen.Automaton.Tag
import Scangen.Symbol.Alphabet

/-!
Longest match on anything that reads an input class by class.
-/

namespace Scangen

/-- What a longest match needs. A missing state is dead. -/
structure Recognizer (σ : Type) where
  /-- The state in which a condition starts. -/
  start : Nat → Option σ
  step : σ → Nat → Option σ
  accept : σ → Option Tag
  classOf : Nat → Option Nat
  lineStart : Option Nat
  lineEnd : Option Nat

structure Match where
  rule : Nat
  /-- The length of the token. -/
  length : Nat
  /-- The number of symbols read, with the context that follows the token. -/
  matched : Nat
deriving DecidableEq

/-- A tag and the number of symbols after which it was found. -/
structure Candidate where
  matched : Nat
  tag : Tag
deriving DecidableEq

namespace Candidate

def length (c : Candidate) : Nat := c.tag.trailing.tokenLength c.matched

def toMatch (c : Candidate) : Match := ⟨c.tag.rule, c.length, c.matched⟩

/-- More symbols win; the order of tags decides between matches of the same length. -/
def Beats (a b : Candidate) : Prop :=
  b.matched < a.matched ∨ a.matched = b.matched ∧ a.tag.Before b.tag

instance (a b : Candidate) : Decidable (a.Beats b) := by
  unfold Beats
  infer_instance

/-- The better one of what has been found and a new candidate. Empty tokens do not count. -/
def improve (best : Option Candidate) (new : Candidate) : Option Candidate :=
  if new.length = 0 then best
  else
    match best with
    | none => some new
    | some old => if new.Beats old then some new else some old

end Candidate

namespace Recognizer

variable {σ : Type}

/-- The tags found in a state: its own and, at the end of a line, that of the state after it. -/
def tagsAt (r : Recognizer σ) (state : σ) (atLineEnd : Bool) : List Tag :=
  (r.accept state).toList ++
    if atLineEnd then ((r.lineEnd.bind (r.step state)).bind r.accept).toList else []

/-- The best candidate after taking those of one state into account. -/
def consider (r : Recognizer σ) (state : σ) (cursor : Nat) (atLineEnd : Bool)
    (best : Option Candidate) : Option Candidate :=
  (r.tagsAt state atLineEnd).foldl (fun best tag => Candidate.improve best ⟨cursor, tag⟩) best

/-- Reads on from a state after `cursor` symbols, as far as the state is alive. -/
def run (r : Recognizer σ) (state : σ) (cursor : Nat) (best : Option Candidate) :
    List Nat → Option Candidate
  | [] => r.consider state cursor true best
  | c :: rest =>
    let best := r.consider state cursor (c = lineFeed) best
    match (r.classOf c).bind (r.step state) with
    | none => best
    | some next => run r next (cursor + 1) best rest

/-- The state before the first symbol. -/
def initial (r : Recognizer σ) (condition : Nat) (atLineStart : Bool) : Option σ :=
  match r.start condition, atLineStart, r.lineStart with
  | some state, true, some classId => r.step state classId
  | state, _, _ => state

/-- The longest match at the start of the input. -/
def longestMatch (r : Recognizer σ) (condition : Nat) (input : List Nat) (atLineStart : Bool) :
    Option Match :=
  match r.initial condition atLineStart with
  | none => none
  | some state => (r.run state 0 none input).map Candidate.toMatch

end Recognizer

end Scangen
