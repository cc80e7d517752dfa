import Scangen.Scan.Meaning

/-!
What a longest match does on its way: the places that it looks up in a recognizer, and the candidates
whose tokens it measures.
-/

namespace Scangen

/-- A place that a longest match looks up. -/
inductive Lookup (σ : Type) where
  | start (condition : Nat)
  | tag (state : σ)
  | successor (state : σ) (classId : Nat)

namespace Recognizer

variable {σ : Type}

/-- Two recognizers have the same at a place. -/
def Agrees (r r' : Recognizer σ) : Lookup σ → Prop
  | .start condition => r.start condition = r'.start condition
  | .tag state => r.accept state = r'.accept state
  | .successor state classId => r.step state classId = r'.step state classId

/-- The tag of a state and, at the end of a line, that of the state after it. -/
def lookupsAt (r : Recognizer σ) (state : σ) (atLineEnd : Bool) : List (Lookup σ) :=
  .tag state ::
    if atLineEnd then
      r.lineEnd.toList.flatMap fun classId =>
        .successor state classId :: (r.step state classId).toList.map .tag
    else []

/-- What is looked up from a state on. -/
def lookupsFrom (r : Recognizer σ) (state : σ) : List Nat → List (Lookup σ)
  | [] => r.lookupsAt state true
  | c :: rest =>
    r.lookupsAt state (c = lineFeed) ++
      match r.classOf c with
      | none => []
      | some classId =>
        .successor state classId ::
          match r.step state classId with
          | none => []
          | some next => lookupsFrom r next rest

/-- All that a longest match looks up, in order. -/
def lookups (r : Recognizer σ) (condition : Nat) (input : List Nat) (atLineStart : Bool) :
    List (Lookup σ) :=
  .start condition ::
    ((r.start condition).toList.flatMap fun state =>
      (r.opening atLineStart).map (.successor state)) ++
    (r.initial condition atLineStart).toList.flatMap fun state => r.lookupsFrom state input

/-- The candidates from a state on that is reached after `cursor` symbols. -/
def measuredFrom (r : Recognizer σ) (state : σ) (cursor : Nat) : List Nat → List Candidate
  | [] => (r.tagsAt state true).map fun tag => ⟨cursor, tag⟩
  | c :: rest =>
    ((r.tagsAt state (c = lineFeed)).map fun tag => ⟨cursor, tag⟩) ++
      match (r.classOf c).bind (r.step state) with
      | none => []
      | some next => measuredFrom r next (cursor + 1) rest

/-- All candidates whose tokens a longest match measures, in order. -/
def measured (r : Recognizer σ) (condition : Nat) (input : List Nat) (atLineStart : Bool) :
    List Candidate :=
  (r.initial condition atLineStart).toList.flatMap fun state => r.measuredFrom state 0 input

/-- A condition leads to a state behind so many symbols, whatever the input. -/
inductive Reaches (r : Recognizer σ) (condition : Nat) : σ → Nat → Prop
  | start {state : σ} {atLineStart : Bool} :
      r.initial condition atLineStart = some state → Reaches r condition state 0
  | symbol {state next : σ} {count c classId : Nat} :
      Reaches r condition state count → r.classOf c = some classId →
      r.step state classId = some next → Reaches r condition next (count + 1)

/-- Tags that are found behind so many symbols, some of them just at the end of a line. -/
def Shows (r : Recognizer σ) (condition count : Nat) (tag : Tag) : Prop :=
  ∃ state, r.Reaches condition state count ∧ tag ∈ r.tagsAt state true

/-- No tag comes before as many symbols as it keeps or cuts off. -/
def Timely (r : Recognizer σ) (condition : Nat) : Prop :=
  ∀ count tag, r.Shows condition count tag → tag.trailing.Within count

end Recognizer

end Scangen
