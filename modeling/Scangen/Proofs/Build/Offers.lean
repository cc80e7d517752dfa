import Scangen.Proofs.Build.Candidates

/-!
What a longest match depends on. At every stage of a build it is the best of what the rules offer, so
that specifications with the same offers find the same matches, whatever their automata look like. The
only tables that do not take part are those with more successors in one array than there are words.
-/

namespace Scangen

/-- What a specification can be scanned with. -/
inductive Stage where
  | nondeterministic
  | deterministic (minimal : Bool)
  | tables (minimal : Bool) (layout : Layout)

namespace Spec

variable {spec spec' : Spec} {config : Config} {condition matched id : Nat} {atLineStart : Bool}
  {input : List Nat} {pattern : Pattern}

/-- The tables of a specification, whether it has errors or not. -/
def tables (spec : Spec) (config : Config) (minimal : Bool) (layout : Layout) : Tables :=
  .ofDfa (Partition.ofSpec spec config) (spec.dfa config minimal) spec.endActions layout

/-- The longest match that is found at a stage. -/
def longestMatchAt (spec : Spec) (config : Config) :
    Stage → Nat → List Nat → Bool → Option Match
  | .nondeterministic => ((spec.nfa config).recognizer (Partition.ofSpec spec config)).longestMatch
  | .deterministic minimal =>
    ((spec.dfa config minimal).recognizer (Partition.ofSpec spec config)).longestMatch
  | .tables minimal layout => (spec.tables config minimal layout).recognizer.longestMatch

/-- Nothing is asked of an automaton; tables have to be addressable. -/
def AddressableAt (spec : Spec) (config : Config) : Stage → Prop
  | .nondeterministic | .deterministic _ => True
  | .tables minimal layout => (spec.tables config minimal layout).Addressable

/-- Of the specification itself, only whether the rule is active there matters to a match of it. -/
theorem Fronts.transfer {charset : Charset}
    (fronts : spec.Fronts charset condition atLineStart input matched id pattern)
    (active : spec'.HasActive condition id (.matching pattern)) :
    spec'.Fronts charset condition atLineStart input matched id pattern :=
  ⟨fronts.inside, ⟨active, fronts.fits.lineStart, fronts.fits.words⟩, fronts.lineEnd⟩

theorem longestMatchAt_eq {stage : Stage} (room : spec.AddressableAt config stage) :
    spec.longestMatchAt config stage condition input atLineStart =
      (spec.scanner config).longestMatch condition input atLineStart := by
  cases stage with
  | nondeterministic => rfl
  | deterministic minimal => exact longestMatch_dfa minimal input atLineStart
  | tables minimal layout => exact longestMatch_tables room input atLineStart

theorem Offers.declared {charset : Charset} {found : Candidate}
    (offers : spec.Offers charset condition atLineStart input found) :
    condition < spec.conditions.length := by
  cases offers with
  | intro leads _ => exact leads.fronts.fits.hasActive.declared

/-- The best offer is found at every stage. Nothing is found in a condition that is not declared, and
nothing is offered there. -/
theorem longestMatchAt_chosen {stage : Stage} (room : spec.AddressableAt config stage)
    (condition : Nat) (input : List Nat) (atLineStart : Bool) :
    ∃ best : Option Candidate,
      Chosen Candidate.Beats (spec.Offers config.charset condition atLineStart input) best ∧
        spec.longestMatchAt config stage condition input atLineStart =
          best.map Candidate.toMatch := by
  rw [longestMatchAt_eq room]
  by_cases declared : condition < spec.conditions.length
  · obtain ⟨best, chosen, same⟩ :=
      (spec.scanner config).longestMatch_chosen condition input atLineStart
    exact ⟨best, chosen.congr fun _ => finds_iff_offers declared, same⟩
  · refine ⟨none, fun found offers => declared offers.declared, ?_⟩
    have missing : (spec.scanner config).start condition = none := by
      show ((List.range spec.conditions.length)[condition]?).map _ = none
      rw [List.getElem?_eq_none (by simpa using declared), Option.map_none]
    rw [Recognizer.longestMatch, Recognizer.initial_eq, missing]
    rfl

/-- Where the same is offered, the same is found. -/
theorem longestMatchAt_congr {config' : Config} {input' : List Nat}
    (same : ∀ found, spec.Offers config.charset condition atLineStart input found ↔
      spec'.Offers config'.charset condition atLineStart input' found) {stage stage' : Stage}
    (room : spec.AddressableAt config stage) (room' : spec'.AddressableAt config' stage') :
    spec.longestMatchAt config stage condition input atLineStart =
      spec'.longestMatchAt config' stage' condition input' atLineStart := by
  obtain ⟨best, chosen, found⟩ :=
    longestMatchAt_chosen room condition input atLineStart
  obtain ⟨best', chosen', found'⟩ :=
    longestMatchAt_chosen room' condition input' atLineStart
  rw [found, found', (chosen.congr same).unique Candidate.eq_of_not_beats chosen']

end Spec

end Scangen
