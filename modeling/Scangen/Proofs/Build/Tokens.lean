import Scangen.Proofs.Build.Candidates

/-!
Where tokens end. The token is cut out of a match by a length that either the body or the context of
a pattern has in each of its words.
-/

namespace Scangen

namespace Pattern

variable {p : Pattern} {n : Nat}

theorem cut_of_no_context (alone : p.context = none) : p.cut = .whole := by
  rw [cut, trailing, alone]

theorem cut_head (same : p.cut = .head n) : ∃ length, p.body.fixedLength = some length ∧
    n = length.toNat := by
  unfold cut trailing at same
  cases context : p.context with
  | none =>
    rw [context] at same
    cases same
  | some context' =>
    rw [context] at same
    dsimp only at same
    split at same
    next trailing found =>
      cases same
      split at found
      · cases found
      · split at found
        next head body =>
          cases found
          exact ⟨head, body, rfl⟩
        next => cases found
        next => cases found
    next => cases same

theorem cut_tail (same : p.cut = .tail n) :
    ∃ context length, p.context = some context ∧ context.fixedLength = some length ∧
      n = length.toNat := by
  unfold cut trailing at same
  cases context : p.context with
  | none =>
    rw [context] at same
    cases same
  | some context' =>
    rw [context] at same
    dsimp only at same
    split at same
    next trailing found =>
      cases same
      split at found
      · cases found
      · split at found
        next => cases found
        next tail _ behind =>
          cases found
          exact ⟨context', tail, rfl, behind, rfl⟩
        next => cases found
    next => cases same

/-- A context is cut off unless that was reported to be impossible. -/
theorem cut_of_context {context : Regex} (behind : p.context = some context)
    (possible : ∃ trailing, p.trailing = .ok trailing) :
    p.cut ≠ .whole := by
  obtain ⟨trailing, possible⟩ := possible
  intro same
  rw [cut, possible] at same
  dsimp only at same
  subst same
  rw [Pattern.trailing, behind] at possible
  dsimp only at possible
  split at possible
  · cases possible
  · split at possible
    · cases possible
    · cases possible
    · cases possible

variable {reads : SymbolClass → Nat → Prop} {token following : List Nat}

theorem context_of_matchesBy {context : Regex} (behind : p.context = some context)
    (matched : p.ordered.MatchesBy reads token following) :
      context.ordered.MatchesBy reads following := by
  have second := matched.2
  rw [ordered, behind] at second
  exact second

theorem cut_le (matched : p.ordered.MatchesBy reads token following) :
    (∀ n, p.cut = .head n → n ≤ token.length) ∧ ∀ n, p.cut = .tail n → n ≤ following.length := by
  constructor
  · intro n same
    obtain ⟨length, fixed, rfl⟩ := cut_head same
    exact Regex.fixedLength_le fixed matched.1
  · intro n same
    obtain ⟨context, length, behind, fixed, rfl⟩ := cut_tail same
    exact Regex.fixedLength_le fixed (context_of_matchesBy behind matched)

/-- A token is a word of the body if the lengths that were stored are the right ones. -/
theorem tokenLength_eq (possible : ∃ trailing, p.trailing = .ok trailing)
    (fit : ∀ context ∈ p.context, p.body.LengthsFit ∧ context.LengthsFit)
    (matched : p.ordered.MatchesBy reads token following) :
    p.cut.tokenLength (token ++ following).length = token.length := by
  cases behind : p.context with
  | none =>
    have second := matched.2
    rw [ordered, behind] at second
    have nothing : following = [] := second
    rw [cut_of_no_context behind, nothing, List.append_nil, Trailing.tokenLength]
  | some context =>
    obtain ⟨body_fits, context_fits⟩ := fit context behind
    cases same : p.cut with
    | whole => exact absurd same (cut_of_context behind possible)
    | head n =>
      obtain ⟨length, fixed, rfl⟩ := cut_head same
      rw [Trailing.tokenLength, body_fits.length fixed matched.1]
    | tail n =>
      obtain ⟨context', length, behind', fixed, rfl⟩ := cut_tail same
      cases behind.symm.trans behind'
      rw [Trailing.tokenLength, List.length_append,
        context_fits.length fixed (context_of_matchesBy behind matched),
        Nat.add_sub_cancel]

end Pattern

namespace Spec

variable {spec : Spec} {charset : Charset} {condition id : Nat} {atLineStart : Bool}
    {read input : List Nat} {pattern : Pattern}

/-- No more is cut off or kept than was read. -/
theorem Fits.cut_le (fits : spec.Fits charset condition atLineStart read id pattern) :
    (∀ n, pattern.cut = .head n → n ≤ read.length) ∧ ∀ n, pattern.cut = .tail n →
      n ≤ read.length := by
  obtain ⟨token, following, rfl, matched⟩ := fits.words
  obtain ⟨head_le, tail_le⟩ := Pattern.cut_le matched
  rw [List.length_append]
  constructor
  · intro n same
    have := head_le n same
    omega
  · intro n same
    have := tail_le n same
    omega

theorem Fits.tokenLength_le (fits : spec.Fits charset condition atLineStart read id pattern) :
    pattern.cut.tokenLength read.length ≤ read.length := by
  cases same : pattern.cut with
  | whole => exact Nat.le_refl _
  | head n => exact fits.cut_le.1 n same
  | tail n => exact Nat.sub_le _ _

theorem Fronts.tokenLength_le {matched : Nat}
    (fronts : spec.Fronts charset condition atLineStart input matched id pattern) :
    pattern.cut.tokenLength matched ≤ matched := by
  have token_le := fronts.fits.tokenLength_le
  rwa [List.length_take_of_le fronts.inside] at token_le

/-! A build that does not stop has found no error in any rule. -/

variable {config : Config} {partition : Partition}

theorem mem_addRule {built : Arena × Diagnostics} {rule : Rule} {d : Diagnostic}
    (reported : d ∈ built.2) :
    d ∈ (Nfa.addRule spec partition charset built rule id).2 := by
  unfold Nfa.addRule
  cases rule.pattern with
  | endOfInput => exact List.mem_append_left _ reported
  | matching pattern => exact List.mem_append_left _ (List.mem_append_left _ reported)

/-- What cannot be cut out is reported. -/
theorem reported_of_addRule {built : Arena × Diagnostics} {rule : Rule} {kind : DiagnosticKind}
    (matching : rule.pattern = .matching pattern) (impossible : pattern.trailing = .error kind) :
    kind.report rule id ∈ (Nfa.addRule spec partition charset built rule id).2 := by
  unfold Nfa.addRule
  rw [matching]
  apply List.mem_append_right
  apply List.mem_map_of_mem
  unfold Nfa.problems
  rw [impossible]
  simp

theorem mem_addRules {rules : List (Rule × Nat)} {built : Arena × Diagnostics} {d : Diagnostic}
    (reported : d ∈ built.2) :
    d ∈ (rules.foldl (fun built (rule, id) => Nfa.addRule spec partition charset built rule id)
      built).2 := by
  induction rules generalizing built with
  | nil => exact reported
  | cons first rest ih => exact ih (mem_addRule reported)

theorem reported_of_addRules {rules : List (Rule × Nat)} {built : Arena × Diagnostics} {rule : Rule}
    {kind : DiagnosticKind}
    (listed : (rule, id) ∈ rules) (matching : rule.pattern = .matching pattern)
    (impossible : pattern.trailing = .error kind) :
    kind.report rule id ∈
      (rules.foldl (fun built (rule, id) => Nfa.addRule spec partition charset built rule id)
        built).2 := by
  induction rules generalizing built with
  | nil => cases listed
  | cons first rest ih =>
    rw [List.foldl_cons]
    rcases List.mem_cons.mp listed with rfl | later
    · exact mem_addRules (reported_of_addRule matching impossible)
    · exact ih later

/-- In a specification that can be built, each token can be cut out. -/
theorem trailing_possible {log : Diagnostics} {automaton : Automaton}
    (built : (spec.build config log).2 = .ok automaton)
    (member : pattern ∈ spec.patterns) : ∃ trailing, pattern.trailing = .ok trailing := by
  cases possible : pattern.trailing with
  | ok trailing => exact ⟨trailing, rfl⟩
  | error kind =>
    obtain ⟨rule, listed, matching⟩ := List.mem_filterMap.mp member
    obtain ⟨id, found⟩ := List.mem_iff_getElem?.mp listed
    have matching : rule.pattern = .matching pattern := by
      cases same : rule.pattern with
      | matching pattern' =>
        rw [same] at matching
        cases matching
        rfl
      | endOfInput =>
        rw [same] at matching
        cases matching
    have reported : kind.report rule
      id ∈ (Nfa.ofSpec spec (Partition.ofSpec spec config) config.charset).2 :=
      reported_of_addRules (List.mem_zipIdx_iff_getElem?.mpr found) matching possible
    have severe : kind.severity = .error := by
      rw [Pattern.trailing] at possible
      split at possible
      · cases possible
      · split at possible
        · cases possible
          rfl
        · split at possible <;> cases possible
          rfl
    have errors : (log ++ (Nfa.ofSpec spec (Partition.ofSpec spec config)
      config.charset).2).hasErrors = true :=
      List.any_eq_true.mpr ⟨_, List.mem_append_right _ reported, decide_eq_true severe⟩
    unfold build at built
    dsimp only at built
    rw [if_pos errors] at built
    cases built

end Spec

end Scangen
