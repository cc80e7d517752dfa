import Scangen.Proofs.Build.Best
import Scangen.Proofs.Build.Offers
import Scangen.Proofs.Build.Winners

/-!
Options that leave the charset alone change tables, but nothing that is seen of them. What is wrong
with a specification and what its rules offer depends on the charset only.
-/

namespace Scangen

namespace Spec

variable {spec : Spec} {config config' : Config}

/-- What a build reports and where it stops is decided by the words of the rules. -/
theorem build_eq (spec : Spec) (config : Config) (log : Diagnostics) :
    spec.build config log =
      let found := log ++ spec.defects config.charset
      let all := found ++ spec.uselessRules config.charset
      if found.hasErrors then (found, .error .beforeSubsets)
      else if all.hasErrors then (all, .error .beforeMinimization)
      else (all, .ok ⟨Partition.ofSpec spec config, spec.dfa config config.minimize,
        spec.endActions⟩) := by
  have reported := log_ofSpec spec config
  have useless := unreachableRules_ofNfa spec config
  rw [nfa] at useless
  unfold build
  dsimp only
  rw [reported, useless]
  rfl

/-- The scanners of two configurations find the same, whatever classes they read. -/
theorem longestMatch_scanner (same : config.charset = config'.charset) (condition : Nat)
    (input : List Nat) (atLineStart : Bool) :
    (spec.scanner config).longestMatch condition input atLineStart =
      (spec.scanner config').longestMatch condition input atLineStart := by
  have room : spec.AddressableAt config .nondeterministic := True.intro
  have room' : spec.AddressableAt config' .nondeterministic := True.intro
  refine longestMatchAt_congr (fun found => ?_) room room'
  rw [same]

/-- Two builds that behave alike: both stop at one step, or the tables in these layouts do the same at
the end of the input and, if they are addressable, find the same matches everywhere. -/
def SameOutcome (layout layout' : Layout) :
    Except BuildError Automaton → Except BuildError Automaton → Prop
  | .error stop, .error stop' => stop = stop'
  | .ok built, .ok built' =>
    (built.tables layout).endActions = (built'.tables layout').endActions ∧
      ((built.tables layout).Addressable → (built'.tables layout').Addressable →
        ∀ condition input atLineStart,
          (built.tables layout).recognizer.longestMatch condition input atLineStart =
            (built'.tables layout').recognizer.longestMatch condition input atLineStart)
  | _, _ => False

theorem build_sameOutcome (same : config.charset = config'.charset) (log : Diagnostics)
    (layout layout' : Layout) :
    (spec.build config log).1 = (spec.build config' log).1 ∧
      SameOutcome layout layout' (spec.build config log).2 (spec.build config' log).2 := by
  rw [build_eq, build_eq, ← same]
  dsimp only
  split
  · exact ⟨rfl, rfl⟩
  · split
    · exact ⟨rfl, rfl⟩
    · refine ⟨rfl, rfl, fun room room' condition input atLineStart => ?_⟩
      exact (longestMatch_tables room input atLineStart).trans
        ((longestMatch_scanner same condition input atLineStart).trans
          (longestMatch_tables room' input atLineStart).symm)

end Spec

theorem Options.resolve_charset {o : Options} {config : Config} (resolved : o.resolve = .ok config) :
    config.charset = ⟨if o.unicode then .unicode else .byte, o.caseAgnostic⟩ := by
  unfold resolve at resolved
  split at resolved
  · cases resolved
  · cases resolved
    rfl

/-- Options that agree on the alphabet and on the case of letters make no difference: the same
problems are reported in the same order, the build stops at the same step or not at all, and the
tables find the same matches and end actions. -/
theorem Spec.options_agree (spec : Spec) (log : Diagnostics) {o o' : Options}
    {config config' : Config} (resolved : o.resolve = .ok config)
    (resolved' : o'.resolve = .ok config') (unicode : o.unicode = o'.unicode)
    (caseAgnostic : o.caseAgnostic = o'.caseAgnostic) :
    (spec.build config log).1 = (spec.build config' log).1 ∧
      SameOutcome config.layout config'.layout (spec.build config log).2
        (spec.build config' log).2 := by
  apply build_sameOutcome
  rw [Options.resolve_charset resolved, Options.resolve_charset resolved', unicode, caseAgnostic]

/-- Bytes as they are and nothing made smaller, or everything as small as can be: all is the same. -/
theorem Spec.letters_sameOutcome :
    ∃ config config' automaton automaton', (Options.ofBits 0).resolve = .ok config ∧
      (Options.ofBits 121).resolve = .ok config' ∧ config ≠ config' ∧
      (letters.build config []).2 = .ok automaton ∧ (letters.build config' []).2 = .ok automaton' ∧
      (letters.build config []).1 = (letters.build config' []).1 ∧
      ∀ condition input atLineStart,
        (automaton.tables config.layout).recognizer.longestMatch condition input atLineStart =
          (automaton'.tables config'.layout).recognizer.longestMatch condition input
            atLineStart := by
  have plain : (Options.ofBits 0).resolve = .ok ⟨⟨.byte, false⟩, false, false, ⟨.dense, false⟩⟩ := by
    decide
  have small : (Options.ofBits 121).resolve = .ok ⟨⟨.byte, false⟩, true, true, ⟨.squeezed, true⟩⟩ := by
    decide
  have built : (letters.build ⟨⟨.byte, false⟩, false, false, ⟨.dense, false⟩⟩ []).2 = .ok _ :=
    build_of_no_errors (by decide +kernel)
  have built' : (letters.build ⟨⟨.byte, false⟩, true, true, ⟨.squeezed, true⟩⟩ []).2 = .ok _ :=
    build_of_no_errors (by decide +kernel)
  have agree := options_agree letters [] plain small (by decide) (by decide)
  rw [built, built'] at agree
  refine ⟨_, _, _, _, plain, small, by decide, built, built', agree.1, agree.2.2 ?_ True.intro⟩
  exact Tables.addressable_ofDfa.mpr fun _ => by decide +kernel

end Scangen
