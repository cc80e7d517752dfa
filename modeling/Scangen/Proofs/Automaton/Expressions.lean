import Scangen.Proofs.Automaton.Copies
import Scangen.Proofs.Pattern.Words

/-!
The fragment of an expression reads the words of the expression, where a letter is a class of
symbols. Limits of repetitions count as if they had been written in order.
-/

namespace Scangen

theorem Builder.Reads.congr {b : Builder} {L L₁ : List Nat → Prop} (reads : b.Reads L)
    (same : ∀ word, L word ↔ L₁ word) :
    b.Reads L₁ :=
  fun arena => (reads arena).congr same

/-- Two states without a path between them. -/
theorem apart_builds (arena : Arena) :
    Builds arena arena.newState.newState ⟨arena.size, arena.size + 1⟩ (fun _ => False) := by
  apply Builder.link_builds arena none False <;> simp

namespace Regex

mutual

theorem fragment_reads (partition : Partition) (charset : Charset) : ∀ r : Regex,
    (r.fragment partition charset).Reads (r.ordered.MatchesBy (partition.Reads charset))
  | alternation alternates => by
    intro arena
    have built := alternates_build partition charset alternates (apart_builds arena) (by simp)
    rw [fragment]
    apply built.congr
    intro word
    rw [ordered, MatchesBy, false_or]
  | concatenation factors => by
    rw [fragment, ordered]
    apply (sequence_reads partition charset factors).congr
    intro word
    rw [MatchesBy]
  | star inner => by
    rw [fragment, ordered]
    apply (Builder.star_reads (fragment_reads partition charset inner)).congr
    intro word
    rw [MatchesBy]
  | plus inner => by
    rw [fragment, ordered]
    apply (Builder.plus_reads (fragment_reads partition charset inner)).congr
    intro word
    rw [MatchesBy]
  | optional inner => by
    rw [fragment, ordered]
    apply (Builder.optional_reads (fragment_reads partition charset inner)).congr
    intro word
    rw [MatchesBy]
  | repetition inner least most => by
    rw [fragment, ordered]
    apply (Builder.repetition_reads (fragment_reads partition charset inner) least most).congr
    intro word
    rw [MatchesBy]
  | symbol c => by
    rw [fragment, ordered]
    apply (Builder.ofSet_reads partition (literalSet c charset)).congr
    intro word
    rw [MatchesBy]
    rfl
  | symbolClass k => by
    rw [fragment, ordered]
    apply (Builder.ofSet_reads partition (k.resolve charset)).congr
    intro word
    rw [MatchesBy]
    rfl
  | empty => by
    rw [fragment, ordered]
    apply Builder.empty_reads.congr
    intro word
    rw [MatchesBy]

theorem alternates_build (partition : Partition) (charset : Charset) :
    ∀ (alternates : List Regex) {before arena : Arena} {entry exit : Nat}
    {L : List Nat → Prop}, Builds before arena ⟨entry, exit⟩ L → entry ≠ exit →
    Builds before (alternatesBetween partition charset alternates entry exit arena) ⟨entry, exit⟩
      (fun word => L word ∨ MatchesSome (partition.Reads charset) (orderedAll alternates) word)
  | [], _, _, _, _, _, built, _ => by
    rw [alternatesBetween, orderedAll]
    apply built.congr
    intro word
    rw [MatchesSome, or_false]
  | first :: rest, _, arena, entry, exit, L, built, apart => by
    have inner := fragment_reads partition charset first arena
    have entry_lt : entry < (first.fragment partition charset arena).1.size :=
      Nat.lt_trans built.entry.2 inner.size_lt
    have out_lt := inner.exit.2
    have links : ∀ s label t, (Builder.alternate (first.fragment partition charset) entry exit
      arena).links s label t ↔
        (first.fragment partition charset arena).1.links s label t ∨ (label = none ∧
          ((s = entry ∧ t = (first.fragment partition charset arena).2.entry) ∨
            (s = (first.fragment partition charset arena).2.exit ∧ t = exit))) := by
      intro s label t
      simp only [Builder.alternate, Arena.links_epsilon, Arena.size_epsilon,
        entry_lt, out_lt, true_and]
      tauto
    have longer := built.alternate inner apart (by simp [Builder.alternate])
      (by simp [Builder.alternate]) links
    rw [alternatesBetween, orderedAll]
    apply (alternates_build partition charset rest longer apart).congr
    intro word
    rw [MatchesSome, or_assoc]

theorem sequence_reads (partition : Partition) (charset : Charset) : ∀ factors : List Regex,
    (sequenceFragment partition charset factors).Reads
      (MatchesEach (partition.Reads charset) (orderedAll factors))
  | [] => by
    rw [sequenceFragment, orderedAll]
    apply Builder.empty_reads.congr
    intro word
    rw [MatchesEach]
  | [only] => by
    rw [sequenceFragment]
    apply (fragment_reads partition charset only).congr
    intro word
    simp [orderedAll, MatchesEach]
  | first :: second :: rest => by
    rw [sequenceFragment]
    apply (Builder.append_reads (fragment_reads partition charset first)
      (sequence_reads partition charset (second :: rest))).congr
    intro word
    show _ ↔ MatchesEach (partition.Reads charset) (ordered first :: orderedAll (second :: rest))
      word
    rw [MatchesEach]
    rfl

end

end Regex

end Scangen
