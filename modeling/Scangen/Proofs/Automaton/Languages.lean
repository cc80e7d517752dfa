import Scangen.Proofs.Automaton.Expressions
import Scangen.Proofs.Pattern.Lengths
import Scangen.Proofs.Partition.Unions

/-!
The fragment of an expression and the language of the expression. Over any partition in which the sets
of the expression are made of whole classes, the paths through the fragment spell the classes of the
words that match, and no other words of classes.
-/

namespace Scangen

namespace Regex

section

variable {p : Partition} {charset : Charset} {r : Regex} {word classes : List Nat}
  (tiles : Partition.Tiles p.alphabet.cardinality 0 (p.intervals.map Prod.fst))
  (composed : ∀ s ∈ r.symbolSets charset, p.Composed s)

include tiles composed

/-- Words of symbols match if and only if their classes do. -/
theorem matches_iff_classes (classified : p.Classifies word classes) :
    r.Matches charset word ↔ r.MatchesBy (p.Reads charset) classes := by
  obtain ⟨known, numbers⟩ := classified.numbers
  have agrees : Agrees p (fun c => (p.classOf c).getD 0)
      (fun c => ∃ classId, p.classOf c = some classId) (r.symbolSets charset) := by
    intro s listed c ⟨classId, found⟩
    show c ∈ s ↔ (p.classOf c).getD 0 ∈ p.label s
    rw [found, Option.getD_some]
    exact (composed s listed).mem_iff tiles found
  have mapped := matches_map_iff r agrees known
  rwa [numbers] at mapped

/-- The classes that an expression reads are those of some word. -/
theorem exists_classified (reads : r.MatchesBy (p.Reads charset) classes) :
    ∃ word, p.Classifies word classes := by
  have inhabited : ReadsOnly charset (p.Reads charset)
      (fun classId => ∃ c, p.classOf c = some classId) (r.symbolSets charset) := by
    intro k listed classId inside
    obtain ⟨c, _, found⟩ := ((composed _ listed).mem_label_iff tiles).mp inside
    exact ⟨c, found⟩
  exact Partition.exists_word (letters_of_matchesBy r inhabited reads)

/-- The construction is exact. Every label is found, the fragment leaves the arena as it was and is not
entered or left but by its two ends, and a word of classes is spelled on the way from its entry to its
exit if and only if words with these classes match. -/
theorem fragment_exact (inOrder : r.CountsOrdered) (arena : Arena) :
    let built := r.fragment p charset arena
    (∀ s ∈ r.symbolSets charset, ∃ found, p.classesOf s = .ok found) ∧
      Adds arena built.1 built.2 ∧
      ∀ classes,
        (built.1.links.Path built.2.entry classes built.2.exit ↔
          ∃ word, p.Classifies word classes ∧ r.Matches charset word) ∧
        ∀ word, p.Classifies word classes →
          (built.1.links.Path built.2.entry classes built.2.exit ↔ r.Matches charset word) := by
  intro built
  have builds := fragment_reads p charset r arena
  rw [ordered_eq_self r inOrder] at builds
  refine ⟨?_, builds.toAdds, fun classes => ⟨?_, ?_⟩⟩
  · intro s listed
    obtain ⟨found, same, _⟩ := Partition.classesOf_ok ((composed s listed).spares tiles)
    exact ⟨found, same⟩
  · rw [builds.words classes]
    constructor
    · intro reads
      obtain ⟨word, classified⟩ := exists_classified tiles composed reads
      exact ⟨word, classified, (matches_iff_classes tiles composed classified).mpr reads⟩
    · intro ⟨word, classified, matched⟩
      exact (matches_iff_classes tiles composed classified).mp matched
  · intro word classified
    rw [builds.words classes, matches_iff_classes tiles composed classified]

end

/-- Two or three times the same letter. -/
def twoOrThree : Regex := .repetition (.symbol 97) 2 (some 3)

/-- The classes of the letter and of all other bytes. -/
def twoClasses : Partition := .ofSets .byte [literalSet 97 ⟨.byte, false⟩] false false

theorem length_of_twoOrThree {word : List Nat} (matched : twoOrThree.Matches ⟨.byte, false⟩ word) :
    word.length = 2 ∨ word.length = 3 := by
  rw [Matches, twoOrThree, MatchesBy] at matched
  obtain ⟨count, least, most, copies⟩ := matched
  have letter : ∀ word, (Regex.symbol 97).MatchesBy (fun k x => x ∈ k.resolve ⟨.byte, false⟩) word →
      id word.length = 1 := by
    intro word one
    rw [MatchesBy] at one
    obtain ⟨x, _, rfl⟩ := one
    rfl
  have length : word.length = 1 * count := copies.length counting_id letter
  have limit := most 3 rfl
  omega

/-- The letter is read twice on the way through its fragment, and once is not enough. -/
theorem twoOrThree_paths :
    let built := twoOrThree.fragment twoClasses ⟨.byte, false⟩ #[]
    (∀ s ∈ twoOrThree.symbolSets ⟨.byte, false⟩, twoClasses.Composed s) ∧
      twoOrThree.CountsOrdered ∧ built.1.links.Path built.2.entry [1, 1] built.2.exit ∧
      ¬built.1.links.Path built.2.entry [1] built.2.exit := by
  have composed : ∀ s ∈ twoOrThree.symbolSets ⟨.byte, false⟩, twoClasses.Composed s := by
    intro s listed
    rw [twoOrThree, symbolSets, symbolSets, List.mem_singleton] at listed
    apply Partition.ofSets_sorts.composed (List.mem_singleton.mpr listed)
    intro c member
    rw [listed] at member
    exact SymbolClass.le_of_mem_resolve member
  have inOrder : twoOrThree.CountsOrdered := by
    rw [twoOrThree, CountsOrdered, CountsOrdered]
    simp
  have exact := (fragment_exact Partition.ofSets_tiles composed inOrder #[]).2.2
  have once : twoClasses.Classifies [97] [1] := by
    unfold Partition.Classifies
    decide
  have twice : twoClasses.Classifies [97, 97] [1, 1] := by
    unfold Partition.Classifies
    decide
  refine ⟨composed, inOrder, ?_, ?_⟩
  · apply ((exact [1, 1]).2 [97, 97] twice).mpr
    have letter : (Regex.symbol 97).MatchesBy (fun k x => x ∈ k.resolve ⟨.byte, false⟩) [97] := by
      rw [MatchesBy]
      exact ⟨97, SymbolSet.contains_iff.mp (by decide), rfl⟩
    rw [Matches, twoOrThree, MatchesBy]
    exact ⟨2, Nat.le_refl 2, by simp, .more letter (.more letter .none)⟩
  · rw [(exact [1]).2 [97] once]
    intro matched
    have length := length_of_twoOrThree matched
    simp at length

end Regex

end Scangen
