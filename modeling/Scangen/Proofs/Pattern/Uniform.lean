import Scangen.Proofs.Pattern.Lengths

/-!
Languages all of whose words have the same length. Fixed lengths of expressions are such lengths, and
languages that are repeated tell from the lengths of copies how long their words are.
-/

namespace Scangen

/-- All words of the language have this length. -/
def Uniform (language : List Nat → Prop) (n : Nat) : Prop :=
  ∀ word, language word → word.length = n

section Languages

variable {language : List Nat → Prop} {word : List Nat} {count n : Nat}

theorem Repeated.once (one : language word) : Repeated language 1 word := by
  have read := Repeated.more one Repeated.none
  rwa [List.append_nil] at read

theorem Repeated.weaken {language' : List Nat → Prop}
    (weaker : ∀ word, language word → language' word) (reads : Repeated language count word) :
    Repeated language' count word := by
  induction reads with
  | none => exact .none
  | more one _ ih => exact .more (weaker _ one) ih

theorem exists_repeated (one : language word) :
    ∀ count, ∃ words, Repeated language count words ∧ words.length = count * word.length
  | 0 => ⟨[], .none, by simp⟩
  | count + 1 => by
    obtain ⟨words, reads, length⟩ := exists_repeated one count
    refine ⟨word ++ words, .more one reads, ?_⟩
    rw [List.length_append, length, Nat.succ_mul, Nat.add_comm]

/-- Copies of one word tell how long it is. -/
theorem Uniform.mul_length (uniform : Uniform (Repeated language count) n) (one : language word) :
    count * word.length = n := by
  obtain ⟨words, reads, length⟩ := exists_repeated one count
  exact length.symm.trans (uniform words reads)

theorem Uniform.of_mul_length (positive : count ≠ 0) (one : language word)
    (uniform : Uniform (Repeated language count) n) : Uniform language word.length := by
  intro other two
  exact Nat.eq_of_mul_eq_mul_left (Nat.pos_of_ne_zero positive)
    ((uniform.mul_length two).trans (uniform.mul_length one).symm)

/-- What is repeated and still has one length only is empty or is repeated a fixed number of times,
unless it is not repeated at all. -/
theorem Uniform.of_repetition {least : Nat} {most : Option Nat} (one : language word)
    (inOrder : ∀ limit ∈ most, least ≤ limit) (used : most ≠ some 0)
    (uniform : ∀ count, least ≤ count → (∀ limit ∈ most, count ≤ limit) →
      Uniform (Repeated language count) n) :
    Uniform language word.length ∧ n = word.length * least ∧
      (word.length = 0 ∨ most = some least) := by
  have lowest := uniform least (Nat.le_refl least) inOrder
  have total : n = word.length * least := by rw [← lowest.mul_length one, Nat.mul_comm]
  -- Any other count that is allowed makes the same length of more copies of the word.
  cases most with
  | none =>
    have higher := uniform (least + 1) (Nat.le_succ least) nofun
    have none_left := (higher.mul_length one).trans (lowest.mul_length one).symm
    rw [Nat.succ_mul] at none_left
    exact ⟨higher.of_mul_length (Nat.succ_ne_zero least) one, total, Or.inl (by omega)⟩
  | some limit =>
    have highest := uniform limit (inOrder limit rfl) (by simp)
    have positive : limit ≠ 0 := fun zero => used (congrArg some zero)
    refine ⟨highest.of_mul_length positive one, total, ?_⟩
    by_cases zero : word.length = 0
    · exact Or.inl zero
    · have same := (highest.mul_length one).trans (lowest.mul_length one).symm
      exact Or.inr (congrArg some (Nat.eq_of_mul_eq_mul_right (Nat.pos_of_ne_zero zero) same))

end Languages

namespace Regex

variable {reads : SymbolClass → Nat → Prop} {charset : Charset}

/-! Raised limits only add words. -/

mutual

theorem matchesBy_ordered : ∀ (r : Regex) {word : List Nat}, r.MatchesBy reads word →
    r.ordered.MatchesBy reads word
  | alternation alternates, _, matched => by
    rw [MatchesBy] at matched
    rw [ordered, MatchesBy]
    exact matchesSome_ordered alternates matched
  | concatenation factors, _, matched => by
    rw [MatchesBy] at matched
    rw [ordered, MatchesBy]
    exact matchesEach_ordered factors matched
  | star inner, _, matched => by
    rw [MatchesBy] at matched
    rw [ordered, MatchesBy]
    obtain ⟨count, matched⟩ := matched
    exact ⟨count, matched.weaken fun _ => matchesBy_ordered inner⟩
  | plus inner, _, matched => by
    rw [MatchesBy] at matched
    rw [ordered, MatchesBy]
    obtain ⟨count, matched⟩ := matched
    exact ⟨count, matched.weaken fun _ => matchesBy_ordered inner⟩
  | optional inner, _, matched => by
    rw [MatchesBy] at matched
    rw [ordered, MatchesBy]
    exact matched.imp_right (matchesBy_ordered inner)
  | repetition inner least most, _, matched => by
    rw [MatchesBy] at matched
    rw [ordered, MatchesBy]
    obtain ⟨count, enough, few, matched⟩ := matched
    refine ⟨count, enough, ?_, matched.weaken fun _ => matchesBy_ordered inner⟩
    intro limit raised
    obtain ⟨lower, given, rfl⟩ := Option.map_eq_some_iff.mp raised
    exact Nat.le_trans (few lower given) (Nat.le_max_right least lower)
  | symbol c, _, matched => by rwa [ordered]
  | symbolClass k, _, matched => by rwa [ordered]
  | empty, _, matched => by rwa [ordered]

theorem matchesSome_ordered : ∀ (alternates : List Regex) {word : List Nat},
    MatchesSome reads alternates word → MatchesSome reads (orderedAll alternates) word
  | [], _, matched => by rwa [orderedAll]
  | first :: rest, _, matched => by
    rw [MatchesSome] at matched
    rw [orderedAll, MatchesSome]
    exact matched.imp (matchesBy_ordered first) (matchesSome_ordered rest)

theorem matchesEach_ordered : ∀ (factors : List Regex) {word : List Nat},
    MatchesEach reads factors word → MatchesEach reads (orderedAll factors) word
  | [], _, matched => by rwa [orderedAll]
  | first :: rest, _, matched => by
    rw [MatchesEach] at matched
    rw [orderedAll, MatchesEach]
    obtain ⟨before, after, split, one, others⟩ := matched
    exact ⟨before, after, split, matchesBy_ordered first one, matchesEach_ordered rest others⟩

end

theorem uniform_of_exactLength {r : Regex} {n : Nat} (fixed : r.exactLength = some n) :
    Uniform (r.MatchesBy reads) n :=
  fun _ matched => length_of_matchesBy counting_id r fixed (matchesBy_ordered r matched)

/-- The stored length is that of every word up to multiples of 2 ^ 32. It is just that length if none
of the sums and products that it is made of is too large to be stored: they are all lengths of parts,
or less. -/
theorem length_of_fixedLength {r : Regex} {n : UInt32} {word : List Nat}
    (fixed : r.fixedLength = some n) (matched : r.Matches charset word) :
    word.length % UInt32.size = n.toNat ∧ (r.LengthsFit → word.length = n.toNat) := by
  have read := matchesBy_ordered r matched
  constructor
  · have same := length_of_matchesBy counting_toUInt32 r fixed read
    rw [← same, Nat.toUInt32_eq, UInt32.toNat_ofNat']
  · intro fit
    exact fit.length fixed read

/-- Two different letters, or one letter twice. -/
def twoLetters : Regex :=
  .alternation [.concatenation [.symbol 97, .symbol 98], .repetition (.symbol 99) 2 (some 2)]

def sixLetters : Regex := .repetition twoLetters 3 (some 3)

theorem sixLetters_fit : sixLetters.LengthsFit := by
  unfold LengthsFit
  decide +kernel

theorem matches_letter {c : Nat} (letter : c ∈ [97, 98, 99]) :
    (symbol c).MatchesBy (fun k x => x ∈ k.resolve ⟨.byte, false⟩) [c] := by
  rw [MatchesBy]
  refine ⟨c, ?_, rfl⟩
  rw [← SymbolSet.contains_iff]
  revert c
  decide +kernel

/-- Both kinds of pairs in one word. -/
theorem sixLetters_length :
    sixLetters.fixedLength = some 6 ∧ sixLetters.LengthsFit ∧
      sixLetters.Matches ⟨.byte, false⟩ [97, 98, 99, 99, 97, 98] ∧
      [97, 98, 99, 99, 97, 98].length = 6 := by
  have fixed : sixLetters.fixedLength = some 6 := by decide +kernel
  have different : twoLetters.MatchesBy (fun k x => x ∈ k.resolve ⟨.byte, false⟩) [97, 98] := by
    rw [twoLetters, MatchesBy, MatchesSome, MatchesBy, MatchesEach]
    refine Or.inl ⟨[97], [98], rfl, matches_letter (by decide), ?_⟩
    rw [MatchesEach]
    exact ⟨[98], [], rfl, matches_letter (by decide), by rw [MatchesEach]⟩
  have same : twoLetters.MatchesBy (fun k x => x ∈ k.resolve ⟨.byte, false⟩) [99, 99] := by
    rw [twoLetters, MatchesBy, MatchesSome, MatchesSome]
    refine Or.inr (Or.inl ?_)
    rw [MatchesBy]
    have letter := matches_letter (c := 99) (by decide)
    exact ⟨2, by decide, by decide, .more letter (.more letter .none)⟩
  have matched : sixLetters.Matches ⟨.byte, false⟩ [97, 98, 99, 99, 97, 98] := by
    rw [sixLetters, Matches, MatchesBy]
    exact ⟨3, by decide, by decide, .more different (.more same (.more different .none))⟩
  exact ⟨fixed, sixLetters_fit, matched,
    (length_of_fixedLength fixed matched).2 sixLetters_fit⟩

end Regex

end Scangen
