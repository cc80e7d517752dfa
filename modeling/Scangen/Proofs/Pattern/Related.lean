import Mathlib.Data.List.Forall2
import Scangen.Pattern.Basic
import Scangen.Pattern.Language

/-!
Words that are related letter by letter. If each class that reads a letter reads its partner too, an
expression that matches a word matches the partner of the word.
-/

namespace Scangen

variable {R : Nat → Nat → Prop} {charset : Charset} {reads reads' : SymbolClass → Nat → Prop}

/-- A partner of two words in a row is made of partners of both. -/
theorem exists_partners {first rest word' : List Nat}
    (related : List.Forall₂ R (first ++ rest) word') :
    ∃ first' rest', word' = first' ++ rest' ∧ List.Forall₂ R first first' ∧
      List.Forall₂ R rest rest' := by
  have taken := List.forall₂_take first.length related
  have dropped := List.forall₂_drop first.length related
  rw [List.take_left] at taken
  rw [List.drop_left] at dropped
  exact ⟨_, _, (List.take_append_drop first.length word').symm, taken, dropped⟩

theorem Repeated.related {L L' : List Nat → Prop} {word word' : List Nat} {count : Nat}
    (carries : ∀ word word', List.Forall₂ R word word' → L word → L' word')
    (related : List.Forall₂ R word word') (reads : Repeated L count word) :
    Repeated L' count word' := by
  induction reads generalizing word' with
  | none =>
    cases related
    exact .none
  | @more count first rest one _ ih =>
    obtain ⟨first', rest', rfl, before, after⟩ := exists_partners related
    exact .more (carries first first' before one) (ih after)

namespace Regex

/-- Classes that resolve to one of the sets read the partners of the letters that they read. -/
def Carries (charset : Charset) (R : Nat → Nat → Prop) (reads reads' : SymbolClass → Nat → Prop)
    (sets : List SymbolSet) : Prop :=
  ∀ k : SymbolClass, k.resolve charset ∈ sets → ∀ x y, R x y → reads k x → reads' k y

theorem Carries.append {first second : List SymbolSet}
    (carries : Carries charset R reads reads' (first ++ second)) :
    Carries charset R reads reads' first ∧ Carries charset R reads reads' second :=
  ⟨fun k member => carries k (List.mem_append_left _ member), fun k member =>
    carries k (List.mem_append_right _ member)⟩

theorem Carries.single {k : SymbolClass} {word word' : List Nat}
    (carries : Carries charset R reads reads' [k.resolve charset])
    (related : List.Forall₂ R word word') (one : ∃ x, reads k x ∧ word = [x]) :
    ∃ y, reads' k y ∧ word' = [y] := by
  obtain ⟨x, read, rfl⟩ := one
  obtain ⟨y, _, partner, rest, rfl⟩ := List.forall₂_cons_left_iff.mp related
  rw [List.forall₂_nil_left_iff.mp rest]
  exact ⟨y, carries k List.mem_cons_self x y partner read, rfl⟩

mutual

theorem matchesBy_related : ∀ (r : Regex) {word word' : List Nat},
    Carries charset R reads reads' (r.symbolSets charset) → List.Forall₂ R word word' →
    r.MatchesBy reads word → r.MatchesBy reads' word'
  | alternation alternates, _, _, carries, related, matched => by
    rw [symbolSets] at carries
    rw [MatchesBy] at matched ⊢
    exact matchesSome_related alternates carries related matched
  | concatenation factors, _, _, carries, related, matched => by
    rw [symbolSets] at carries
    rw [MatchesBy] at matched ⊢
    exact matchesEach_related factors carries related matched
  | star inner, _, _, carries, related, matched => by
    rw [symbolSets] at carries
    rw [MatchesBy] at matched ⊢
    obtain ⟨count, matched⟩ := matched
    exact ⟨count, matched.related (fun _ _ => matchesBy_related inner carries) related⟩
  | plus inner, _, _, carries, related, matched => by
    rw [symbolSets] at carries
    rw [MatchesBy] at matched ⊢
    obtain ⟨count, matched⟩ := matched
    exact ⟨count, matched.related (fun _ _ => matchesBy_related inner carries) related⟩
  | optional inner, _, _, carries, related, matched => by
    rw [symbolSets] at carries
    rw [MatchesBy] at matched ⊢
    cases matched with
    | inl nothing =>
      rw [nothing] at related
      exact Or.inl (List.forall₂_nil_left_iff.mp related)
    | inr matched => exact Or.inr (matchesBy_related inner carries related matched)
  | repetition inner least most, _, _, carries, related, matched => by
    rw [symbolSets] at carries
    rw [MatchesBy] at matched ⊢
    obtain ⟨count, enough, few, matched⟩ := matched
    exact ⟨count, enough, few,
      matched.related (fun _ _ => matchesBy_related inner carries) related⟩
  | symbol c, _, _, carries, related, matched => by
    rw [symbolSets] at carries
    rw [MatchesBy] at matched ⊢
    exact carries.single related matched
  | symbolClass k, _, _, carries, related, matched => by
    rw [symbolSets] at carries
    rw [MatchesBy] at matched ⊢
    exact carries.single related matched
  | empty, _, _, _, related, matched => by
    rw [MatchesBy] at matched ⊢
    rw [matched] at related
    exact List.forall₂_nil_left_iff.mp related

theorem matchesSome_related : ∀ (alternates : List Regex) {word word' : List Nat},
    Carries charset R reads reads' (symbolSetsOfAll charset alternates) →
    List.Forall₂ R word word' → MatchesSome reads alternates word →
    MatchesSome reads' alternates word'
  | [], _, _, _, _, matched => by
    rw [MatchesSome] at matched
    cases matched
  | first :: rest, _, _, carries, related, matched => by
    rw [symbolSetsOfAll] at carries
    rw [MatchesSome] at matched ⊢
    cases matched with
    | inl matched => exact Or.inl (matchesBy_related first carries.append.1 related matched)
    | inr matched => exact Or.inr (matchesSome_related rest carries.append.2 related matched)

theorem matchesEach_related : ∀ (factors : List Regex) {word word' : List Nat},
    Carries charset R reads reads' (symbolSetsOfAll charset factors) →
    List.Forall₂ R word word' → MatchesEach reads factors word → MatchesEach reads' factors word'
  | [], _, _, _, related, matched => by
    rw [MatchesEach] at matched ⊢
    rw [matched] at related
    exact List.forall₂_nil_left_iff.mp related
  | first :: rest, _, _, carries, related, matched => by
    rw [symbolSetsOfAll] at carries
    rw [MatchesEach] at matched ⊢
    obtain ⟨before, after, rfl, one, others⟩ := matched
    obtain ⟨before', after', rfl, early, late⟩ := exists_partners related
    exact ⟨before', after', rfl, matchesBy_related first carries.append.1 early one,
      matchesEach_related rest carries.append.2 late others⟩

end

end Regex

theorem Pattern.matchesBy_related {p : Pattern} {token token' following following' : List Nat}
    (carries : Regex.Carries charset R reads reads' (p.symbolSets charset))
    (tokens : List.Forall₂ R token token') (behind : List.Forall₂ R following following')
    (matched : p.MatchesBy reads token following) : p.MatchesBy reads' token' following' := by
  rw [symbolSets] at carries
  obtain ⟨body, context⟩ := matched
  refine ⟨Regex.matchesBy_related p.body carries.append.1 tokens body, ?_⟩
  have context_carries := carries.append.2
  cases given : p.context with
  | none =>
    rw [given] at context
    have nothing : following = [] := context
    rw [nothing] at behind
    exact List.forall₂_nil_left_iff.mp behind
  | some expression =>
    rw [given] at context context_carries
    exact Regex.matchesBy_related expression context_carries behind context

end Scangen
