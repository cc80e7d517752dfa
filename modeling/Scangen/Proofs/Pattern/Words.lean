import Scangen.Automaton.Thompson
import Scangen.Proofs.Pattern.Related

/-!
Words of symbols and words of classes. Where the classes of symbols tell members and other symbols
of each set of an expression apart, a word matches if and only if the classes of its symbols do.
-/

namespace Scangen

variable {L : List Nat → Prop} {P : Nat → Prop} {f : Nat → Nat} {word : List Nat}

theorem Repeated.letters {count : Nat} (each : ∀ word, L word → ∀ x ∈ word, P x)
    (reads : Repeated L count word) :
    ∀ x ∈ word, P x := by
  induction reads with
  | none => simp
  | more one _ ih =>
    intro x member
    rcases List.mem_append.mp member with early | late
    · exact each _ one x early
    · exact ih x late

/-- The class of symbols is one of those that a written class is made of. -/
def Partition.Reads (partition : Partition) (charset : Charset) (k : SymbolClass) (classId : Nat) :
    Prop :=
  classId ∈ partition.label (k.resolve charset)

namespace Regex

variable {partition : Partition} {charset : Charset}

/-- The numbers of symbols with a property tell which of them belong to the sets. -/
def Agrees (partition : Partition) (f : Nat → Nat) (P : Nat → Prop) (sets : List SymbolSet) :
    Prop :=
  ∀ s ∈ sets, ∀ x, P x → (x ∈ s ↔ f x ∈ partition.label s)

theorem Agrees.append {first second : List SymbolSet}
    (agrees : Agrees partition f P (first ++ second)) :
    Agrees partition f P first ∧ Agrees partition f P second :=
  ⟨fun s member => agrees s (List.mem_append_left _ member), fun s member =>
    agrees s (List.mem_append_right _ member)⟩

/-- Letters with the property stand beside their numbers. -/
theorem related_map (letters : ∀ x ∈ word, P x) :
    List.Forall₂ (fun x c => P x ∧ c = f x) word (word.map f) := by
  induction word with
  | nil => exact .nil
  | cons first rest ih =>
    exact .cons ⟨letters first List.mem_cons_self, rfl⟩
      (ih fun x member => letters x (List.mem_cons_of_mem first member))

theorem Agrees.carries {sets : List SymbolSet} (agrees : Agrees partition f P sets) :
    Carries charset (fun x c => P x ∧ c = f x) (fun k x => x ∈ k.resolve charset)
        (partition.Reads charset) sets ∧
      Carries charset (flip fun x c => P x ∧ c = f x) (partition.Reads charset)
        (fun k x => x ∈ k.resolve charset) sets := by
  constructor
  · rintro k listed x _ ⟨known, rfl⟩ member
    exact (agrees _ listed x known).mp member
  · rintro k listed _ x ⟨known, rfl⟩ member
    exact (agrees _ listed x known).mpr member

theorem matches_map_iff (r : Regex) (agrees : Agrees partition f P (r.symbolSets charset))
    (letters : ∀ x ∈ word, P x) :
    r.Matches charset word ↔ r.MatchesBy (partition.Reads charset) (word.map f) :=
  ⟨matchesBy_related r agrees.carries.1 (related_map letters),
    matchesBy_related r agrees.carries.2 (related_map letters).flip⟩

/-! Every letter of a word is read by one of the classes of the expression. -/

section Letters

variable {reads : SymbolClass → Nat → Prop}

/-- The classes that resolve to one of the sets read nothing but letters with a property. -/
def ReadsOnly (charset : Charset) (reads : SymbolClass → Nat → Prop) (P : Nat → Prop)
    (sets : List SymbolSet) : Prop :=
  ∀ k : SymbolClass, k.resolve charset ∈ sets → ∀ x, reads k x → P x

theorem ReadsOnly.append {first second : List SymbolSet}
    (only : ReadsOnly charset reads P (first ++ second)) :
    ReadsOnly charset reads P first ∧ ReadsOnly charset reads P second :=
  ⟨fun k member => only k (List.mem_append_left _ member), fun k member =>
    only k (List.mem_append_right _ member)⟩

mutual

theorem letters_of_matchesBy : ∀ (r : Regex) {word : List Nat}, ReadsOnly charset reads P
    (r.symbolSets charset) →
    r.MatchesBy reads word → ∀ x ∈ word, P x
  | alternation alternates, _, only, matched => by
    rw [symbolSets] at only
    rw [MatchesBy] at matched
    exact letters_of_matchesSome alternates only matched
  | concatenation factors, _, only, matched => by
    rw [symbolSets] at only
    rw [MatchesBy] at matched
    exact letters_of_matchesEach factors only matched
  | star inner, _, only, matched => by
    rw [symbolSets] at only
    rw [MatchesBy] at matched
    obtain ⟨count, matched⟩ := matched
    exact matched.letters fun word => letters_of_matchesBy inner only
  | plus inner, _, only, matched => by
    rw [symbolSets] at only
    rw [MatchesBy] at matched
    obtain ⟨count, matched⟩ := matched
    exact matched.letters fun word => letters_of_matchesBy inner only
  | optional inner, _, only, matched => by
    rw [symbolSets] at only
    rw [MatchesBy] at matched
    rcases matched with rfl | matched
    · simp
    · exact letters_of_matchesBy inner only matched
  | repetition inner least most, _, only, matched => by
    rw [symbolSets] at only
    rw [MatchesBy] at matched
    obtain ⟨count, _, _, matched⟩ := matched
    exact matched.letters fun word => letters_of_matchesBy inner only
  | symbol c, _, only, matched => by
    rw [MatchesBy] at matched
    obtain ⟨x, member, rfl⟩ := matched
    simpa using only ⟨.single c, false⟩ (by simp [symbolSets, literalSet]) x member
  | symbolClass k, _, only, matched => by
    rw [MatchesBy] at matched
    obtain ⟨x, member, rfl⟩ := matched
    simpa using only k (by simp [symbolSets]) x member
  | empty, _, _, matched => by
    rw [MatchesBy] at matched
    rw [matched]
    simp

theorem letters_of_matchesSome : ∀ (alternates : List Regex) {word : List Nat},
    ReadsOnly charset reads P (symbolSetsOfAll charset alternates) →
      MatchesSome reads alternates word → ∀ x ∈ word, P x
  | [], _, _, matched => by
    rw [MatchesSome] at matched
    cases matched
  | first :: rest, _, only, matched => by
    rw [symbolSetsOfAll] at only
    rw [MatchesSome] at matched
    rcases matched with matched | matched
    · exact letters_of_matchesBy first only.append.1 matched
    · exact letters_of_matchesSome rest only.append.2 matched

theorem letters_of_matchesEach : ∀ (factors : List Regex) {word : List Nat},
    ReadsOnly charset reads P (symbolSetsOfAll charset factors) → MatchesEach reads factors word →
      ∀ x ∈ word, P x
  | [], _, _, matched => by
    rw [MatchesEach] at matched
    rw [matched]
    simp
  | first :: rest, _, only, matched => by
    rw [symbolSetsOfAll] at only
    rw [MatchesEach] at matched
    obtain ⟨before, after, rfl, one, others⟩ := matched
    intro x member
    rcases List.mem_append.mp member with early | late
    · exact letters_of_matchesBy first only.append.1 one x early
    · exact letters_of_matchesEach rest only.append.2 others x late

end

end Letters

/-! Limits that are in order stay what they are, and no expression gets other symbols. -/

mutual

theorem ordered_eq_self : ∀ r : Regex, r.CountsOrdered → r.ordered = r
  | alternation alternates, inOrder => by
    rw [CountsOrdered] at inOrder
    rw [ordered, orderedAll_eq_self alternates inOrder]
  | concatenation factors, inOrder => by
    rw [CountsOrdered] at inOrder
    rw [ordered, orderedAll_eq_self factors inOrder]
  | star inner, inOrder => by
    rw [CountsOrdered] at inOrder
    rw [ordered, ordered_eq_self inner inOrder]
  | plus inner, inOrder => by
    rw [CountsOrdered] at inOrder
    rw [ordered, ordered_eq_self inner inOrder]
  | optional inner, inOrder => by
    rw [CountsOrdered] at inOrder
    rw [ordered, ordered_eq_self inner inOrder]
  | repetition inner least most, inOrder => by
    rw [CountsOrdered] at inOrder
    have limits : most.map (max least) = most := by
      cases most with
      | none => rfl
      | some limit => rw [Option.map_some, Nat.max_eq_right (inOrder.1 limit rfl)]
    rw [ordered, ordered_eq_self inner inOrder.2, limits]
  | symbol _, _ => by rw [ordered]
  | symbolClass _, _ => by rw [ordered]
  | empty, _ => by rw [ordered]

theorem orderedAll_eq_self : ∀ rs : List Regex, AllCountsOrdered rs → orderedAll rs = rs
  | [], _ => by rw [orderedAll]
  | first :: rest, inOrder => by
    rw [AllCountsOrdered] at inOrder
    rw [orderedAll, ordered_eq_self first inOrder.1, orderedAll_eq_self rest inOrder.2]

end

mutual

theorem symbolSets_ordered (charset : Charset) :
    ∀ r : Regex, r.ordered.symbolSets charset = r.symbolSets charset
  | alternation alternates => by
      rw [ordered, symbolSets, symbolSets, symbolSetsOfAll_ordered charset alternates]
  | concatenation factors => by
      rw [ordered, symbolSets, symbolSets, symbolSetsOfAll_ordered charset factors]
  | star inner => by rw [ordered, symbolSets, symbolSets, symbolSets_ordered charset inner]
  | plus inner => by rw [ordered, symbolSets, symbolSets, symbolSets_ordered charset inner]
  | optional inner => by rw [ordered, symbolSets, symbolSets, symbolSets_ordered charset inner]
  | repetition inner _ _ => by
      rw [ordered, symbolSets, symbolSets, symbolSets_ordered charset inner]
  | symbol _ => by rw [ordered]
  | symbolClass _ => by rw [ordered]
  | empty => by rw [ordered]

theorem symbolSetsOfAll_ordered (charset : Charset) :
    ∀ rs : List Regex, symbolSetsOfAll charset (orderedAll rs) = symbolSetsOfAll charset rs
  | [] => by rw [orderedAll]
  | first :: rest => by
    rw [orderedAll, symbolSetsOfAll, symbolSetsOfAll, symbolSets_ordered charset first,
      symbolSetsOfAll_ordered charset rest]

end

end Regex

namespace Pattern

theorem ordered_eq_self {p : Pattern} (inOrder : p.CountsOrdered) : p.ordered = p := by
  obtain ⟨lineStart, body, context, lineEnd⟩ := p
  have contexts : context.map Regex.ordered = context := by
    cases context with
    | none => rfl
    | some context => rw [Option.map_some, Regex.ordered_eq_self context (inOrder.2 context rfl)]
  rw [ordered, Regex.ordered_eq_self body inOrder.1, contexts]

theorem symbolSets_ordered (charset : Charset) (p : Pattern) :
    p.ordered.symbolSets charset = p.symbolSets charset := by
  obtain ⟨lineStart, body, context, lineEnd⟩ := p
  cases context with
  | none => simp only [symbolSets, ordered, Option.map_none, Regex.symbolSets_ordered]
  | some context => simp only [symbolSets, ordered, Option.map_some, Regex.symbolSets_ordered]

section Letters

variable {charset : Charset} {partition : Partition} {p : Pattern} {token following : List Nat}

theorem matches_map_iff (agrees : Regex.Agrees partition f P (p.symbolSets charset))
    (token_known : ∀ x ∈ token, P x) (following_known : ∀ x ∈ following, P x) :
    p.Matches charset token following ↔
      p.MatchesBy (partition.Reads charset) (token.map f) (following.map f) := by
  have tokens := Regex.related_map (f := f) token_known
  have behind := Regex.related_map (f := f) following_known
  exact ⟨matchesBy_related agrees.carries.1 tokens behind,
    matchesBy_related agrees.carries.2 tokens.flip behind.flip⟩

theorem letters_of_matchesBy {reads : SymbolClass → Nat → Prop}
    (only : Regex.ReadsOnly charset reads P (p.symbolSets charset))
    (matched : p.MatchesBy reads token following) : ∀ x ∈ token ++ following, P x := by
  rw [symbolSets] at only
  obtain ⟨body, behind⟩ := matched
  intro x member
  rcases List.mem_append.mp member with early | late
  · exact Regex.letters_of_matchesBy p.body only.append.1 body x early
  · have context_only := only.append.2
    cases context : p.context with
    | none =>
      rw [context] at behind
      have nothing : following = [] := behind
      rw [nothing] at late
      cases late
    | some context' =>
      rw [context] at behind context_only
      exact Regex.letters_of_matchesBy context' context_only behind x late

end Letters

end Pattern

end Scangen
