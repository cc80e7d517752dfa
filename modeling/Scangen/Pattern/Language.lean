import Scangen.Pattern.Basic

/-!
The words that an expression stands for. Symbols outside the alphabet match nothing, and an
alternation without alternates has no words.
-/

namespace Scangen

/-- A word that falls into this many words of a language. -/
inductive Repeated (language : List Nat → Prop) : Nat → List Nat → Prop
  | none : Repeated language 0 []
  | more {count : Nat} {first rest : List Nat} : language first → Repeated language count rest →
      Repeated language (count + 1) (first ++ rest)

namespace Regex

mutual

/-- The word belongs to the language of the expression, where `reads k x` says that `x` is one of
the letters that the class `k` stands for. -/
def MatchesBy (reads : SymbolClass → Nat → Prop) : Regex → List Nat → Prop
  | alternation alternates, word => MatchesSome reads alternates word
  | concatenation factors, word => MatchesEach reads factors word
  | star inner, word => ∃ count, Repeated (MatchesBy reads inner) count word
  | plus inner, word => ∃ count, Repeated (MatchesBy reads inner) (count + 1) word
  | optional inner, word => word = [] ∨ MatchesBy reads inner word
  | repetition inner least most, word =>
    ∃ count, least ≤ count ∧ (∀ limit ∈ most, count ≤ limit) ∧
      Repeated (MatchesBy reads inner) count word
  | symbol c, word => ∃ x, reads ⟨.single c, false⟩ x ∧ word = [x]
  | symbolClass k, word => ∃ x, reads k x ∧ word = [x]
  | empty, word => word = []

def MatchesSome (reads : SymbolClass → Nat → Prop) : List Regex → List Nat → Prop
  | [], _ => False
  | first :: rest, word => MatchesBy reads first word ∨ MatchesSome reads rest word

/-- The word is made of one word for each of the expressions. -/
def MatchesEach (reads : SymbolClass → Nat → Prop) : List Regex → List Nat → Prop
  | [], word => word = []
  | first :: rest, word =>
    ∃ before after, word = before ++ after ∧ MatchesBy reads first before ∧
      MatchesEach reads rest after

end

/-- The word belongs to the language of the expression over a charset. -/
def Matches (charset : Charset) (r : Regex) (word : List Nat) : Prop :=
  r.MatchesBy (fun k x => x ∈ k.resolve charset) word

mutual

/-- No repetition asks for more copies than it allows. -/
def CountsOrdered : Regex → Prop
  | alternation alternates => AllCountsOrdered alternates
  | concatenation factors => AllCountsOrdered factors
  | star inner => CountsOrdered inner
  | plus inner => CountsOrdered inner
  | optional inner => CountsOrdered inner
  | repetition inner least most => (∀ limit ∈ most, least ≤ limit) ∧ CountsOrdered inner
  | symbol _ => True
  | symbolClass _ => True
  | empty => True

def AllCountsOrdered : List Regex → Prop
  | [] => True
  | first :: rest => CountsOrdered first ∧ AllCountsOrdered rest

end

mutual

/-- The expression with every upper limit raised to the lower one where it lies below it. That is
how automata read limits that are the wrong way round. -/
def ordered : Regex → Regex
  | alternation alternates => alternation (orderedAll alternates)
  | concatenation factors => concatenation (orderedAll factors)
  | star inner => star (ordered inner)
  | plus inner => plus (ordered inner)
  | optional inner => optional (ordered inner)
  | repetition inner least most => repetition (ordered inner) least (most.map (max least))
  | symbol c => symbol c
  | symbolClass k => symbolClass k
  | empty => empty

def orderedAll : List Regex → List Regex
  | [] => []
  | first :: rest => ordered first :: orderedAll rest

end

end Regex

namespace Pattern

/-- The token is a word of the body, and what follows it is one of the context if there is one. -/
def MatchesBy (reads : SymbolClass → Nat → Prop) (p : Pattern) (token following : List Nat) :
    Prop :=
  p.body.MatchesBy reads token ∧
    match p.context with
    | none => following = []
    | some context => context.MatchesBy reads following

def Matches (charset : Charset) (p : Pattern) (token following : List Nat) : Prop :=
  p.MatchesBy (fun k x => x ∈ k.resolve charset) token following

def CountsOrdered (p : Pattern) : Prop :=
  p.body.CountsOrdered ∧ ∀ context ∈ p.context, context.CountsOrdered

def ordered (p : Pattern) : Pattern :=
  { p with body := p.body.ordered, context := p.context.map Regex.ordered }

end Pattern

end Scangen
