import Scangen.Proofs.Build.Offers
import Scangen.Proofs.Partition.Canonical
import Scangen.Proofs.Pattern.Related
import Scangen.Proofs.Symbol.Letters

/-!
Inputs that are read alike. Of a symbol a scanner only sees which classes hold it and whether it is a
line feed, so symbols that agree in both can stand for each other. That is so for bytes over the two
alphabets, and for the two forms of a letter where case does not count.
-/

namespace Scangen

variable {charset charset' : Charset}

/-- Each class holds both symbols, each one as its charset reads the class, or it holds neither; and
if one of the symbols is a line feed, so is the other. -/
structure ReadAlike (charset charset' : Charset) (x y : Nat) : Prop where
  classes : ∀ k : SymbolClass, x ∈ k.resolve charset ↔ y ∈ k.resolve charset'
  lineFeed : x = lineFeed ↔ y = lineFeed

namespace ReadAlike

theorem symm {x y : Nat} (alike : ReadAlike charset charset' x y) :
    ReadAlike charset' charset y x :=
  ⟨fun k => (alike.classes k).symm, alike.lineFeed.symm⟩

theorem flip {input input' : List Nat}
    (alike : List.Forall₂ (ReadAlike charset charset') input input') :
    List.Forall₂ (ReadAlike charset' charset) input' input :=
  alike.flip.imp fun _ _ => symm

/-- Every expression reads such symbols alike. -/
theorem carries (sets : List SymbolSet) :
    Regex.Carries charset (ReadAlike charset charset') (fun k x => x ∈ k.resolve charset)
      (fun k x => x ∈ k.resolve charset') sets :=
  fun k _ _ _ alike => (alike.classes k).mp

theorem endsLine {rest rest' : List Nat}
    (alike : List.Forall₂ (ReadAlike charset charset') rest rest') (ends : EndsLine rest) :
    EndsLine rest' := by
  cases alike with
  | nil => exact ends
  | cons first _ =>
    unfold EndsLine at ends ⊢
    simpa [first.lineFeed] using ends

end ReadAlike

namespace Regex

variable {s : SymbolSet}

mutual

/-- The sets of an expression are those of its classes, literals among them. -/
theorem exists_class_of_mem_symbolSets : ∀ r : Regex, s ∈ r.symbolSets charset →
    ∃ k : SymbolClass, s = k.resolve charset
  | alternation alternates, member => exists_class_of_mem_symbolSetsOfAll alternates member
  | concatenation factors, member => exists_class_of_mem_symbolSetsOfAll factors member
  | star inner, member | plus inner, member | optional inner, member
  | repetition inner _ _, member => exists_class_of_mem_symbolSets inner member
  | symbol c, member => ⟨⟨.single c, false⟩, List.mem_singleton.mp member⟩
  | symbolClass k, member => ⟨k, List.mem_singleton.mp member⟩
  | empty, member => nomatch member

theorem exists_class_of_mem_symbolSetsOfAll : ∀ rs : List Regex,
    s ∈ symbolSetsOfAll charset rs → ∃ k : SymbolClass, s = k.resolve charset
  | [], member => nomatch member
  | first :: rest, member =>
    (List.mem_append.mp member).elim (exists_class_of_mem_symbolSets first)
      (exists_class_of_mem_symbolSetsOfAll rest)

end

end Regex

theorem Pattern.exists_class_of_mem_symbolSets {pattern : Pattern} {s : SymbolSet}
    (member : s ∈ pattern.symbolSets charset) : ∃ k : SymbolClass, s = k.resolve charset := by
  rcases List.mem_append.mp member with body | behind
  · exact pattern.body.exists_class_of_mem_symbolSets body
  · cases context : pattern.context with
    | none =>
      rw [context] at behind
      cases behind
    | some r =>
      rw [context] at behind
      exact r.exists_class_of_mem_symbolSets behind

/-- Where symbols that no rule tells apart are joined, such symbols have one class. -/
theorem Partition.classOf_readAlike {spec : Spec} {config : Config} {x y : Nat}
    (joined : config.classes = true) (alike : ReadAlike config.charset config.charset x y)
    (x_small : x ≤ config.charset.alphabet.maxSymbol)
    (y_small : y ≤ config.charset.alphabet.maxSymbol) :
    (ofSpec spec config).classOf x = (ofSpec spec config).classOf y := by
  have canonical : (ofSpec spec config).Canonical (setsOf spec config.charset) := by
    rw [ofSpec, if_pos joined]
    exact canonical_ofSets
  have alphabet : (ofSpec spec config).alphabet = config.charset.alphabet := alphabet_ofSpec spec config
  rw [← alphabet] at x_small y_small
  refine (canonical.alike x x_small y y_small).mpr fun s listed => ?_
  obtain ⟨pattern, _, part⟩ :=
    List.mem_flatMap.mp (List.mem_filter.mp (mem_distinct.mp listed)).1
  obtain ⟨k, rfl⟩ := pattern.exists_class_of_mem_symbolSets part
  exact alike.classes k

namespace Spec

variable {spec : Spec} {condition id matched : Nat} {atLineStart : Bool} {input input' : List Nat}
  {pattern : Pattern} (alike : List.Forall₂ (ReadAlike charset charset') input input')

include alike

theorem Fits.readAlike (fits : spec.Fits charset condition atLineStart input id pattern) :
    spec.Fits charset' condition atLineStart input' id pattern := by
  refine ⟨fits.active, fits.lineStart, ?_⟩
  obtain ⟨token, following, rfl, matches'⟩ := fits.words
  obtain ⟨token', following', rfl, tokens, behind⟩ := exists_partners alike
  exact ⟨token', following', rfl,
    Pattern.matchesBy_related (ReadAlike.carries _) tokens behind matches'⟩

theorem Fronts.readAlike
    (fronts : spec.Fronts charset condition atLineStart input matched id pattern) :
    spec.Fronts charset' condition atLineStart input' matched id pattern := by
  have taken := List.forall₂_take matched alike
  have dropped := List.forall₂_drop matched alike
  constructor
  · exact alike.length_eq ▸ fronts.inside
  · exact fronts.fits.readAlike taken
  · exact fun asked => ReadAlike.endsLine dropped (fronts.lineEnd asked)

theorem Leads.readAlike
    (leads : spec.Leads charset condition atLineStart input matched id pattern) :
    spec.Leads charset' condition atLineStart input' matched id pattern := by
  refine ⟨leads.fronts.readAlike alike, ?_⟩
  intro id' pattern' fronts' kind
  exact leads.first (fronts'.readAlike (ReadAlike.flip alike)) kind

theorem Offers.readAlike {found : Candidate}
    (offers : spec.Offers charset condition atLineStart input found) :
    spec.Offers charset' condition atLineStart input' found := by
  cases offers with
  | intro leads token => exact .intro (leads.readAlike alike) token

omit alike

/-- Inputs that two charsets read alike give the same longest match. -/
theorem longestMatchAt_readAlike {config config' : Config}
    (alike : List.Forall₂ (ReadAlike config.charset config'.charset) input input')
    {stage stage' : Stage} (room : spec.AddressableAt config stage)
    (room' : spec.AddressableAt config' stage') :
    spec.longestMatchAt config stage condition input atLineStart =
      spec.longestMatchAt config' stage' condition input' atLineStart := by
  refine longestMatchAt_congr (fun found => ?_) room room'
  constructor
  · exact fun offers => offers.readAlike alike
  · exact fun offers => offers.readAlike (ReadAlike.flip alike)

/-- The two alphabets differ in nothing that a scanner of bytes sees, as long as the case of letters
counts: at every stage, in every condition, each input of bytes has the same longest match. Only of
tables this is not said where they are not addressable. -/
theorem longestMatch_bytes (spec : Spec) {config config' : Config}
    (byte : config.charset = ⟨.byte, false⟩) (unicode : config'.charset = ⟨.unicode, false⟩)
    (bytes : ∀ c ∈ input, c ≤ Alphabet.byte.maxSymbol) {stage stage' : Stage}
    (room : spec.AddressableAt config stage) (room' : spec.AddressableAt config' stage')
    (condition : Nat) (atLineStart : Bool) :
    spec.longestMatchAt config stage condition input atLineStart =
      spec.longestMatchAt config' stage' condition input atLineStart := by
  refine longestMatchAt_readAlike ?_ room room'
  rw [byte, unicode, List.forall₂_same]
  intro c member
  exact ⟨fun k => SymbolClass.mem_resolve_byte (bytes c member), Iff.rfl⟩

/-- A symbol that is no byte, all symbols but a letter, and a line without its end. -/
def beyondBytes : Spec :=
  ⟨[⟨initialName, false⟩],
    [⟨none, .matching (.ofRegex (.symbol 945)), .inclusive, ⟨1, 1⟩⟩,
      ⟨none, .matching (.ofRegex (.symbolClass ⟨.single 97, true⟩)), .inclusive, ⟨2, 1⟩⟩,
      ⟨none, .matching ⟨false, .plus (.symbolClass .anyButLineFeed), none, true⟩, .inclusive,
        ⟨3, 1⟩⟩]⟩

/-- Classes of all other symbols go on behind the bytes in one alphabet only, and one rule matches
nothing in the other. -/
theorem beyondBytes_bytes :
    (∀ c ∈ [0xE9, 97, 10], c ≤ Alphabet.byte.maxSymbol) ∧
    beyondBytes.longestMatchAt byteConfig .nondeterministic 0 [0xE9, 97, 10] false =
      some ⟨2, 2, 2⟩ ∧
    beyondBytes.longestMatchAt ⟨⟨.unicode, false⟩, true, false, ⟨.squeezed, true⟩⟩
      (.tables false ⟨.squeezed, true⟩) 0 [0xE9, 97, 10] false = some ⟨2, 2, 2⟩ := by
  have bytes : ∀ c ∈ [0xE9, 97, 10], c ≤ Alphabet.byte.maxSymbol := by decide
  have found : beyondBytes.longestMatchAt byteConfig .nondeterministic 0 [0xE9, 97, 10] false =
      some ⟨2, 2, 2⟩ := by
    decide +kernel
  refine ⟨bytes, found, ?_⟩
  rw [← found]
  have room : beyondBytes.AddressableAt byteConfig .nondeterministic := True.intro
  have room' : beyondBytes.AddressableAt ⟨⟨.unicode, false⟩, true, false, ⟨.squeezed, true⟩⟩
      (.tables false ⟨.squeezed, true⟩) := True.intro
  exact (longestMatch_bytes beyondBytes rfl rfl bytes room room' 0 false).symm

theorem classOf_stage (spec : Spec) (config : Config) :
    ((spec.nfa config).recognizer (Partition.ofSpec spec config)).classOf =
        (Partition.ofSpec spec config).classOf ∧
      (∀ minimal, ((spec.dfa config minimal).recognizer (Partition.ofSpec spec config)).classOf =
        (Partition.ofSpec spec config).classOf) ∧
      ∀ minimal layout, (spec.tables config minimal layout).recognizer.classOf =
        (Partition.ofSpec spec config).classOf :=
  ⟨rfl, fun _ => rfl, fun _ _ => classOf_tables⟩

/-- Where the case of letters does not count, a scanner of bytes does not see it: inputs that differ
in case only have the same longest match, whatever literals, ranges and negated classes the rules
are made of. This is said of all automata and of addressable tables, and of all tables whose classes
join what no rule tells apart: these are asked for the same places. -/
theorem longestMatch_sameLetters (spec : Spec) {config : Config}
    (agnostic : config.charset = ⟨.byte, true⟩)
    (letters : List.Forall₂ SameByteLetter input input') (condition : Nat) (atLineStart : Bool) :
    (∀ stage stage', spec.AddressableAt config stage → spec.AddressableAt config stage' →
      spec.longestMatchAt config stage condition input atLineStart =
        spec.longestMatchAt config stage' condition input' atLineStart) ∧
    (config.classes = true → ∀ stage,
      spec.longestMatchAt config stage condition input atLineStart =
        spec.longestMatchAt config stage condition input' atLineStart) := by
  have alike : ∀ x y, SameByteLetter x y → ReadAlike config.charset config.charset x y := by
    rw [agnostic]
    exact fun _ _ letter => ⟨letter.mem_resolve_iff, letter.lineFeed_iff⟩
  constructor
  · exact fun stage stage' room room' => longestMatchAt_readAlike (letters.imp alike) room room'
  · intro joined stage
    have sorted : List.Forall₂ (fun c c' => (Partition.ofSpec spec config).classOf c =
        (Partition.ofSpec spec config).classOf c' ∧ (c = lineFeed ↔ c' = lineFeed)) input input' := by
      refine letters.imp fun x y letter => ⟨?_, letter.lineFeed_iff⟩
      apply Partition.classOf_readAlike joined (alike x y letter)
      · rw [agnostic]
        exact letter.left
      · rw [agnostic]
        exact letter.right
    obtain ⟨nondeterministic, deterministic, tables⟩ := classOf_stage spec config
    cases stage with
    | nondeterministic =>
      rw [← nondeterministic] at sorted
      exact Recognizer.longestMatch_sorted sorted condition atLineStart
    | deterministic minimal =>
      rw [← deterministic minimal] at sorted
      exact Recognizer.longestMatch_sorted sorted condition atLineStart
    | tables minimal layout =>
      rw [← tables minimal layout] at sorted
      exact Recognizer.longestMatch_sorted sorted condition atLineStart

/-- A word in front of a symbol that is none of some letters, and words with these letters. -/
def accents : Spec :=
  ⟨[⟨initialName, false⟩],
    [⟨none, .matching ⟨false, .literal [105, 102],
        some (.symbolClass ⟨.ofRanges [⟨0xE0, 0xF6, by decide⟩], true⟩), false⟩, .inclusive, ⟨1, 1⟩⟩,
      ⟨none, .matching (.ofRegex (.plus (.symbolClass
        ⟨.ofRanges [⟨97, 122, by decide⟩, ⟨0xE0, 0xF6, by decide⟩], false⟩))), .inclusive,
        ⟨2, 1⟩⟩]⟩

/-- A capital is left out by a negated class of small letters. -/
theorem accents_sameLetters :
    List.Forall₂ SameByteLetter [105, 102, 0xE9] [73, 70, 0xC9] ∧
    accents.longestMatchAt ⟨⟨.byte, true⟩, true, true, ⟨.rows, true⟩⟩ .nondeterministic 0
      [105, 102, 0xE9] true = some ⟨1, 3, 3⟩ ∧
    accents.longestMatchAt ⟨⟨.byte, true⟩, true, true, ⟨.rows, true⟩⟩ (.tables true ⟨.rows, true⟩) 0
      [73, 70, 0xC9] true = some ⟨1, 3, 3⟩ := by
  have letters : List.Forall₂ SameByteLetter [105, 102, 0xE9] [73, 70, 0xC9] := by
    refine .cons ⟨?_, by decide, by decide⟩ (.cons ⟨?_, by decide, by decide⟩
      (.cons ⟨?_, by decide, by decide⟩ .nil))
    all_goals exact Or.inr (Or.inr (Or.inl (by decide +kernel)))
  have found : accents.longestMatchAt ⟨⟨.byte, true⟩, true, true, ⟨.rows, true⟩⟩ .nondeterministic 0
      [105, 102, 0xE9] true = some ⟨1, 3, 3⟩ := by
    decide +kernel
  refine ⟨letters, found, ?_⟩
  rw [← found]
  have agnostic : Config.charset ⟨⟨.byte, true⟩, true, true, ⟨.rows, true⟩⟩ = ⟨.byte, true⟩ := rfl
  have agree := (longestMatch_sameLetters accents agnostic letters 0 true).1
  exact (agree .nondeterministic (.tables true ⟨.rows, true⟩) True.intro True.intro).symm

end Spec

end Scangen
