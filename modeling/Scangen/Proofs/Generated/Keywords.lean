import Scangen.Generated.Module
import Scangen.Proofs.Generated.Variants
import Scangen.Proofs.Spec.Definition
import Scangen.Proofs.Text.PascalCase

/-!
Keywords among the variants of the rules. Nothing keeps a variant from being one: a name that turns into a
keyword in Pascal case is a variant as it is. In a definition text those are the names that read "self".
-/

namespace Scangen.Generated

/-- Keywords have no digits, and only one of them has a capital in front. -/
theorem letters_of_mem_keywords {word : String} (reserved : word ∈ keywords) :
    (∀ c ∈ word.toList, c.isDigit = false) ∧
      (word.toList.head?.any Char.isLower = false → word = "Self") := by
  have letters : keywords.all fun word => (word.toList.all fun c => !c.isDigit) &&
      (word.toList.head?.any Char.isLower || word = "Self") := by
    decide
  have one := List.all_eq_true.mp letters word reserved
  simp only [Bool.and_eq_true, List.all_eq_true, Bool.not_eq_true', Bool.or_eq_true,
    decide_eq_true_eq] at one
  exact ⟨one.1, fun capital => one.2.resolve_left (by simp [capital])⟩

theorem exists_mem_digits (n : Nat) : ∃ digit, digit ∈ digits n :=
  List.exists_mem_of_ne_nil _ Nat.toDigits_ne_nil

theorem not_mem_keyword_of_mem_digits {word : String} {n : Nat} {digit : Char}
    (reserved : word ∈ keywords) (inside : digit ∈ digits n) : digit ∉ word.toList := by
  intro member
  have none := (letters_of_mem_keywords reserved).1 digit member
  rw [isDigit_of_mem_digits digit inside] at none
  cases none

section Variants

variable {word : String} {id version : Nat}

/-- A name that a number was added to is no keyword. -/
theorem eq_plain_of_keyword {plain : String} (reserved : word ∈ keywords)
    (candidate : word = variantCandidate plain id version) : word = plain := by
  have numbered : ∀ suffix : List Char, word.toList ≠ plain.toList ++ (digits id ++ suffix) := by
    intro suffix letters
    obtain ⟨digit, inside⟩ := exists_mem_digits id
    apply not_mem_keyword_of_mem_digits reserved inside
    simp [letters, inside]
  have letters := congrArg String.toList candidate
  rw [toList_variantCandidate] at letters
  match version with
  | 0 => exact candidate
  | 1 => exact absurd (by simpa [variantSuffix] using letters) (numbered [])
  | version + 2 => exact absurd (by simpa [variantSuffix] using letters) (numbered _)

theorem mem_identifier {text : String} {c : Char} (member : c ∈ text.toList)
    (allowed : isIdentifierCharacter c) : c ∈ (identifier text).toList := by
  have kept : c ∈ text.toList.filter isIdentifierCharacter := List.mem_filter.mpr ⟨member, allowed⟩
  unfold identifier
  dsimp only
  split
  next => rwa [String.toList_ofList]
  next =>
    rw [String.toList_append]
    exact List.mem_append_right _ (by rwa [String.toList_ofList])

/-- Rules without a name have a number in their variant. -/
theorem plainVariant_none_ne (convert : String → String) (reserved : word ∈ keywords) (id : Nat) :
    plainVariant convert none id ≠ word := by
  intro same
  obtain ⟨digit, inside⟩ := exists_mem_digits id
  have text : s!"Rule{id}".toList = "Rule".toList ++ digits id := by
    rw [← toList_toString, ← String.toList_append]
    rfl
  apply not_mem_keyword_of_mem_digits reserved inside
  rw [← same]
  apply mem_identifier
  · rw [text]
    exact List.mem_append_right _ inside
  · exact isIdentifierCharacter_of_isDigit (isDigit_of_mem_digits digit inside)

/-- The keywords among the variants are those that a name of a rule turns into. -/
theorem mem_variants_iff (convert : String → String) (reserved : word ∈ keywords)
    (rules : List Rule) :
    word ∈ variants convert (rules.map Rule.name) ↔
      ∃ rule ∈ rules, ∃ name ∈ rule.name, identifier (convert name) = word := by
  constructor
  · intro member
    obtain ⟨id, there⟩ := List.mem_iff_getElem?.mp member
    have inside := (List.getElem?_eq_some_iff.mp there).1
    rw [variants, length_variantsFrom, List.length_map] at inside
    have entry : (rules.map Rule.name)[id]? = some rules[id].name := by simp [inside]
    obtain ⟨variant, same, settled⟩ := variants_settle convert entry
    obtain rfl : word = variant := Option.some.inj (there.symm.trans same)
    obtain ⟨version, candidate⟩ := settled.exists_version
    have plain := eq_plain_of_keyword reserved candidate
    cases named : rules[id].name with
    | none =>
      rw [named] at plain
      exact absurd plain.symm (plainVariant_none_ne convert reserved id)
    | some name =>
      rw [named] at plain
      exact ⟨rules[id], List.getElem_mem inside, name, named, plain.symm⟩
  · rintro ⟨rule, listed, name, named, rfl⟩
    obtain ⟨id, there⟩ := List.mem_iff_getElem?.mp listed
    have entry : (rules.map Rule.name)[id]? = some (some name) := by
      simpa [there] using Option.mem_def.mp named
    obtain ⟨variant, same, settled⟩ := variants_settle convert entry
    by_cases taken : identifier (convert name) ∈ (variants convert (rules.map Rule.name)).take id
    · exact List.mem_of_mem_take taken
    · rw [settled.eq_plain taken] at same
      exact List.mem_of_getElem? same

end Variants

section Definitions

open Text

/-- The name reads "self", "Self" or "SELF", up to underscores at its ends. -/
def ReadsSelf (name : String) : Prop :=
  ∃ front word back, name.toList = front ++ word ++ back ∧ (∀ c ∈ front, c = '_') ∧
    (∀ c ∈ back, c = '_') ∧ word ∈ ["self".toList, "Self".toList, "SELF".toList]

theorem isIdentifierCharacter_of_isIdentifier {text : List Char}
    (identifier : Definition.isIdentifier text) : ∀ c ∈ text, isIdentifierCharacter c := by
  have allowed : ∀ c, (Definition.isLetter c || Definition.isDigit c) → isIdentifierCharacter c := by
    intro c known
    simp only [Definition.isLetter, Definition.isDigit, Char.le_def, Bool.or_eq_true,
      Bool.and_eq_true, decide_eq_true_eq] at known
    unfold isIdentifierCharacter Char.isAlphanum Char.isAlpha Char.isUpper Char.isLower Char.isDigit
    simp only [Bool.or_eq_true, Bool.and_eq_true, decide_eq_true_eq]
    tauto
  cases text with
  | nil => simp
  | cons first rest =>
    simp only [Definition.isIdentifier, Bool.and_eq_true, List.all_eq_true] at identifier
    exact List.forall_mem_cons.mpr ⟨allowed first (by simp [identifier.1]),
      fun c later => allowed c (identifier.2 c later)⟩

theorem isIdentifierCharacter_printable {c : Char} (allowed : isIdentifierCharacter c) :
    0x20 ≤ c.toNat ∧ c.toNat < 0x7F := by
  simp only [isIdentifierCharacter, Bool.or_eq_true, decide_eq_true_eq] at allowed
  rcases allowed with letter | rfl
  · unfold Char.isAlphanum Char.isAlpha Char.isUpper Char.isLower Char.isDigit at letter
    simp [UInt32.le_iff_toNat_le] at letter
    omega
  · decide

theorem separates_iff {c : Char} (allowed : isIdentifierCharacter c) : separates c ↔ c = '_' := by
  have others : c ≠ '-' ∧ c ≠ ' ' := by
    constructor
    · rintro rfl
      exact absurd allowed (by decide)
    · rintro rfl
      exact absurd allowed (by decide)
  simp [separates, others]

theorem isIdentifierCharacter_of_letter {c : Char} (letter : c.isUpper ∨ c.isLower) :
    isIdentifierCharacter c := by
  unfold isIdentifierCharacter Char.isAlphanum Char.isAlpha
  simp [letter]

theorem isIdentifierCharacter_recased {c : Char} (allowed : isIdentifierCharacter c) :
    isIdentifierCharacter c.toUpper ∧ isIdentifierCharacter c.toLower := by
  constructor
  · by_cases small : c.isLower
    · exact isIdentifierCharacter_of_letter (Or.inl (isUpper_toUpper small))
    · rwa [toUpper_of_not_isLower small]
  · by_cases large : c.isUpper
    · exact isIdentifierCharacter_of_letter (Or.inr (isLower_toLower large))
    · rwa [toLower_of_not_isUpper large]

theorem eq_recased (c : Char) :
    (c = c.toUpper ∨ c = c.toUpper.toLower) ∧ (c = c.toLower ∨ c = c.toLower.toUpper) := by
  constructor
  · by_cases small : c.isLower
    · exact Or.inr (toLower_toUpper small).symm
    · exact Or.inl (toUpper_of_not_isLower small).symm
  · by_cases large : c.isUpper
    · exact Or.inr (toUpper_toLower large).symm
    · exact Or.inl (toLower_of_not_isUpper large).symm

theorem isIdentifierCharacter_of_mem_pascalFrom {previous : Option Char} {text : List Char}
    (allowed : ∀ c ∈ text, isIdentifierCharacter c) :
    ∀ c ∈ pascalFrom previous text, isIdentifierCharacter c := by
  induction text generalizing previous with
  | nil => simp [pascalFrom]
  | cons c rest ih =>
    have here := isIdentifierCharacter_recased (allowed c List.mem_cons_self)
    have later : ∀ d ∈ pascalFrom (some c) rest, isIdentifierCharacter d :=
      ih fun d member => allowed d (List.mem_cons_of_mem _ member)
    rw [pascalFrom]
    split
    next => exact later
    next =>
      apply List.forall_mem_cons.mpr ⟨_, later⟩
      split
      next => exact here.1
      next => exact here.2

theorem pascalFrom_of_readsSelf {name : String} (self : ReadsSelf name) :
    pascalFrom none name.toList = "Self".toList := by
  obtain ⟨front, word, back, text, leading, trailing, spelling⟩ := self
  have underscore : separates '_' := rfl
  rw [text, List.append_assoc, pascalFrom_separators fun c member => leading c member ▸ underscore]
  have rest : ∀ previous, pascalFrom previous back = [] := by
    clear text
    induction back with
    | nil => exact fun _ => rfl
    | cons c back ih =>
      intro previous
      obtain rfl := trailing c List.mem_cons_self
      rw [pascalFrom, if_pos underscore]
      exact ih (fun d later => trailing d (List.mem_cons_of_mem _ later)) _
  have next : back.head?.any Char.isLower = false := by
    cases back with
    | nil => rfl
    | cons c back => simp [trailing c List.mem_cons_self]
  simp only [List.mem_cons, List.not_mem_nil, or_false] at spelling
  rcases spelling with rfl | rfl | rfl <;>
    simp [pascalFrom, startsWord, separates, endsWord, rest, next]

/-- Names of letters, digits and underscores are converted from one character after another. -/
def IsPascal (convert : String → String) : Prop :=
  ∀ name, (∀ c ∈ name.toList, isIdentifierCharacter c) →
    convert name = String.ofList (pascalFrom none name.toList)

theorem isPascal_pascalCase : IsPascal pascalCase := fun _ allowed =>
  pascalCase_printable fun c member => isIdentifierCharacter_printable (allowed c member)

section Name

variable {convert : String → String} (pascal : IsPascal convert) {name : String}
    (allowed : ∀ c ∈ name.toList, isIdentifierCharacter c)

include pascal allowed

/-- Nothing in the name is lost on the way but what separates words. -/
theorem identifier_converted : identifier (convert name) =
    if (pascalFrom none name.toList).head?.any Char.isAlpha
      then String.ofList (pascalFrom none name.toList)
      else "Rule" ++ String.ofList (pascalFrom none name.toList) := by
  have all : (pascalFrom none name.toList).filter isIdentifierCharacter =
      pascalFrom none name.toList :=
    List.filter_eq_self.mpr (isIdentifierCharacter_of_mem_pascalFrom allowed)
  rw [pascal name allowed, identifier, String.toList_ofList, all]

theorem identifier_converted_eq_iff :
    identifier (convert name) = "Self" ↔ pascalFrom none name.toList = "Self".toList := by
  rw [identifier_converted pascal allowed]
  split
  next => rw [← String.toList_inj, String.toList_ofList]
  next letterless =>
    constructor
    · intro same
      have letters := congrArg String.toList same
      simp at letters
    · intro same
      rw [same] at letterless
      exact absurd (by decide) letterless

/-- The only keyword with a capital. -/
theorem eq_self_of_keyword (reserved : identifier (convert name) ∈ keywords) :
    identifier (convert name) = "Self" := by
  have capital : (identifier (convert name)).toList.head?.any Char.isLower = false := by
    rw [identifier_converted pascal allowed]
    split
    next =>
      rw [String.toList_ofList]
      cases made : pascalFrom none name.toList with
      | nil => rfl
      | cons d tail =>
        obtain ⟨_, c, _, _, _, _, rfl, _⟩ := exists_of_pascalFrom_cons made
        exact Bool.eq_false_iff.mpr not_isLower_toUpper
    next => simp
  exact (letters_of_mem_keywords reserved).2 capital

omit pascal in
theorem readsSelf_of_pascalFrom (made : pascalFrom none name.toList = "Self".toList) :
    ReadsSelf name := by
  have letters : pascalFrom none name.toList = ['S', 'e', 'l', 'f'] := made
  obtain ⟨front, c₁, rest₁, text, separators, word₁, first, letters⟩ :=
    exists_of_pascalFrom_cons letters
  obtain ⟨c₂, rest₂, rfl, word₂, second, joined₁, letters⟩ :=
    exists_of_pascalFrom_isLower word₁ (by decide) letters
  obtain ⟨c₃, rest₃, rfl, word₃, third, joined₂, letters⟩ :=
    exists_of_pascalFrom_isLower word₂ (by decide) letters
  obtain ⟨c₄, back, rfl, _, fourth, joined₃, letters⟩ :=
    exists_of_pascalFrom_isLower word₃ (by decide) letters
  have separators' := separates_of_pascalFrom_nil letters
  rw [text] at allowed
  have underscore : ∀ c ∈ front ++ back, c = '_' := by
    intro c member
    have inside : c ∈ front ++ c₁ :: c₂ :: c₃ :: c₄ :: back := by
      simp only [List.mem_append, List.mem_cons] at member ⊢
      tauto
    apply (separates_iff (allowed c inside)).mp
    exact (List.mem_append.mp member).elim (separators c) (separators' c)
  have first : c₁ = 'S' ∨ c₁ = 's' := by simpa [first] using (eq_recased c₁).1
  have second : c₂ = 'e' ∨ c₂ = 'E' := by simpa [second] using (eq_recased c₂).2
  have third : c₃ = 'l' ∨ c₃ = 'L' := by simpa [third] using (eq_recased c₃).2
  have fourth : c₄ = 'f' ∨ c₄ = 'F' := by simpa [fourth] using (eq_recased c₄).2
  refine ⟨front, [c₁, c₂, c₃, c₄], back, by simp [text],
    fun c member => underscore c (List.mem_append_left _ member),
    fun c member => underscore c (List.mem_append_right _ member), ?_⟩
  -- a word of small and large letters would end where these meet
  rcases first with rfl | rfl <;> rcases second with rfl | rfl <;> rcases third with rfl | rfl <;>
    rcases fourth with rfl | rfl <;> simp [endsWord] at joined₁ joined₂ joined₃ ⊢

theorem identifier_converted_eq_self_iff :
    identifier (convert name) = "Self" ↔ ReadsSelf name :=
  (identifier_converted_eq_iff pascal allowed).trans
    ⟨readsSelf_of_pascalFrom allowed, pascalFrom_of_readsSelf⟩

end Name

/-- A keyword is among the variants exactly if a name turns into it. With the names of a definition text
in Pascal case, that happens to one keyword only, and exactly if a rule is called "self", "Self" or "SELF",
with or without underscores at the ends. -/
theorem keyword_mem_variants_iff {word : String} (reserved : word ∈ keywords) (spec : Spec)
    (convert : String → String) :
    (word ∈ variants convert (spec.rules.map Rule.name) ↔
      ∃ rule ∈ spec.rules, ∃ name ∈ rule.name, identifier (convert name) = word) ∧
    ∀ text, Spec.ofText text = .ok spec → IsPascal convert →
      (word ∈ variants convert (spec.rules.map Rule.name) ↔
        word = "Self" ∧ ∃ rule ∈ spec.rules, ∃ name ∈ rule.name, ReadsSelf name) := by
  refine ⟨mem_variants_iff convert reserved spec.rules, ?_⟩
  intro text made pascal
  have allowed : ∀ rule ∈ spec.rules, ∀ name ∈ rule.name, ∀ c ∈ name.toList,
      isIdentifierCharacter c := fun rule listed name named =>
    isIdentifierCharacter_of_isIdentifier (Spec.isIdentifier_of_ofText made rule listed name named)
  rw [mem_variants_iff convert reserved]
  constructor
  · rintro ⟨rule, listed, name, named, rfl⟩
    have plain := allowed rule listed name named
    have capital := eq_self_of_keyword pascal plain reserved
    exact ⟨capital, rule, listed, name, named,
      (identifier_converted_eq_self_iff pascal plain).mp capital⟩
  · rintro ⟨rfl, rule, listed, name, named, self⟩
    have plain := allowed rule listed name named
    exact ⟨rule, listed, name, named, (identifier_converted_eq_self_iff pascal plain).mpr self⟩

def selfText : List Char := "self: a".toList

def selfNamed : Spec :=
  { Spec.initial with rules := [⟨some "self", .matching (.ofRegex (.symbol 97)), .inclusive, ⟨1, 7⟩⟩] }

theorem selfText_read : Spec.ofText selfText = .ok selfNamed := rfl

theorem selfText_readsSelf : ReadsSelf "self" :=
  ⟨[], "self".toList, [], rfl, by simp, by simp, by simp⟩

theorem selfNamed_keyword :
    "Self" ∈ keywords ∧ Spec.ofText selfText = .ok selfNamed ∧ IsPascal pascalCase ∧
      "Self" ∈ variants pascalCase (selfNamed.rules.map Rule.name) := by
  have reserved : "Self" ∈ keywords := by decide
  refine ⟨reserved, selfText_read, isPascal_pascalCase, ?_⟩
  apply ((keyword_mem_variants_iff reserved selfNamed pascalCase).2 selfText selfText_read
    isPascal_pascalCase).mpr
  exact ⟨rfl, _, List.mem_cons_self, "self", rfl, selfText_readsSelf⟩

/-- A variant can be a keyword, then, and the generated code is not accepted. -/
theorem exists_keyword_mem_variants : ∃ text spec, Spec.ofText text = .ok spec ∧
    ∃ word ∈ keywords, word ∈ Style.standard.ruleVariants spec := by
  have self : identifier (pascalCase "self") = "Self" :=
    (identifier_converted_eq_self_iff isPascal_pascalCase (List.all_eq_true.mp (by decide))).mpr
      selfText_readsSelf
  refine ⟨selfText, selfNamed, selfText_read, "Self", by decide, ?_⟩
  apply (mem_variants_iff pascalCase (by decide) selfNamed.rules).mpr
  exact ⟨_, List.mem_cons_self, "self", rfl, self⟩

end Definitions

end Scangen.Generated
