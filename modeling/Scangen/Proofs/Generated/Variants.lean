import Mathlib.Data.List.Nodup
import Mathlib.Data.Nat.Init
import Scangen.Generated.Variants
import Scangen.Proofs.Generated.Values

/-!
The variants of the rules are identifiers, and no two of them are equal. A rule whose name is taken tries
one candidate after another. No candidate comes up twice, so that one of them is free before there are more
of them than names in use.
-/

namespace Scangen.Generated

section Candidates

variable {used used' : List String} {plain variant : String} {id version : Nat}

/-- What a rule ends up with if it tries its candidates from a version on. -/
inductive Settles (used : List String) (plain : String) (id : Nat) : Nat → String → Prop
  | free {version : Nat} : variantCandidate plain id version ∉ used →
      Settles used plain id version (variantCandidate plain id version)
  | taken {version : Nat} {variant : String} : variantCandidate plain id version ∈ used →
      Settles used plain id (version + 1) variant → Settles used plain id version variant

/-- What a candidate has behind the plain name. -/
def variantSuffix (id : Nat) : Nat → List Char
  | 0 => []
  | 1 => digits id
  | version + 2 => digits id ++ 'V' :: digits (version + 1)

theorem digits_injective : Function.Injective digits := by
  intro m n same
  have values := congrArg (fun text => Nat.ofDigitChars 10 text 0) same
  simpa only [ofDigitChars_digits] using values

theorem variantSuffix_injective (id : Nat) : Function.Injective (variantSuffix id) := by
  have nonempty : digits id ≠ [] := Nat.toDigits_ne_nil
  intro version version' same
  match version, version' with
  | 0, 0 | 1, 1 => rfl
  | 0, 1 => exact absurd same.symm nonempty
  | 1, 0 => exact absurd same nonempty
  | 0, _ + 2 | _ + 2, 0 => simp [variantSuffix] at same
  | 1, _ + 2 | _ + 2, 1 => simp [variantSuffix] at same
  | first + 2, second + 2 =>
    have versions : digits (first + 1) = digits (second + 1) := by simpa [variantSuffix] using same
    have equal := digits_injective versions
    omega

theorem toList_variantCandidate (plain : String) (id version : Nat) :
    (variantCandidate plain id version).toList = plain.toList ++ variantSuffix id version := by
  have plainText : toString plain = plain := rfl
  have letter : (toString "V").toList = ['V'] := rfl
  match version with
  | 0 => simp [variantCandidate, variantSuffix]
  | 1 => simp [variantCandidate, variantSuffix, plainText, digits]
  | version + 2 => simp [variantCandidate, variantSuffix, plainText, letter, digits]

theorem variantCandidate_injective (plain : String) (id : Nat) :
    Function.Injective (variantCandidate plain id) := by
  intro version version' same
  have texts := congrArg String.toList same
  rw [toList_variantCandidate, toList_variantCandidate] at texts
  exact variantSuffix_injective id (List.append_cancel_left texts)

/-- The names in use are too few for all candidates. -/
theorem exists_unused (used : List String) (plain : String) (id : Nat) :
    ∃ version ≤ used.length, variantCandidate plain id version ∉ used := by
  by_contra none
  push Not at none
  have distinct : ((List.range (used.length + 1)).map (variantCandidate plain id)).Nodup :=
    List.nodup_range.map (variantCandidate_injective plain id)
  have inUse : (List.range (used.length + 1)).map (variantCandidate plain id) ⊆ used := by
    intro candidate member
    obtain ⟨version, early, rfl⟩ := List.mem_map.mp member
    exact none version (Nat.le_of_lt_succ (List.mem_range.mp early))
  have few := distinct.length_le_of_subset inUse
  rw [List.length_map, List.length_range] at few
  omega

theorem Settles.of_first {start : Nat} (before : start ≤ version)
    (unused : variantCandidate plain id version ∉ used)
    (inUse : ∀ earlier < version, variantCandidate plain id earlier ∈ used) :
    Settles used plain id start (variantCandidate plain id version) := by
  induction before using Nat.decreasingInduction with
  | self => exact .free unused
  | of_succ earlier before ih => exact .taken (inUse earlier before) ih

/-- The search always ends, and with this name. -/
theorem freeVariant_settles (used : List String) (plain : String) (id : Nat) :
    Settles used plain id 0 (freeVariant used plain id) := by
  unfold freeVariant
  rw [List.find?_map]
  cases first : (List.range (used.length + 1)).find?
      ((fun candidate => !used.contains candidate) ∘ variantCandidate plain id) with
  | none =>
    obtain ⟨version, early, unused⟩ := exists_unused used plain id
    have inUse := List.find?_eq_none.mp first version
      (List.mem_range.mpr (Nat.lt_succ_of_le early))
    simp [unused] at inUse
  | some version =>
    obtain ⟨unused, _, inUse⟩ := List.find?_range_eq_some.mp first
    apply Settles.of_first (Nat.zero_le version)
    · simpa using unused
    · intro earlier before
      simpa using inUse earlier before

theorem Settles.not_mem (settled : Settles used plain id version variant) : variant ∉ used := by
  induction settled with
  | free unused => exact unused
  | taken _ _ ih => exact ih

theorem Settles.exists_version (settled : Settles used plain id version variant) :
    ∃ last, variant = variantCandidate plain id last := by
  induction settled with
  | free => exact ⟨_, rfl⟩
  | taken _ _ ih => exact ih

/-- A plain name that is not in use is kept. -/
theorem Settles.eq_plain (settled : Settles used plain id 0 variant) (unused : plain ∉ used) :
    variant = plain := by
  cases settled with
  | free => rfl
  | taken inUse => exact absurd inUse unused

theorem Settles.congr (settled : Settles used plain id version variant)
    (same : ∀ name, name ∈ used ↔ name ∈ used') : Settles used' plain id version variant := by
  induction settled with
  | free unused =>
    rw [same] at unused
    exact .free unused
  | taken inUse _ ih => exact .taken ((same _).mp inUse) ih

end Candidates

section Identifiers

/-- A letter, and behind it letters, digits and underscores. -/
def IsIdentifier (name : String) : Prop :=
  ∃ first rest, name.toList = first :: rest ∧ first.isAlpha ∧ ∀ c ∈ rest, isIdentifierCharacter c

theorem isIdentifierCharacter_of_isDigit {c : Char} (digit : c.isDigit) :
    isIdentifierCharacter c := by
  simp [isIdentifierCharacter, Char.isAlphanum, digit]

theorem IsIdentifier.extend {name longer : String} {suffix : List Char}
    (identifier : IsIdentifier name) (extended : longer.toList = name.toList ++ suffix)
    (allowed : ∀ c ∈ suffix, isIdentifierCharacter c) : IsIdentifier longer := by
  obtain ⟨first, rest, letters, letter, others⟩ := identifier
  refine ⟨first, rest ++ suffix, ?_, letter, ?_⟩
  · rw [extended, letters, List.cons_append]
  · intro c member
    rcases List.mem_append.mp member with front | back
    · exact others c front
    · exact allowed c back

theorem isIdentifier_identifier (text : String) : IsIdentifier (identifier text) := by
  have kept : ∀ c ∈ text.toList.filter isIdentifierCharacter, isIdentifierCharacter c :=
    fun c member => (List.mem_filter.mp member).2
  have letters : ∀ c ∈ ['u', 'l', 'e'], isIdentifierCharacter c := List.all_eq_true.mp (by decide)
  have rule : IsIdentifier "Rule" := ⟨'R', ['u', 'l', 'e'], rfl, by decide, letters⟩
  unfold identifier
  dsimp only
  split
  next letter =>
    cases letters : text.toList.filter isIdentifierCharacter with
    | nil => simp [letters] at letter
    | cons first rest =>
      rw [letters] at letter kept
      exact ⟨first, rest, String.toList_ofList, by simpa using letter,
        fun c member => kept c (List.mem_cons_of_mem _ member)⟩
  next => exact rule.extend (by simp) kept

theorem isIdentifierCharacter_of_mem_suffix {id version : Nat} {c : Char}
    (member : c ∈ variantSuffix id version) : isIdentifierCharacter c := by
  have digit : ∀ n, c ∈ digits n → isIdentifierCharacter c :=
    fun n inside => isIdentifierCharacter_of_isDigit (isDigit_of_mem_digits c inside)
  match version with
  | 0 => cases member
  | 1 => exact digit id member
  | version + 2 =>
    rcases List.mem_append.mp member with front | back
    · exact digit id front
    · rcases List.mem_cons.mp back with rfl | back
      · decide
      · exact digit (version + 1) back

theorem isIdentifier_variantCandidate {plain : String} (identifier : IsIdentifier plain)
    (id version : Nat) : IsIdentifier (variantCandidate plain id version) :=
  identifier.extend (toList_variantCandidate plain id version)
    fun _ => isIdentifierCharacter_of_mem_suffix

end Identifiers

section Variants

variable (convert : String → String) {names : List (Option String)}

theorem length_variantsFrom (used : List String) (id : Nat) (names : List (Option String)) :
    (variantsFrom convert used id names).length = names.length := by
  induction names generalizing used id with
  | nil => rfl
  | cons name rest ih => simp [variantsFrom, ih]

/-- A rule settles on its variant with all variants in front of it in use. -/
theorem variantsFrom_settles (used : List String) (id : Nat) {place : Nat} {name : Option String}
    (listed : names[place]? = some name) :
    ∃ variant, (variantsFrom convert used id names)[place]? = some variant ∧
      Settles (((variantsFrom convert used id names).take place).reverse ++ used)
        (plainVariant convert name (id + place)) (id + place) 0 variant := by
  induction names generalizing used id place with
  | nil => simp at listed
  | cons first rest ih =>
    cases place with
    | zero =>
      obtain rfl : first = name := by simpa using listed
      exact ⟨_, rfl, freeVariant_settles used _ _⟩
    | succ place =>
      obtain ⟨variant, there, settled⟩ := ih (_ :: used) (id + 1) listed
      refine ⟨variant, there, ?_⟩
      simpa [variantsFrom, Nat.add_right_comm, Nat.add_assoc, Nat.add_comm 1 place] using settled

theorem not_mem_of_mem_variantsFrom {used : List String} {id : Nat} {variant : String}
    (member : variant ∈ variantsFrom convert used id names) : variant ∉ used := by
  induction names generalizing used id with
  | nil => cases member
  | cons name rest ih =>
    rcases List.mem_cons.mp member with rfl | later
    · exact (freeVariant_settles used _ id).not_mem
    · exact fun inUse => ih later (List.mem_cons_of_mem _ inUse)

theorem variantsFrom_nodup (used : List String) (id : Nat) (names : List (Option String)) :
    (variantsFrom convert used id names).Nodup := by
  induction names generalizing used id with
  | nil => exact List.nodup_nil
  | cons name rest ih =>
    apply List.nodup_cons.mpr
    exact ⟨fun later => not_mem_of_mem_variantsFrom convert later List.mem_cons_self, ih _ _⟩

/-- What the variants of rules have to be. -/
structure ProperVariants (rules : List Rule) (variants : List String) : Prop where
  length : variants.length = rules.length
  nodup : variants.Nodup
  identifiers : ∀ variant ∈ variants, IsIdentifier variant
  /-- The search of every rule ends. -/
  settles : ∀ id rule, rules[id]? = some rule → ∃ variant, variants[id]? = some variant ∧
    Settles (variants.take id) (plainVariant convert rule.name id) id 0 variant
  /-- A plain name that no rule before it has is kept. -/
  plain : ∀ id rule, rules[id]? = some rule →
    plainVariant convert rule.name id ∉ variants.take id →
    variants[id]? = some (plainVariant convert rule.name id)

theorem variants_settle {id : Nat} {name : Option String} (listed : names[id]? = some name) :
    ∃ variant, (variants convert names)[id]? = some variant ∧
      Settles ((variants convert names).take id) (plainVariant convert name id) id 0 variant := by
  obtain ⟨variant, there, settled⟩ := variantsFrom_settles convert [] 0 listed
  rw [Nat.zero_add] at settled
  exact ⟨variant, there, settled.congr (by simp [variants])⟩

theorem isIdentifier_plainVariant (name : Option String) (id : Nat) :
    IsIdentifier (plainVariant convert name id) := isIdentifier_identifier _

theorem isIdentifier_of_mem_variants {variant : String} (member : variant ∈ variants convert names) :
    IsIdentifier variant := by
  obtain ⟨id, there⟩ := List.mem_iff_getElem?.mp member
  have inside := (List.getElem?_eq_some_iff.mp there).1
  rw [variants, length_variantsFrom] at inside
  obtain ⟨found, same, settled⟩ := variants_settle convert (List.getElem?_eq_getElem inside)
  obtain rfl : variant = found := Option.some.inj (there.symm.trans same)
  obtain ⟨version, rfl⟩ := settled.exists_version
  exact isIdentifier_variantCandidate (isIdentifier_plainVariant convert _ id) id version

theorem variants_proper (spec : Spec) :
    ProperVariants convert spec.rules (variants convert (spec.rules.map Rule.name)) where
  length := by simp [variants, length_variantsFrom]
  nodup := variantsFrom_nodup convert [] 0 _
  identifiers _ := isIdentifier_of_mem_variants convert
  settles id rule listed := by
    apply variants_settle
    simp [listed]
  plain id rule listed unused := by
    have named : (spec.rules.map Rule.name)[id]? = some rule.name := by simp [listed]
    obtain ⟨variant, there, settled⟩ := variants_settle convert named
    rw [there, settled.eq_plain unused]

example : variants id [some "Close", some "Close", some "Rule3", none, some "Close"] =
    ["Close", "Close1", "Rule3", "Rule33", "Close4"] := by
  decide

end Variants

end Scangen.Generated
