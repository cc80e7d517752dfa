import Scangen.Text.PascalCase

/-!
Names in Pascal case whose characters are ASCII letters, digits and underscores. Each character is a
cluster, and the result is made from one character after another: those that start a word are turned into
capitals, the others into small letters, and underscores are left out.
-/

namespace Scangen.Text

section Ascii

variable {c : Char} {text : List Char}

/-- The other runs of the tables, and all longer forms, are those of characters behind ASCII. -/
theorem caseTables_ascii : (∀ run ∈ lowerRuns.tail, 0x80 ≤ run.first) ∧
    (∀ run ∈ upperRuns.tail, 0x80 ≤ run.first) ∧ ∀ pair ∈ expandedUpper, 0x80 ≤ pair.1 := by
  have tables : (lowerRuns.tail.all fun run => 0x80 ≤ run.first) ∧
      (upperRuns.tail.all fun run => 0x80 ≤ run.first) ∧
      expandedUpper.all fun pair => 0x80 ≤ pair.1 := by
    decide
  simpa using tables

theorem lookup_pairs (first count image n : Nat) :
    (CaseRun.pairs ⟨first, count, 1, image⟩).lookup n =
      if first ≤ n ∧ n < first + count then some (image + (n - first)) else none := by
  induction count with
  | zero =>
    rw [if_neg (by omega)]
    rfl
  | succ count ih =>
    have pairs : CaseRun.pairs ⟨first, count + 1, 1, image⟩ =
        CaseRun.pairs ⟨first, count, 1, image⟩ ++ [(first + count, image + count)] := by
      simp [CaseRun.pairs, List.range_succ]
    rw [pairs, List.lookup_append, ih]
    by_cases last : n = first + count
    · subst last
      simp
    · have other : [(first + count, image + count)].lookup n = none := by simp [last]
      have bounds : n < first + (count + 1) ↔ n < first + count := by omega
      rw [other, Option.or_none]
      simp only [bounds]

/-- Runs behind the ASCII characters do not matter for these. -/
theorem lookup_ascii {n first count image : Nat} {runs : List CaseRun} (ascii : n < 0x80)
    (behind : ∀ other ∈ runs, 0x80 ≤ other.first) :
    ((⟨first, count, 1, image⟩ :: runs).flatMap CaseRun.pairs).lookup n =
      if first ≤ n ∧ n < first + count then some (image + (n - first)) else none := by
  have none : (runs.flatMap CaseRun.pairs).lookup n = none := by
    apply List.lookup_eq_none_iff.mpr
    intro pair member
    obtain ⟨other, listed, inside⟩ := List.mem_flatMap.mp member
    obtain ⟨i, _, rfl⟩ := List.mem_map.mp inside
    have start := behind other listed
    have apart : n ≠ other.first + i * other.step := by omega
    simpa using apart
  rw [List.flatMap_cons, List.lookup_append, none, Option.or_none, lookup_pairs]

theorem isUpper_iff_toNat : c.isUpper ↔ 0x41 ≤ c.toNat ∧ c.toNat < 0x41 + 26 := by
  unfold Char.isUpper
  simp [UInt32.le_iff_toNat_le, Nat.lt_succ_iff]

theorem isLower_iff_toNat : c.isLower ↔ 0x61 ≤ c.toNat ∧ c.toNat < 0x61 + 26 := by
  unfold Char.isLower
  simp [UInt32.le_iff_toNat_le, Nat.lt_succ_iff]

theorem not_isLower_of_isUpper (large : c.isUpper) : ¬c.isLower := by
  rw [isLower_iff_toNat]
  have := isUpper_iff_toNat.mp large
  omega

theorem toUpper_of_not_isLower (large : ¬c.isLower) : c.toUpper = c := by
  rw [isLower_iff_toNat] at large
  unfold Char.toUpper
  rw [dif_neg]
  simpa [UInt32.le_iff_toNat_le, Nat.lt_succ_iff] using large

theorem toLower_of_not_isUpper (small : ¬c.isUpper) : c.toLower = c := by
  rw [isUpper_iff_toNat] at small
  unfold Char.toLower
  rw [dif_neg]
  simpa [UInt32.le_iff_toNat_le, Nat.lt_succ_iff] using small

theorem toNat_toUpper (small : c.isLower) : c.toUpper.toNat = c.toNat - 32 := by
  have bounds := isLower_iff_toNat.mp small
  have inside : c.val ≥ 'a'.val ∧ c.val ≤ 'z'.val := by
    simpa [UInt32.le_iff_toNat_le, Nat.lt_succ_iff] using bounds
  unfold Char.toUpper
  rw [dif_pos inside]
  have step : ('A'.val - 'a'.val).toNat = 2 ^ 32 - 32 := rfl
  show (c.val + ('A'.val - 'a'.val)).toNat = c.toNat - 32
  rw [UInt32.toNat_add, step, Char.toNat_val]
  omega

theorem toNat_toLower (large : c.isUpper) : c.toLower.toNat = c.toNat + 32 := by
  have bounds := isUpper_iff_toNat.mp large
  have inside : c.val ≥ 'A'.val ∧ c.val ≤ 'Z'.val := by
    simpa [UInt32.le_iff_toNat_le, Nat.lt_succ_iff] using bounds
  unfold Char.toLower
  rw [dif_pos inside]
  have step : ('a'.val - 'A'.val).toNat = 32 := rfl
  show (c.val + ('a'.val - 'A'.val)).toNat = c.toNat + 32
  rw [UInt32.toNat_add, step, Char.toNat_val]
  omega

theorem isUpper_toUpper (small : c.isLower) : c.toUpper.isUpper := by
  have := isLower_iff_toNat.mp small
  rw [isUpper_iff_toNat, toNat_toUpper small]
  omega

theorem isLower_toLower (large : c.isUpper) : c.toLower.isLower := by
  have := isUpper_iff_toNat.mp large
  rw [isLower_iff_toNat, toNat_toLower large]
  omega

theorem toLower_toUpper (small : c.isLower) : c.toUpper.toLower = c := by
  have := isLower_iff_toNat.mp small
  have same : c.toUpper.toLower.toNat = c.toNat := by
    rw [toNat_toLower (isUpper_toUpper small), toNat_toUpper small]
    omega
  rw [← Char.ofNat_toNat c.toUpper.toLower, same, Char.ofNat_toNat]

theorem toUpper_toLower (large : c.isUpper) : c.toLower.toUpper = c := by
  have same : c.toLower.toUpper.toNat = c.toNat := by
    rw [toNat_toUpper (isLower_toLower large), toNat_toLower large, Nat.add_sub_cancel]
  rw [← Char.ofNat_toNat c.toLower.toUpper, same, Char.ofNat_toNat]

theorem not_isLower_toUpper : ¬c.toUpper.isLower := by
  by_cases small : c.isLower
  · have := isLower_iff_toNat.mp small
    rw [isLower_iff_toNat, toNat_toUpper small]
    omega
  · rwa [toUpper_of_not_isLower small]

theorem not_isUpper_toLower : ¬c.toLower.isUpper := by
  by_cases large : c.isUpper
  · have := isUpper_iff_toNat.mp large
    rw [isUpper_iff_toNat, toNat_toLower large]
    omega
  · rwa [toLower_of_not_isUpper large]

theorem lower_ascii (ascii : c.toNat < 0x80) : lower c = [c.toLower] := by
  have plain : c ≠ '\u0130' := by
    rintro rfl
    exact absurd ascii (by decide)
  have runs : lowerRuns = ⟨0x41, 26, 1, 0x61⟩ :: lowerRuns.tail := rfl
  rw [lower, if_neg plain, lowerCase, lowerPairs, runs, lookup_ascii ascii caseTables_ascii.1]
  by_cases large : c.isUpper
  · have bounds := isUpper_iff_toNat.mp large
    have place : 0x61 + (c.toNat - 0x41) = c.toNat + 32 := by omega
    rw [if_pos bounds, Option.getD_some, place, ← toNat_toLower large, Char.ofNat_toNat]
  · rw [if_neg (mt isUpper_iff_toNat.mpr large), Option.getD_none, Char.ofNat_toNat,
      toLower_of_not_isUpper large]

theorem upper_ascii (ascii : c.toNat < 0x80) : upper c = [c.toUpper] := by
  have single : expandedUpper.lookup c.toNat = none := by
    apply List.lookup_eq_none_iff.mpr
    intro pair member
    have behind := caseTables_ascii.2.2 pair member
    have apart : c.toNat ≠ pair.1 := by omega
    simpa using apart
  have runs : upperRuns = ⟨0x61, 26, 1, 0x41⟩ :: upperRuns.tail := rfl
  rw [upper, single, upperCase, upperPairs, runs, lookup_ascii ascii caseTables_ascii.2.1]
  dsimp only
  by_cases small : c.isLower
  · have bounds := isLower_iff_toNat.mp small
    have place : 0x41 + (c.toNat - 0x61) = c.toNat - 32 := by omega
    rw [if_pos bounds, Option.getD_some, place, ← toNat_toUpper small, Char.ofNat_toNat]
  · rw [if_neg (mt isLower_iff_toNat.mpr small), Option.getD_none, Char.ofNat_toNat,
      toUpper_of_not_isLower small]

theorem lowerBehind_ascii (before : List Char) (ascii : ∀ c ∈ text, c.toNat < 0x80) :
    lowerBehind before text = text.map Char.toLower := by
  induction text generalizing before with
  | nil => rfl
  | cons c rest ih =>
    have first := ascii c List.mem_cons_self
    have plain : c ≠ '\u03A3' := by
      rintro rfl
      exact absurd first (by decide)
    simp [lowerBehind, plain, lower_ascii first, ih _ fun d later => ascii d (.tail _ later)]

theorem lowerAll_ascii (ascii : ∀ c ∈ text, c.toNat < 0x80) :
    lowerAll text = text.map Char.toLower :=
  lowerBehind_ascii [] ascii

theorem lowerAll_single (ascii : c.toNat < 0x80) : lowerAll [c] = [c.toLower] :=
  lowerAll_ascii (by simpa using ascii)

theorem upperAll_single (ascii : c.toNat < 0x80) : upperAll [c] = [c.toUpper] := by
  simp [upperAll, upper_ascii ascii]

theorem toUpper_eq_iff : c.toUpper = c ↔ ¬c.isLower := by
  constructor
  · intro same small
    rw [← same] at small
    exact not_isLower_toUpper small
  · exact toUpper_of_not_isLower

theorem toLower_eq_iff : c.toLower = c ↔ ¬c.isUpper := by
  constructor
  · intro same large
    rw [← same] at large
    exact not_isUpper_toLower large
  · exact toLower_of_not_isUpper

theorem isUpper_ascii (ascii : c.toNat < 0x80) : isUpper [c] = c.isUpper := by
  rw [isUpper, lowerAll_single ascii, upperAll_single ascii]
  by_cases large : c.isUpper
  · have same := toUpper_eq_iff.mpr (not_isLower_of_isUpper large)
    have other : c.toLower ≠ c := fun same => toLower_eq_iff.mp same large
    simp [same, large, other.symm]
  · have same := toLower_eq_iff.mpr large
    by_cases small : c.isLower
    · have other : c.toUpper ≠ c := fun same => toUpper_eq_iff.mp same small
      simp [large, other.symm]
    · simp [same, toUpper_eq_iff.mpr small, large]

theorem isLower_ascii (ascii : c.toNat < 0x80) : isLower [c] = c.isLower := by
  rw [isLower, lowerAll_single ascii, upperAll_single ascii]
  by_cases small : c.isLower
  · have same := toLower_eq_iff.mpr fun large => not_isLower_of_isUpper large small
    have other : c.toUpper ≠ c := fun same => toUpper_eq_iff.mp same small
    simp [same, small, other]
  · have same := toUpper_eq_iff.mpr small
    by_cases large : c.isUpper
    · have other : c.toLower ≠ c := fun same => toLower_eq_iff.mp same large
      simp [small, other.symm]
    · simp [same, toLower_eq_iff.mpr large, small]

end Ascii

section Clusters

/-- Every printable ASCII character is a cluster of its own. -/
theorem splitClusters_printable {b : Before} {text : List Char}
    (plain : b.role = .control ∨ b.role = .other)
    (printable : ∀ c ∈ text, 0x20 ≤ c.toNat ∧ c.toNat < 0x7F) :
    splitClusters b text = ([], text.map fun c => [c]) := by
  induction text generalizing b with
  | nil => rfl
  | cons c rest ih =>
    have role : ClusterRole.of c = .other := by
      simp [ClusterRole.of, printable c List.mem_cons_self]
    have apart : b.joins .other = false := by
      rcases plain with control | other
      · simp [Before.joins, control, ClusterRole.breaks]
      · simp [Before.joins, other, ClusterRole.breaks, ClusterRole.trails]
    have later : splitClusters (b.next c) rest = ([], rest.map fun c => [c]) := by
      apply ih
      · exact Or.inr role
      · exact fun d member => printable d (List.mem_cons_of_mem _ member)
    simp [splitClusters, role, apart, later]

theorem clusters_printable {text : List Char}
    (printable : ∀ c ∈ text, 0x20 ≤ c.toNat ∧ c.toNat < 0x7F) :
    clusters text = text.map fun c => [c] := by
  rw [clusters, splitClusters_printable (Or.inl rfl) printable]

end Clusters

section Characters

/-- A character that stands between words. -/
def separates (c : Char) : Bool := c = '_' || c = '-' || c = ' '

/-- A word ends between the first two characters; the third one follows them. -/
def endsWord (a b : Char) (next : Option Char) : Bool :=
  (a.isLower && (b.isUpper || b.isDigit)) || (a.isUpper && b.isDigit) ||
    (a.isDigit && (b.isUpper || b.isLower)) || (a.isUpper && b.isUpper && next.any Char.isLower)

/-- A character starts a word if none is under way behind what stands before it. -/
def startsWord (previous : Option Char) (c : Char) (next : Option Char) : Bool :=
  previous.all fun a => separates a || endsWord a c next

/-- A name in Pascal case, one character after another. -/
def pascalFrom (previous : Option Char) : List Char → List Char
  | [] => []
  | c :: rest =>
    if separates c then pascalFrom (some c) rest
    else
      (if startsWord previous c rest.head? then c.toUpper else c.toLower) ::
        pascalFrom (some c) rest

theorem isWordBoundary_ascii {a b : Char} {next : Option Char} (first : a.toNat < 0x80)
    (second : b.toNat < 0x80) (third : ∀ c ∈ next, c.toNat < 0x80) :
    isWordBoundary [a] [b] (next.map fun c => [c]) = endsWord a b next := by
  have digit : ∀ c : Char, isDigit [c] = c.isDigit := fun c => by simp [isDigit]
  have small : (next.map fun c => [c]).any isLower = next.any Char.isLower := by
    cases next with
    | none => rfl
    | some c => simp [isLower_ascii (third c rfl)]
  simp only [isWordBoundary, endsWord, isUpper_ascii first, isUpper_ascii second,
    isLower_ascii first, isLower_ascii second, digit, small]

theorem isSeparator_single (c : Char) : isSeparator [c] = separates c := by
  simp [isSeparator, separates]

theorem any_isWordBoundary {previous : Option Char} {c : Char} {rest : List Char}
    (before : ∀ a ∈ previous, a.toNat < 0x80) (here : c.toNat < 0x80)
    (later : ∀ d ∈ rest, d.toNat < 0x80) :
    ((previous.map fun a => [a]).any fun a =>
      isWordBoundary a [c] (rest.map fun d => [d]).head?) =
      previous.any fun a => endsWord a c rest.head? := by
  cases previous with
  | none => rfl
  | some a =>
    have next : ∀ d ∈ rest.head?, d.toNat < 0x80 :=
      fun d member => later d (List.mem_of_mem_head? member)
    simp [← isWordBoundary_ascii (before a rfl) here next]

@[simp] theorem capitalize_nil : capitalize [] = [] := rfl

@[simp] theorem lowerAll_nil : lowerAll [] = [] := rfl

theorem capitalize_cons {c : Char} (rest : List Char) (here : c.toNat < 0x80) :
    capitalize (c :: rest) = c.toUpper :: lowerAll rest := by
  rw [capitalize, upper_ascii here, List.singleton_append]

theorem lowerAll_cons {c : Char} {rest : List Char} (here : c.toNat < 0x80)
    (later : ∀ d ∈ rest, d.toNat < 0x80) : lowerAll (c :: rest) = c.toLower :: lowerAll rest := by
  have all : ∀ d ∈ c :: rest, d.toNat < 0x80 := by simpa using ⟨here, later⟩
  rw [lowerAll_ascii all, lowerAll_ascii later, List.map_cons]

/-- Words in Pascal case. The first one goes on with a word that is under way, if there is one. -/
def joinWords (underWay : Bool) (word : List (List Char)) (others : List (List (List Char))) :
    List Char :=
  (if underWay then lowerAll word.flatten else capitalize word.flatten) ++
    others.flatMap fun word => capitalize word.flatten

@[simp] theorem joinWords_nil (underWay : Bool) (word : List (List Char))
    (others : List (List (List Char))) :
    joinWords underWay [] (word :: others) = joinWords false word others := by
  simp [joinWords]

/-- A word is under way behind every character but those between words. -/
def goesOn (previous : Option Char) : Bool := previous.any fun a => !separates a

theorem startsWord_eq (previous : Option Char) (c : Char) (next : Option Char) :
    startsWord previous c next =
      (!goesOn previous || previous.any fun a => endsWord a c next) := by
  cases previous with
  | none => rfl
  | some a => simp [startsWord, goesOn]

theorem exists_nameWords {previous : Option Char} {text : List Char}
    (before : ∀ a ∈ previous, a.toNat < 0x80) (ascii : ∀ c ∈ text, c.toNat < 0x80) :
    ∃ word others, nameWords (previous.map fun a => [a]) (text.map fun c => [c]) = word :: others ∧
      (∀ c ∈ word.flatten, c.toNat < 0x80) ∧
      joinWords (goesOn previous) word others = pascalFrom previous text := by
  induction text generalizing previous with
  | nil => exact ⟨[], [], rfl, by simp, by simp [joinWords, pascalFrom]⟩
  | cons c rest ih =>
    have here := ascii c List.mem_cons_self
    have later : ∀ d ∈ rest, d.toNat < 0x80 := fun d member => ascii d (.tail _ member)
    have start : ∀ a ∈ some c, a.toNat < 0x80 := by simpa using here
    obtain ⟨word, others, made, small, joined⟩ := ih start later
    rw [Option.map_some] at made
    rw [List.map_cons, nameWords, isSeparator_single, pascalFrom, made]
    by_cases separator : separates c
    · -- the word under way ends, and the next one has not started
      refine ⟨[], word :: others, by simp [separator], by simp, ?_⟩
      simpa [separator, goesOn] using joined
    · have joined : lowerAll word.flatten ++ others.flatMap (fun word => capitalize word.flatten) =
          pascalFrom (some c) rest := by simpa [separator, goesOn, joinWords] using joined
      have raised := capitalize_cons word.flatten here
      have lowered := lowerAll_cons here small
      simp only [separator, Bool.false_eq_true, if_false, any_isWordBoundary before here later,
        startsWord_eq]
      by_cases ends : previous.any fun a => endsWord a c rest.head?
      · refine ⟨[], ([c] :: word) :: others, by simp [ends], by simp, ?_⟩
        simp [ends, raised, joined, joinWords]
      · have small : ∀ d ∈ c :: word.flatten, d.toNat < 0x80 :=
          List.forall_mem_cons.mpr ⟨here, small⟩
        refine ⟨[c] :: word, others, by simp [ends], small, ?_⟩
        cases underWay : goesOn previous with
        | false => simp [raised, joined, joinWords]
        | true => simp [ends, lowered, joined, joinWords]

/-- A printable ASCII name is turned into Pascal case one character after another. -/
theorem pascalCase_printable {name : String}
    (printable : ∀ c ∈ name.toList, 0x20 ≤ c.toNat ∧ c.toNat < 0x7F) :
    pascalCase name = String.ofList (pascalFrom none name.toList) := by
  have ascii : ∀ c ∈ name.toList, c.toNat < 0x80 :=
    fun c member => Nat.lt_succ_of_lt (printable c member).2
  have start : ∀ a ∈ (none : Option Char), a.toNat < 0x80 := by simp
  obtain ⟨word, others, made, _, joined⟩ := exists_nameWords start ascii
  rw [Option.map_none] at made
  simp only [pascalCase, clusters_printable printable, made, ← joined]
  rfl

end Characters

section Words

variable {previous : Option Char} {text tail front : List Char} {a c d : Char}

/-- Where no word is under way, it does not matter why. -/
theorem pascalFrom_idle (idle : goesOn previous = false) (text : List Char) :
    pascalFrom previous text = pascalFrom none text := by
  cases text with
  | nil => rfl
  | cons c rest =>
    have starts : startsWord none c rest.head? = true := rfl
    simp [pascalFrom, startsWord_eq previous, idle, starts]

theorem pascalFrom_separators (separators : ∀ c ∈ front, separates c) (text : List Char) :
    pascalFrom none (front ++ text) = pascalFrom none text := by
  induction front with
  | nil => rfl
  | cons c rest ih =>
    have separator := separators c List.mem_cons_self
    rw [List.cons_append, pascalFrom, if_pos separator, pascalFrom_idle (by simpa [goesOn])]
    exact ih fun d later => separators d (List.mem_cons_of_mem _ later)

theorem separates_of_pascalFrom_nil (made : pascalFrom previous text = []) :
    ∀ c ∈ text, separates c := by
  induction text generalizing previous with
  | nil => simp
  | cons c rest ih =>
    rw [pascalFrom] at made
    split at made
    next separator => exact List.forall_mem_cons.mpr ⟨separator, ih made⟩
    next => cases made

/-- The first word starts behind separators, with a capital. -/
theorem exists_of_pascalFrom_cons (made : pascalFrom none text = d :: tail) :
    ∃ front c rest, text = front ++ c :: rest ∧ (∀ x ∈ front, separates x) ∧ separates c = false ∧
      c.toUpper = d ∧ pascalFrom (some c) rest = tail := by
  induction text with
  | nil => cases made
  | cons c rest ih =>
    rw [pascalFrom] at made
    split at made
    next separator =>
      rw [pascalFrom_idle (by simpa [goesOn])] at made
      obtain ⟨front, first, later, rfl, separators, found⟩ := ih made
      exact ⟨c :: front, first, later, rfl, List.forall_mem_cons.mpr ⟨separator, separators⟩, found⟩
    next letter =>
      obtain ⟨rfl, rfl⟩ := List.cons.inj made
      exact ⟨[], c, rest, rfl, by simp, by simpa using letter, rfl, rfl⟩

/-- A small letter goes on with a word. -/
theorem exists_of_pascalFrom_isLower (underWay : separates a = false) (small : d.isLower)
    (made : pascalFrom (some a) text = d :: tail) :
    ∃ c rest, text = c :: rest ∧ separates c = false ∧ c.toLower = d ∧
      endsWord a c rest.head? = false ∧ pascalFrom (some c) rest = tail := by
  cases text with
  | nil => cases made
  | cons c rest =>
    rw [pascalFrom] at made
    split at made
    next separator =>
      rw [pascalFrom_idle (by simpa [goesOn])] at made
      obtain ⟨_, first, _, _, _, _, rfl, _⟩ := exists_of_pascalFrom_cons made
      exact absurd small not_isLower_toUpper
    next letter =>
      cases ends : endsWord a c rest.head? with
      | false =>
        have goes : startsWord (some a) c rest.head? = false := by simp [startsWord, underWay, ends]
        rw [goes] at made
        obtain ⟨rfl, rfl⟩ := List.cons.inj made
        exact ⟨c, rest, rfl, by simpa using letter, rfl, ends, rfl⟩
      | true =>
        have starts : startsWord (some a) c rest.head? = true := by simp [startsWord, ends]
        rw [starts, if_pos rfl] at made
        obtain ⟨rfl, _⟩ := List.cons.inj made
        exact absurd small not_isLower_toUpper

end Words

end Scangen.Text
