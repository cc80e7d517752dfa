import Scangen.Proofs.Build.Reports
import Scangen.Proofs.Spec.Lines
import Scangen.Spec.Calls

/-!
Specifications that are put together by calls. Every name has one id, its position, and no later call
takes back what an earlier one has answered.
-/

namespace Scangen

/-- A rule with these conditions is active in the condition. -/
def RuleConditions.Admits (conditions : RuleConditions) (condition : StartCondition) : Prop :=
  match conditions with
  | .inclusive => condition.exclusive = false
  | .all => True
  | .named names => condition.name ∈ names

namespace Spec

variable {spec later : Spec} {conditions : RuleConditions} {id : Nat}

/-- The names of the declared conditions, in order of their ids. -/
def conditionNames (spec : Spec) : List String := spec.conditions.map StartCondition.name

section Distinct

variable (unique : spec.conditionNames.Nodup)

include unique

/-- If no name is declared twice, its id is the one position where it stands. -/
theorem conditionId_eq_some_iff {name : String} : spec.conditionId name = some id ↔
    ∃ condition, spec.conditions[id]? = some condition ∧ condition.name = name := by
  constructor
  · intro found
    obtain ⟨inside, same, -⟩ := List.findIdx?_eq_some_iff_getElem.mp found
    exact ⟨_, List.getElem?_eq_getElem inside, of_decide_eq_true same⟩
  · rintro ⟨condition, there, rfl⟩
    obtain ⟨inside, rfl⟩ := List.getElem?_eq_some_iff.mp there
    refine List.findIdx?_eq_some_iff_getElem.mpr ⟨inside, decide_eq_true rfl, ?_⟩
    intro earlier before same
    have equal : spec.conditionNames[earlier]? = spec.conditionNames[id]? := by
      rw [conditionNames, List.getElem?_map, List.getElem?_map, there,
        List.getElem?_eq_getElem (Nat.lt_trans before inside)]
      exact congrArg some (of_decide_eq_true same)
    have small : earlier < spec.conditionNames.length := by
      rw [conditionNames, List.length_map]
      exact Nat.lt_trans before inside
    exact Nat.ne_of_lt before ((List.getElem?_inj small unique).mp equal)

theorem mem_activeConditions_iff : id ∈ spec.activeConditions conditions ↔
    ∃ condition, spec.conditions[id]? = some condition ∧ conditions.Admits condition := by
  cases conditions with
  | inclusive =>
    simp only [activeConditions, List.mem_map, List.mem_filter, List.mem_zipIdx_iff_getElem?,
      Prod.exists, Bool.not_eq_true', RuleConditions.Admits]
    grind
  | all =>
    rw [activeConditions, List.mem_range]
    constructor
    · exact fun inside => ⟨_, List.getElem?_eq_getElem inside, trivial⟩
    · rintro ⟨condition, there, -⟩
      exact (List.getElem?_eq_some_iff.mp there).1
  | named names =>
    simp only [activeConditions, mem_distinct, List.mem_filterMap, conditionId_eq_some_iff unique,
      RuleConditions.Admits]
    grind

end Distinct

theorem activeConditions_nodup (spec : Spec) (conditions : RuleConditions) :
    (spec.activeConditions conditions).Nodup := by
  cases conditions with
  | inclusive =>
    have positions : (spec.conditions.zipIdx.map Prod.snd).Nodup := by
      rw [List.zipIdx_map_snd]
      exact List.nodup_range'
    exact positions.sublist (List.filter_sublist.map Prod.snd)
  | all => exact List.nodup_range
  | named names => exact distinct_nodup _

/-- What later calls never take back: ids of names and what stands behind them, rules, and conditions in
which a rule is active. Names that a rule lists may become known, but never unknown. -/
structure Keeps (spec later : Spec) : Prop where
  ids : ∀ name id, spec.conditionId name = some id → later.conditionId name = some id
  conditions : ∀ (id : Nat) (condition : StartCondition),
    spec.conditions[id]? = some condition → later.conditions[id]? = some condition
  rules : ∀ (id : Nat) (rule : Rule),
    spec.rules[id]? = some rule → later.rules[id]? = some rule
  active : ∀ conditions, spec.activeConditions conditions ⊆ later.activeConditions conditions
  unknown : ∀ conditions,
    (later.unknownConditions conditions).Sublist (spec.unknownConditions conditions)

theorem unknownConditions_eq_filter (spec : Spec) (conditions : RuleConditions) :
    spec.unknownConditions conditions = conditions.names.filter (· ∉ spec.conditionNames) :=
  spec.unknownConditions_eq ⟨none, .endOfInput, conditions, ⟨0, 0⟩⟩

theorem getElem?_of_front {α : Type} {l l' : List α} {a : α} (front : l <+: l')
    (there : l[id]? = some a) : l'[id]? = some a := by
  obtain ⟨inside, rfl⟩ := List.getElem?_eq_some_iff.mp there
  exact List.prefix_iff_getElem?.mp front id inside

/-- Longer lists of conditions and rules keep what was there. -/
theorem Keeps.of_front (unique : spec.conditionNames.Nodup) (unique' : later.conditionNames.Nodup)
    (conditions : spec.conditions <+: later.conditions) (rules : spec.rules <+: later.rules) :
    Keeps spec later := by
  refine ⟨?_, fun _ _ => getElem?_of_front conditions, fun _ _ => getElem?_of_front rules, ?_, ?_⟩
  · intro name id found
    obtain ⟨condition, there, same⟩ := (conditionId_eq_some_iff unique).mp found
    exact (conditionId_eq_some_iff unique').mpr
      ⟨condition, getElem?_of_front conditions there, same⟩
  · intro asked id active
    obtain ⟨condition, there, admits⟩ := (mem_activeConditions_iff unique).mp active
    exact (mem_activeConditions_iff unique').mpr
      ⟨condition, getElem?_of_front conditions there, admits⟩
  · intro asked
    have names : spec.conditionNames ⊆ later.conditionNames := (conditions.map _).subset
    rw [unknownConditions_eq_filter, unknownConditions_eq_filter]
    refine List.monotone_filter_right _ fun name absent => ?_
    exact decide_eq_true fun known => of_decide_eq_true absent (names known)

/-- The specification holds what was called: of several declarations of a name the first one, and the
rules in the order in which they were added. -/
structure Sound (calls : List Call) (spec : Spec) : Prop where
  declares : Declares (⟨initialName, false⟩ :: calls.filterMap Call.condition?) spec.conditions
  rules : spec.rules = calls.filterMap Call.rule?

theorem Sound.names_nodup {calls : List Call} (sound : Sound calls spec) :
    spec.conditionNames.Nodup := by
  rw [conditionNames, sound.declares.names]
  exact distinct_nodup _

theorem sound_initial : Sound [] initial := ⟨OfLines.initial.conditions, rfl⟩

/-- One more call adds what it says. -/
theorem Sound.call {calls : List Call} (sound : Sound calls spec) (one : Call) :
    Sound (calls ++ [one]) (spec.call one).2 := by
  cases one with
  | declare name exclusive =>
    refine ⟨?_, ?_⟩
    · rw [List.filterMap_append]
      exact sound.declares.declare name exclusive
    · rw [List.filterMap_append, ← sound.rules]
      exact (rules_declare spec name exclusive).trans (List.append_nil _).symm
  | addRule rule =>
    refine ⟨?_, ?_⟩
    · rw [List.filterMap_append, List.filterMap_cons_none rfl, List.filterMap_nil, List.append_nil]
      exact sound.declares
    · rw [List.filterMap_append, ← sound.rules]
      rfl

theorem behind_append (calls : List Call) (one : Call) :
    behind (calls ++ [one]) = ((behind calls).call one).2 := by
  rw [behind, List.foldl_append]
  rfl

theorem sound_behind (calls : List Call) : Sound calls (behind calls) := by
  induction calls using List.reverseRecOn with
  | nil => exact sound_initial
  | append_singleton calls one ih =>
    rw [behind_append]
    exact ih.call one

/-- A call appends at the end, if it changes anything. -/
theorem prefix_call (spec : Spec) (one : Call) :
    spec.conditions <+: (spec.call one).2.conditions ∧ spec.rules <+: (spec.call one).2.rules := by
  cases one with
  | declare name exclusive =>
    refine ⟨?_, (rules_declare spec name exclusive).symm ▸ List.prefix_rfl⟩
    show spec.conditions <+: (spec.declare name exclusive).conditions
    unfold Spec.declare
    split
    next => exact List.prefix_rfl
    next => exact List.prefix_append _ _
  | addRule rule => exact ⟨List.prefix_rfl, List.prefix_append _ _⟩

theorem prefix_behind (calls more : List Call) :
    (behind calls).conditions <+: (behind (calls ++ more)).conditions ∧
      (behind calls).rules <+: (behind (calls ++ more)).rules := by
  induction more using List.reverseRecOn with
  | nil =>
    rw [List.append_nil]
    exact ⟨List.prefix_rfl, List.prefix_rfl⟩
  | append_singleton more one ih =>
    rw [← List.append_assoc, behind_append]
    have step := prefix_call (behind (calls ++ more)) one
    exact ⟨ih.1.trans step.1, ih.2.trans step.2⟩

/-- What a call was answered with: the one id of the name, or the position of the new rule. -/
def Answers (spec : Spec) (id : Nat) : Call → Prop
  | .declare name _ =>
    spec.conditionId name = some id ∧ ∃ kind, spec.conditions[id]? = some ⟨name, kind⟩
  | .addRule rule => ∃ earlier, spec.rules = earlier ++ [rule] ∧ id = earlier.length

theorem answers_call {calls : List Call} (sound : Sound calls spec) (one : Call) :
    (spec.call one).2.Answers (spec.call one).1 one := by
  cases one with
  | declare name exclusive =>
    have unique := (sound.call (.declare name exclusive)).names_nodup
    have named : ∃ kind,
        (spec.declare name exclusive).conditions[spec.declaredId name]? = some ⟨name, kind⟩ := by
      unfold declaredId Spec.declare
      cases found : spec.conditionId name with
      | some id =>
        obtain ⟨condition, there, rfl⟩ := (conditionId_eq_some_iff sound.names_nodup).mp found
        exact ⟨_, there⟩
      | none => exact ⟨exclusive, List.getElem?_concat_length⟩
    obtain ⟨kind, there⟩ := named
    exact ⟨(conditionId_eq_some_iff unique).mpr ⟨_, there, rfl⟩, kind, there⟩
  | addRule rule => exact ⟨spec.rules, rfl, rfl⟩

/-- Ids can be used as positions: names are distinct, the initial condition comes first, and what is
active for a list of conditions are positions of declared conditions, each one once. -/
structure Numbered (spec : Spec) : Prop where
  names : spec.conditionNames.Nodup
  first : spec.conditions[0]? = some ⟨initialName, false⟩
  once : ∀ conditions, (spec.activeConditions conditions).Nodup
  below : ∀ conditions, ∀ id ∈ spec.activeConditions conditions, id < spec.conditions.length
  active : ∀ conditions id, id ∈ spec.activeConditions conditions ↔
    ∃ condition, spec.conditions[id]? = some condition ∧ conditions.Admits condition
  unknown : ∀ conditions,
    spec.unknownConditions conditions = conditions.names.filter (· ∉ spec.conditionNames)

theorem numbered_behind (calls : List Call) : Numbered (behind calls) := by
  have unique := (sound_behind calls).names_nodup
  refine ⟨unique, ?_, activeConditions_nodup _, ?_, ?_, unknownConditions_eq_filter _⟩
  · exact getElem?_of_front (prefix_behind [] calls).1 rfl
  · exact fun conditions id active => Nfa.lt_of_mem_activeConditions active
  · exact fun conditions id => mem_activeConditions_iff unique

/-- Whatever calls a specification is put together by, it holds what was called, its ids can be used as
positions, each call is answered with the id of what it asked for, and further calls change nothing
of that. -/
theorem calls_sound (calls : List Call) :
    Sound calls (behind calls) ∧ Numbered (behind calls) ∧
    (∀ one, (behind (calls ++ [one])).Answers ((behind calls).call one).1 one) ∧
    ∀ more, Keeps (behind calls) (behind (calls ++ more)) := by
  have sound := sound_behind calls
  refine ⟨sound, numbered_behind calls, fun one => ?_, fun more => ?_⟩
  · rw [behind_append]
    exact answers_call sound one
  · have grown := prefix_behind calls more
    exact .of_front sound.names_nodup (sound_behind _).names_nodup grown.1 grown.2

/-- A name that is declared again keeps its id and its kind, also where a rule mentions it first. -/
example : (behind [.addRule ⟨none, .endOfInput, .named ["A", "B"], ⟨1, 1⟩⟩, .declare "A" true,
    .declare "INITIAL" true, .declare "A" false]).conditions =
      [⟨"INITIAL", false⟩, ⟨"A", true⟩] := by
  decide

end Spec

end Scangen
