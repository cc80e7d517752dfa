import Scangen.Table.Row

/-!
Looking up a class among the exceptions of a row. The search halves the entries that are left and
keeps those that are still in question, so it ends at the entry for the class if there is one.
-/

namespace Scangen.Row

variable {entries : Array (Nat × Option Nat)} {classId : Nat}

/-- The keys of the entries ascend. -/
def Ascending (entries : Array (Nat × Option Nat)) : Prop :=
  entries.toList.Pairwise fun a b => a.1 < b.1

theorem Ascending.lt (ascending : Ascending entries) {i j : Nat} {a b : Nat × Option Nat}
    (first : entries[i]? = some a)
    (second : entries[j]? = some b) (before : i < j) : a.1 < b.1 := by
  obtain ⟨i_lt, rfl⟩ := Array.getElem?_eq_some_iff.mp first
  obtain ⟨j_lt, rfl⟩ := Array.getElem?_eq_some_iff.mp second
  have ordered := List.pairwise_iff_getElem.mp ascending i j (by simpa using i_lt)
    (by simpa using j_lt) before
  simpa using ordered

/-- The search is still on the right way: what lies behind the entries in question is above the
class, and the first one of them is not, unless it is the first of all. -/
structure Searching (entries : Array (Nat × Option Nat)) (classId base size : Nat) : Prop where
  room : base + size ≤ entries.size
  behind : ∀ {j entry}, base + size ≤ j → entries[j]? = some entry → classId < entry.1
  first : base = 0 ∨ ∃ entry, entries[base]? = some entry ∧ entry.1 ≤ classId

/-- At first all entries are in question. -/
theorem searching_all (entries : Array (Nat × Option Nat)) (classId : Nat) :
    Searching entries classId 0 entries.size := by
  refine ⟨by omega, ?_, Or.inl rfl⟩
  intro j entry outside found
  have := (Array.getElem?_eq_some_iff.mp found).1
  omega

theorem locate_spec (ascending : Ascending entries) (fuel : Nat) {base size : Nat}
    (searching : Searching entries classId base size) (enough : size ≤ fuel + 1) :
    ∃ left ≤ 1, Searching entries classId (locate entries classId fuel base size) left := by
  induction fuel generalizing base size with
  | zero => exact ⟨size, by omega, searching⟩
  | succ fuel ih =>
    rw [locate]
    by_cases done : size ≤ 1
    · rw [if_pos done]
      exact ⟨size, done, searching⟩
    · rw [if_neg done]
      have room := searching.room
      obtain ⟨entry, middle⟩ : ∃ entry, entries[base + size / 2]? = some entry :=
        ⟨_, Array.getElem?_eq_getElem (by omega)⟩
      dsimp only
      rw [middle]
      dsimp only
      by_cases above : classId < entry.1
      · rw [if_pos (decide_eq_true above)]
        apply ih _ (by omega)
        refine ⟨by omega, ?_, searching.first⟩
        intro j other later found
        by_cases here : base + size / 2 = j
        · subst here
          rw [middle] at found
          cases found
          exact above
        · have := ascending.lt middle found (by omega)
          omega
      · rw [if_neg (by simpa using above)]
        apply ih _ (by omega)
        refine ⟨by omega, ?_, Or.inr ⟨entry, middle, by omega⟩⟩
        intro j other later found
        exact searching.behind (by omega) found

variable {row : Row}

/-- The search ends at the entry for the class. -/
theorem locate_eq (ascending : Ascending entries) {j : Nat} {next : Option Nat}
    (listed : entries[j]? = some (classId, next)) :
    locate entries classId entries.size 0 entries.size = j := by
  obtain ⟨left, few, searching⟩ :=
    locate_spec ascending entries.size (searching_all entries classId) (by omega)
  generalize locate entries classId entries.size 0 entries.size = i at searching
  have not_behind : ¬i + left ≤ j := by
    intro behind
    have : classId < classId := searching.behind behind listed
    omega
  by_cases same : i = j
  · exact same
  · rcases searching.first with zero | ⟨entry, found, below⟩
    · omega
    · have : classId < entry.1 := ascending.lt listed found (by omega)
      omega

theorem lookup_of_listed (ascending : Ascending row.exceptions) {j : Nat} {next : Option Nat}
    (listed : row.exceptions[j]? = some (classId, next)) : row.lookup classId = next := by
  rw [lookup, locate_eq ascending listed, listed]
  dsimp only
  rw [if_pos rfl]

theorem lookup_of_not_listed (unlisted : ∀ next, (classId, next) ∉ row.exceptions) :
    row.lookup classId = row.usual := by
  unfold lookup
  split
  next key next found =>
    by_cases same : key = classId
    · subst same
      exact absurd (Array.mem_of_getElem? found) (unlisted next)
    · rw [if_neg same]
  next => rfl

/-! A row that was made from a list of successors. -/

theorem exceptions_ascending (successors : List (Option Nat)) :
    Ascending (ofList successors).exceptions := by
  unfold Ascending ofList
  dsimp only
  rw [List.pairwise_map]
  apply List.Pairwise.filter
  have numbers : (successors.zipIdx.map Prod.snd).Pairwise (· < ·) := by
    rw [List.zipIdx_map_snd]
    exact List.pairwise_lt_range'
  exact List.pairwise_map.mp numbers

theorem mem_exceptions {successors : List (Option Nat)} {next : Option Nat} :
    (classId, next) ∈ (ofList successors).exceptions ↔
      successors[classId]? = some next ∧ next ≠ (ofList successors).usual := by
  unfold ofList
  simp only [List.mem_toArray, List.mem_map, List.mem_filter, Prod.mk.injEq]
  constructor
  · rintro ⟨⟨next, classId⟩, ⟨member, unusual⟩, rfl, rfl⟩
    exact ⟨List.mem_zipIdx_iff_getElem?.mp member, by simpa using unusual⟩
  · rintro ⟨found, unusual⟩
    exact ⟨(next, classId), ⟨List.mem_zipIdx_iff_getElem?.mpr found, by simpa using unusual⟩,
      rfl, rfl⟩

/-- Every successor is found again. -/
theorem lookup_ofList {successors : List (Option Nat)} {next : Option Nat}
    (found : successors[classId]? = some next) :
    (ofList successors).lookup classId = next := by
  by_cases usual : next = (ofList successors).usual
  · rw [lookup_of_not_listed, usual]
    intro other listed
    obtain ⟨same, unusual⟩ := mem_exceptions.mp listed
    rw [found] at same
    cases same
    exact unusual usual
  · obtain ⟨j, inside, listed⟩ := Array.mem_iff_getElem.mp (mem_exceptions.mpr ⟨found, usual⟩)
    exact lookup_of_listed (exceptions_ascending successors)
      (Array.getElem?_eq_some_iff.mpr ⟨inside, listed⟩)

end Scangen.Row
