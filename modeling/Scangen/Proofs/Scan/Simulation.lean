import Scangen.Scan.Meaning

/-!
One recognizer follows another, step by step. Steps to a state from which no tag is left to be found
may be dropped.
-/

namespace Scangen.Recognizer

variable {σ τ : Type}

/-- States of the second recognizer stand for states of the first; lost states are those without any
tag ahead. -/
structure Follows (r : Recognizer σ) (r' : Recognizer τ) (bound : Nat)
    (related : σ → τ → Prop) (lost : σ → Prop) :
    Prop where
  start_none : ∀ {condition}, r.start condition = none → r'.start condition = none
  start_some : ∀ {condition s}, r.start condition = some s → ∃ t, r'.start condition = some t ∧
    related s t
  accept : ∀ {s t}, related s t → r'.accept t = r.accept s
  step_none : ∀ {s t classId}, related s t → classId < bound → r.step s classId = none →
    r'.step t classId = none
  step_some : ∀ {s t classId next}, related s t → classId < bound → r.step s classId = some next →
    (∃ next', r'.step t classId = some next' ∧ related next next') ∨
    (r'.step t classId = none ∧ lost next)
  lost_accept : ∀ {s}, lost s → r.accept s = none
  lost_step : ∀ {s classId next}, lost s → classId < bound → r.step s classId = some next →
    lost next

variable {r : Recognizer σ} {r' : Recognizer τ} {bound : Nat}
    {related : σ → τ → Prop} {lost : σ → Prop}

namespace Follows

theorem lost_follow (f : Follows r r' bound related lost) {s : σ}
    (isLost : lost s) {word : List Nat}
    (small : ∀ classId ∈ word, classId < bound) : (r.follow s word).bind r.accept = none := by
  induction word generalizing s with
  | nil => exact f.lost_accept isLost
  | cons classId word ih =>
    have class_small := small classId List.mem_cons_self
    have word_small : ∀ c ∈ word, c < bound :=
      fun c member => small c (List.mem_cons_of_mem _ member)
    rw [follow]
    cases stepped : r.step s classId with
    | none => rfl
    | some next => exact ih (f.lost_step isLost class_small stepped) word_small

theorem follow_related (f : Follows r r' bound related lost) {s : σ} {t : τ}
    (same : related s t) {word : List Nat}
    (small : ∀ classId ∈ word, classId < bound) :
    (r'.follow t word).bind r'.accept = (r.follow s word).bind r.accept := by
  induction word generalizing s t with
  | nil => exact f.accept same
  | cons classId word ih =>
    have class_small := small classId List.mem_cons_self
    have word_small : ∀ c ∈ word, c < bound :=
      fun c member => small c (List.mem_cons_of_mem _ member)
    rw [follow, follow]
    cases stepped : r.step s classId with
    | none =>
      rw [f.step_none same class_small stepped]
      rfl
    | some next =>
      rcases f.step_some same class_small stepped with ⟨next', stepped', same'⟩ | ⟨dropped, isLost⟩
      · rw [stepped']
        exact ih same' word_small
      · rw [dropped]
        exact (f.lost_follow isLost word_small).symm

/-- The same tags are found behind all words of classes below the bound. -/
theorem tagAfter_eq (f : Follows r r' bound related lost) (condition : Nat) {word : List Nat}
    (small : ∀ classId ∈ word, classId < bound) :
      r'.tagAfter condition word = r.tagAfter condition word := by
  unfold tagAfter
  cases start : r.start condition with
  | none =>
    rw [f.start_none start]
    rfl
  | some s =>
    obtain ⟨t, start', same⟩ := f.start_some start
    rw [start']
    exact f.follow_related same small

end Follows

end Scangen.Recognizer
