import Scangen.Scan.Scanner

/-!
Cutting a text into tokens. Where no match is empty or too long, the tokens lie one behind the other
and each is the longest match at its own place, up to the end of the text or to the first place
where nothing matches.
-/

namespace Scangen.Scanner

/-- The longest match at a place of a text. A line starts at the first symbol and behind each line
feed. -/
def matchAt (s : Scanner) (text : List Nat) (place : Nat) : Option Match :=
  s.tables.recognizer.longestMatch s.condition (text.drop place) (place = 0 ∨
    text[place - 1]? = some lineFeed)

/-- Tokens that lie one behind the other between two places of a text, each the longest match at its
own place. -/
inductive Tiles (s : Scanner) (text : List Nat) : Nat → List (Nat × List Nat) → Nat → Prop
  | none (place : Nat) : Tiles s text place [] place
  | more {place stop : Nat} {m : Match} {tokens : List (Nat × List Nat)} :
      s.matchAt text place = some m →
      Tiles s text (place + m.length) tokens stop →
      Tiles s text place ((m.rule, (text.drop place).take m.length) :: tokens) stop

/-- No token is empty or longer than what is left. -/
def Advances (s : Scanner) : Prop :=
  ∀ {rest atLineStart m}, s.tables.recognizer.longestMatch s.condition rest atLineStart = some m →
    1 ≤ m.length ∧ m.length ≤ rest.length

variable {s : Scanner} {text : List Nat} {place stop : Nat} {tokens : List (Nat × List Nat)}

/-! What the tokens of a part of a text make up. -/

theorem matchAt_length (advances : s.Advances) {m : Match} (found : s.matchAt text place = some m) :
    1 ≤ m.length ∧ place + m.length ≤ text.length := by
  obtain ⟨nonempty, enough⟩ := advances found
  rw [List.length_drop] at enough
  omega

theorem Tiles.flatten (advances : s.Advances) (tiles : s.Tiles text place tokens stop)
    (inside : place ≤ text.length) :
    text.take place ++ (tokens.map Prod.snd).flatten = text.take stop := by
  induction tiles with
  | none place => simp
  | @more place stop m tokens found _ ih =>
    obtain ⟨_, enough⟩ := matchAt_length advances found
    rw [List.map_cons, List.flatten_cons, ← List.append_assoc, ← List.take_add]
    exact ih enough

theorem Tiles.nonempty (advances : s.Advances) (tiles : s.Tiles text place tokens stop) :
    ∀ token ∈ tokens, token.2 ≠ [] := by
  induction tiles with
  | none => simp
  | @more place stop m tokens found _ ih =>
    obtain ⟨nonempty, enough⟩ := advances found
    intro token member
    rcases List.mem_cons.mp member with rfl | later
    · apply List.ne_nil_of_length_pos
      rw [List.length_take]
      omega
    · exact ih token later

/-! The scanner remembers the symbol in front of a place, which tells whether a line starts
there. -/

/-- The symbol in front of a place. -/
def before (text : List Nat) (place : Nat) : Option Nat :=
  if place = 0 then none else text[place - 1]?

theorem atLineStart_before (inside : place ≤ text.length) :
    atLineStart (before text place) = decide (place = 0 ∨ text[place - 1]? = some lineFeed) := by
  unfold atLineStart before
  by_cases first : place = 0
  · simp [first]
  · have present : place - 1 < text.length := by omega
    simp [first, present]

theorem matchRest_before (inside : place ≤ text.length) :
    s.matchRest (before text place) (text.drop place) = s.matchAt text place := by
  rw [matchRest, atLineStart_before inside, matchAt]

/-- A token asked for at a place is the longest match there. -/
theorem nextWord_eq (inside : place < text.length) : s.nextWord text place =
    match s.matchAt text place with
    | none => .failed
    | some m => .token ⟨m.rule, place, place + m.length⟩ := by
  rw [← matchRest_before (Nat.le_of_lt inside)]
  unfold nextWord
  rw [List.drop_eq_getElem_cons inside]
  rfl

/-- Behind a token the last symbol in front is the last one of the token. -/
theorem before_add {length : Nat} (nonempty : 1 ≤ length) (enough : place + length ≤ text.length) :
    before text (place + length) = ((text.drop place).take length).getLast?.or
      (before text place) := by
  have last : ((text.drop place).take length).getLast? = text[place + length - 1]? := by
    rw [List.getLast?_eq_getElem?, List.length_take, List.length_drop, Nat.min_eq_left (by omega),
      List.getElem?_take_of_lt (by omega), List.getElem?_drop, Nat.add_sub_assoc nonempty]
  have present : place + length - 1 < text.length := by omega
  rw [last, List.getElem?_eq_getElem present, before, if_neg (by omega),
    List.getElem?_eq_getElem present, Option.some_or]

theorem scanRest_cons {fuel offset c : Nat} {previous : Option Nat} {rest : List Nat} :
    s.scanRest (fuel + 1) previous offset (c :: rest) =
      match s.matchRest previous (c :: rest) with
      | none => .error (.noMatch offset)
      | some m =>
        (s.scanRest fuel (((c :: rest).take m.length).getLast?.or previous) (offset + m.length)
          ((c :: rest).drop m.length)).map ((m.rule, (c :: rest).take m.length) :: ·) :=
  rfl

/-- Enough fuel is never used up. -/
theorem scanRest_fuel (advances : s.Advances) {fuel fuel' offset : Nat}
    {previous : Option Nat} {rest : List Nat}
    (enough : rest.length < fuel) (enough' : rest.length < fuel') :
    s.scanRest fuel previous offset rest = s.scanRest fuel' previous offset rest := by
  induction fuel generalizing fuel' offset previous rest with
  | zero => omega
  | succ fuel ih =>
    obtain ⟨fuel', rfl⟩ : ∃ n, fuel' = n + 1 := ⟨fuel' - 1, by omega⟩
    cases rest with
    | nil => rfl
    | cons c rest =>
      rw [scanRest_cons, scanRest_cons]
      cases found : s.matchRest previous (c :: rest) with
      | none => rfl
      | some m =>
        obtain ⟨nonempty, _⟩ := advances found
        have shorter : ((c :: rest).drop m.length).length < (c :: rest).length := by
          rw [List.length_drop, List.length_cons]
          omega
        dsimp only
        rw [ih (Nat.lt_of_lt_of_le shorter (Nat.le_of_lt_succ enough))
          (Nat.lt_of_lt_of_le shorter (Nat.le_of_lt_succ enough'))]

/-- The tokens tile the text to its end, or to a place where nothing matches. -/
inductive Cuts (s : Scanner) (text : List Nat) (place : Nat) :
    Except ScanError (List (Nat × List Nat)) → Prop
  | ok {tokens : List (Nat × List Nat)} : s.Tiles text place tokens text.length →
      Cuts s text place (.ok tokens)
  | error {tokens : List (Nat × List Nat)} {offset : Nat} : s.Tiles text place tokens offset →
      offset < text.length →
      s.matchAt text offset = none → Cuts s text place (.error (.noMatch offset))

/-- One more token in front of those that cut the rest of a text. -/
theorem Cuts.cons {m : Match} {result : Except ScanError (List (Nat × List Nat))}
    (found : s.matchAt text place = some m)
    (cuts : s.Cuts text (place + m.length) result) :
    s.Cuts text place (result.map ((m.rule, (text.drop place).take m.length) :: ·)) := by
  cases cuts with
  | ok tiles => exact .ok (.more found tiles)
  | error tiles inside stuck => exact .error (.more found tiles) inside stuck

theorem scanRest_cuts (advances : s.Advances) {fuel : Nat} (enough : text.length - place < fuel)
    (inside : place ≤ text.length) :
    s.Cuts text place (s.scanRest fuel (before text place) place (text.drop place)) := by
  induction fuel generalizing place with
  | zero => omega
  | succ fuel ih =>
    by_cases last : place = text.length
    · subst last
      rw [List.drop_length, scanRest]
      exact .ok (.none _)
    · have left : place < text.length := by omega
      have cons := List.drop_eq_getElem_cons left
      rw [cons, scanRest_cons, ← cons, matchRest_before inside]
      cases found : s.matchAt text place with
      | none => exact .error (.none place) left found
      | some m =>
        obtain ⟨nonempty, more⟩ := matchAt_length advances found
        dsimp only
        rw [← before_add nonempty more, List.drop_drop]
        exact (ih (by omega) more).cons found

theorem scan_cuts (advances : s.Advances) (text : List Nat) : s.Cuts text 0 (s.scan text) :=
  scanRest_cuts advances (Nat.lt_succ_self (text.length - 0)) (Nat.zero_le _)

end Scangen.Scanner
