import Scangen.Proofs.Build.Tokens
import Scangen.Proofs.Scan.Tiling

/-!
Scanning a text with the tables of a specification: the lexemes are the text.
-/

namespace Scangen

namespace Spec

variable {spec : Spec} {config : Config} {condition : Nat} {log : Diagnostics}
    {automaton : Automaton}

/-- The token of a longest match is not empty, and no more is read than there is. -/
theorem longestMatch_bounds (built : (spec.build config log).2 = .ok automaton)
    (declared : condition < spec.conditions.length) {layout : Layout}
    (room : (automaton.tables layout).Addressable) {input : List Nat} {atLineStart : Bool} {m : Match}
    (found : (automaton.tables layout).recognizer.longestMatch condition input atLineStart =
      some m) :
    1 ≤ m.length ∧ m.length ≤ m.matched ∧ m.matched ≤ input.length := by
  obtain ⟨best, chosen, same⟩ := longestMatch_offers built declared room input atLineStart
  rw [same] at found
  obtain ⟨found, rfl, rfl⟩ := Option.map_eq_some_iff.mp found
  cases chosen.1 with
  | intro leads token =>
    exact ⟨Nat.one_le_iff_ne_zero.mpr token, leads.fronts.tokenLength_le, leads.fronts.inside⟩

/-- No tag is met before as many symbols were read as it keeps or cuts off. -/
theorem cut_le_of_meets (built : (spec.build config log).2 = .ok automaton)
    (declared : condition < spec.conditions.length) {layout : Layout}
    (room : (automaton.tables layout).Addressable) {input : List Nat} {atLineStart : Bool}
    {met : Candidate}
    (meets : (automaton.tables layout).recognizer.Meets condition atLineStart input met) :
    ∀ n, met.tag.trailing = .head n ∨ met.tag.trailing = .tail n → n ≤ met.matched := by
  obtain ⟨id, pattern, leads, same⟩ := (meets_iff declared).mp ((meets_built built room).mp meets)
  obtain ⟨head_le, tail_le⟩ := leads.fronts.fits.cut_le
  rw [List.length_take_of_le leads.fronts.inside] at head_le tail_le
  rintro n (head | tail)
  · rw [same] at head
    exact head_le n head
  · rw [same] at tail
    exact tail_le n tail

/-- Nothing of a text is lost or read twice. No match is empty or reads more than there is, and no
tag keeps or cuts off more than was read. The scan ends by itself, and at each place it takes the
token that can be asked for there. Its lexemes make up the text, none is empty, and each is the
longest match at its own place. Where a scan fails, such lexemes lead to a place inside the text
where nothing matches. All this holds as long as the successors can be looked up at their own places. -/
theorem scan_lossless (built : (spec.build config log).2 = .ok automaton)
    (declared : condition < spec.conditions.length) {layout : Layout}
    (room : (automaton.tables layout).Addressable) (text : List Nat) :
    let s : Scanner := ⟨automaton.tables layout, condition⟩
    (∀ input atLineStart m, s.tables.recognizer.longestMatch condition input atLineStart = some m →
      1 ≤ m.length ∧ m.length ≤ m.matched ∧ m.matched ≤ input.length) ∧
    (∀ input atLineStart met, s.tables.recognizer.Meets condition atLineStart input met →
      ∀ n, met.tag.trailing = .head n ∨ met.tag.trailing = .tail n → n ≤ met.matched) ∧
    (∀ fuel, text.length < fuel → s.scanRest fuel none 0 text = s.scan text) ∧
    (∀ place < text.length, s.nextWord text place =
      match s.matchAt text place with
      | none => .failed
      | some m => .token ⟨m.rule, place, place + m.length⟩) ∧
    match s.scan text with
    | .ok tokens =>
      s.Tiles text 0 tokens text.length ∧ (tokens.map Prod.snd).flatten = text ∧
        ∀ token ∈ tokens, token.2 ≠ []
    | .error (.noMatch offset) =>
      offset < text.length ∧ s.matchAt text offset = none ∧ ∃ tokens, s.Tiles text 0 tokens offset ∧
        (tokens.map Prod.snd).flatten = text.take offset ∧ ∀ token ∈ tokens, token.2 ≠ [] := by
  intro s
  have bounds : ∀ input atLineStart m, s.tables.recognizer.longestMatch condition input
    atLineStart = some m →
      1 ≤ m.length ∧ m.length ≤ m.matched ∧ m.matched ≤ input.length :=
    fun _ _ _ found => longestMatch_bounds built declared room found
  have advances : s.Advances := by
    intro rest atLineStart m found
    obtain ⟨nonempty, kept, inside⟩ := bounds rest atLineStart m found
    exact ⟨nonempty, Nat.le_trans kept inside⟩
  refine ⟨bounds, fun _ _ _ meets => cut_le_of_meets built declared room meets,
    fun fuel enough => Scanner.scanRest_fuel advances enough (Nat.lt_succ_self _),
    fun place inside => Scanner.nextWord_eq inside, ?_⟩
  have cuts := Scanner.scan_cuts advances text
  cases result : s.scan text with
  | ok tokens =>
    rw [result] at cuts
    cases cuts with
    | ok tiles =>
      have whole := tiles.flatten advances (Nat.zero_le _)
      rw [List.take_zero, List.nil_append, List.take_length] at whole
      exact ⟨tiles, whole, tiles.nonempty advances⟩
  | error stuck =>
    rw [result] at cuts
    cases cuts with
    | @error tokens offset tiles inside nothing =>
      have front := tiles.flatten advances (Nat.zero_le _)
      rw [List.take_zero, List.nil_append] at front
      exact ⟨inside, nothing, tokens, tiles, front, tiles.nonempty advances⟩

/-- A letter in front of another one, that one at the end of a line, and the line feed. -/
def lines : Spec :=
  ⟨[⟨initialName, false⟩],
    [⟨none, .matching ⟨false, .symbol 97, some (.symbol 98), false⟩, .inclusive, ⟨1, 1⟩⟩,
      ⟨none, .matching ⟨false, .symbol 98, none, true⟩, .inclusive, ⟨2, 1⟩⟩,
      ⟨none, .matching ⟨false, .symbol lineFeed, none, false⟩, .inclusive, ⟨3, 1⟩⟩]⟩

theorem lines_built : (lines.build byteConfig []).2 =
    .ok ⟨Partition.ofSpec lines byteConfig, lines.dfa byteConfig true, lines.endActions⟩ :=
  build_of_no_errors (by decide +kernel)

theorem lines_scan : (⟨Automaton.tables ⟨Partition.ofSpec lines byteConfig,
    lines.dfa byteConfig true, lines.endActions⟩
    ⟨.dense, false⟩, 0⟩ : Scanner).scan [97, 98, lineFeed] =
      .ok [(0, [97]), (1, [98]), (2, [lineFeed])] := by
  decide +kernel

/-- The context of the first token is read again as the second one. -/
theorem lines_lossless : ∃ automaton, (lines.build byteConfig []).2 = .ok automaton ∧
    (⟨automaton.tables ⟨.dense, false⟩, 0⟩ : Scanner).Tiles [97, 98, lineFeed] 0
    [(0, [97]), (1, [98]), (2, [lineFeed])] 3 := by
  have room : (Automaton.tables ⟨Partition.ofSpec lines byteConfig, lines.dfa byteConfig true,
      lines.endActions⟩ ⟨.dense, false⟩).Addressable := by decide +kernel
  have lossless := scan_lossless lines_built Nat.zero_lt_one room [97, 98, lineFeed]
  dsimp only at lossless
  rw [lines_scan] at lossless
  exact ⟨_, lines_built, lossless.2.2.2.2.1⟩

end Spec

end Scangen
