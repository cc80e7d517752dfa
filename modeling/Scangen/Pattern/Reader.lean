import Scangen.Pattern.Basic
import Scangen.Pattern.Escape
import Scangen.Text.Blank

/-!
Reading patterns. The text is read one character at a time; what has been read is kept as a stack of
open groups, and a mode tells what the next character belongs to. Reading a text is therefore a fold
over its characters, and reading a longer text continues where a shorter one ended.
-/

namespace Scangen

/-- One group that is still open. -/
structure Level where
  /-- The finished alternates in order. -/
  alternates : List Regex
  /-- The factors of the alternate being read, the last one first. -/
  factors : List Regex

namespace Level

def fresh : Level := ⟨[], []⟩

def push (level : Level) (factor : Regex) : Level := { level with factors := factor :: level.factors }

/-- Every alternate needs a factor. -/
def finishAlternate (level : Level) : Except PatternError Level :=
  if level.factors.isEmpty then .error .empty
  else .ok ⟨level.alternates ++ [Regex.sequence level.factors.reverse], []⟩

/-- The expression that the group holds. -/
def close (level : Level) : Except PatternError Regex :=
  level.finishAlternate.map fun finished =>
    match finished.alternates with
    | [only] => only
    | alternates => .alternation alternates

end Level

/-- The part of a symbol class read so far. -/
structure ClassItems where
  negated : Bool
  ranges : List SymbolRange

inductive Mode where
  | plain
  /-- After a dollar sign: at the end of a rule it stands for the end of the line. -/
  | dollar
  | escape (e : Escape)
  | quoted (symbols : List Nat)
  | quotedEscape (symbols : List Nat) (e : Escape)
  | count (digits : List Char)
  /-- Right after the opening bracket of a class. -/
  | classStart
  | classItem (items : ClassItems)
  | classEscape (items : ClassItems) (e : Escape)
  /-- After a symbol that may be the low end of a range. -/
  | classLow (items : ClassItems) (low : Nat)
  /-- After such a symbol and a hyphen. -/
  | classHyphen (items : ClassItems) (low : Nat)
  | classHighEscape (items : ClassItems) (low : Nat) (e : Escape)

structure Reader where
  /-- In a rule, a slash starts the context and a final dollar sign stands for the end of the line. -/
  inRule : Bool
  lineStart : Bool
  /-- The body, once its context has started. -/
  body : Option Regex
  /-- The groups around the innermost one, from the inside out. -/
  enclosing : List Level
  level : Level
  mode : Mode

namespace Reader

def start (inRule lineStart : Bool) : Reader := ⟨inRule, lineStart, none, [], .fresh, .plain⟩

/-- Adds a factor and goes on in plain mode. -/
def push (r : Reader) (factor : Regex) : Reader :=
  { r with level := r.level.push factor, mode := .plain }

/-- Ends the body or the context, in which no group may be open. -/
def close (r : Reader) : Except PatternError Regex :=
  match r.level.close with
  | .error e => .error e
  | .ok regex => if r.enclosing.isEmpty then .ok regex else .error .unbalanced

/-- Puts a postfix operator on the last factor. -/
def postfixed (r : Reader) (operator : Char) (apply : Regex → Regex) : Except PatternError Reader :=
  match r.level.factors with
  | [] => .error (.unexpected operator)
  | factor :: others => .ok { r with level := { r.level with factors := apply factor :: others } }

/-- Reads a number that is a part of a count. -/
def readNumber (count part : List Char) : Except PatternError Nat :=
  match Text.readWord 10 (Text.trim part) with
  | some n => .ok n
  | none => .error (.badCount count)

/-- Reads the count between braces: a number, or a least and perhaps a greatest number. -/
def readCount (text : List Char) : Except PatternError (Nat × Option Nat) :=
  match Text.splitFirst ',' text with
  | none => (readNumber text text).map fun n => (n, some n)
  | some (first, second) =>
    match readNumber text first with
    | .error e => .error e
    | .ok least =>
      if (Text.trim second).isEmpty then .ok (least, none)
      else
        match readNumber text second with
        | .error e => .error e
        | .ok most => if most < least then .error (.badCount text) else .ok (least, some most)

/-- What a character does where a factor or an operator may stand. -/
def stepPlain (r : Reader) (c : Char) : Except PatternError Reader :=
  match c with
  | '|' => r.level.finishAlternate.map fun level => { r with level }
  | '(' => .ok { r with enclosing := r.level :: r.enclosing, level := .fresh }
  | ')' =>
    match r.level.close, r.enclosing with
    | .error e, _ => .error e
    | .ok _, [] => .error .unbalanced
    | .ok regex, outer :: others =>
      .ok { r with enclosing := others, level := outer.push regex }
  | '*' => r.postfixed c .star
  | '+' => r.postfixed c .plus
  | '?' => r.postfixed c .optional
  | '\x7b' => (r.postfixed c id).map fun _ => { r with mode := .count [] }
  | '[' => .ok { r with mode := .classStart }
  | '"' => .ok { r with mode := .quoted [] }
  | '\\' => .ok { r with mode := .escape .start }
  | '.' => .ok (r.push (.symbolClass .anyButLineFeed))
  | '/' =>
    if r.inRule then
      match r.close, r.body with
      | .error e, _ => .error e
      | .ok _, some _ => .error (.unexpected c)
      | .ok body, none => .ok { r with body := some body, level := .fresh }
    else .ok (r.push (.symbol c.toNat))
  | '$' => if r.inRule then .ok { r with mode := .dollar } else .ok (r.push (.symbol c.toNat))
  | c => .ok (r.push (.symbol c.toNat))

/-- What a character does where an item of a class may start. -/
def stepClass (r : Reader) (items : ClassItems) (c : Char) : Except PatternError Reader :=
  match c with
  | ']' =>
    if items.ranges.isEmpty then .error .emptyClass
    else .ok (r.push (.symbolClass ⟨.ofRanges items.ranges, items.negated⟩))
  | '\\' => .ok { r with mode := .classEscape items .start }
  | c => .ok { r with mode := .classLow items c.toNat }

/-- Adds a single symbol to the class. -/
def ClassItems.pushSymbol (items : ClassItems) (c : Nat) : ClassItems :=
  { items with ranges := .single c :: items.ranges }

/-- Adds a range to the class. -/
def pushRange (r : Reader) (items : ClassItems) (low high : Nat) : Except PatternError Reader :=
  if ordered : low ≤ high then
    .ok { r with mode := .classItem { items with ranges := ⟨low, high, ordered⟩ :: items.ranges } }
  else .error .invertedRange

/-- Goes on with an escape sequence, in one mode while it lasts and in another after it. -/
def stepEscape (r : Reader) (e : Escape) (c : Char) (during : Escape → Mode)
    (after : Nat → Except PatternError Reader) : Except PatternError Reader :=
  match e.next c with
  | .error bad => .error bad
  | .ok (.inl more) => .ok { r with mode := during more }
  | .ok (.inr symbol) => after symbol

def step (r : Reader) (c : Char) : Except PatternError Reader :=
  match r.mode with
  | .plain => r.stepPlain c
  | .dollar => (r.push (.symbol '$'.toNat)).stepPlain c
  | .escape e => r.stepEscape e c .escape fun n => .ok (r.push (.symbol n))
  | .quoted symbols =>
    match c with
    | '"' => .ok (r.push (.literal symbols))
    | '\\' => .ok { r with mode := .quotedEscape symbols .start }
    | c => .ok { r with mode := .quoted (symbols ++ [c.toNat]) }
  | .quotedEscape symbols e =>
    r.stepEscape e c (.quotedEscape symbols) fun n => .ok { r with mode := .quoted (symbols ++ [n]) }
  | .count text =>
    match c with
    | '\x7d' =>
      match readCount text with
      | .error e => .error e
      | .ok (least, most) =>
        ({ r with mode := .plain } : Reader).postfixed c fun factor => .repetition factor least most
    | c => .ok { r with mode := .count (text ++ [c]) }
  | .classStart =>
    if c = '^' then .ok { r with mode := .classItem ⟨true, []⟩ } else r.stepClass ⟨false, []⟩ c
  | .classItem items => r.stepClass items c
  | .classEscape items e =>
    r.stepEscape e c (.classEscape items) fun n => .ok { r with mode := .classLow items n }
  | .classLow items low =>
    if c = '-' then .ok { r with mode := .classHyphen items low }
    else r.stepClass (ClassItems.pushSymbol items low) c
  | .classHyphen items low =>
    match c with
    | ']' => r.stepClass (ClassItems.pushSymbol (ClassItems.pushSymbol items low) '-'.toNat) c
    | '\\' => .ok { r with mode := .classHighEscape items low .start }
    | c => r.pushRange items low c.toNat
  | .classHighEscape items low e =>
    r.stepEscape e c (.classHighEscape items low) fun n => r.pushRange items low n

def read (r : Reader) (text : List Char) : Except PatternError Reader := text.foldlM step r

/-- The pattern that has been read when the text ends here. -/
def finish (r : Reader) : Except PatternError Pattern :=
  let pattern (lineEnd : Bool) : Except PatternError Pattern :=
    r.close.map fun regex =>
      match r.body with
      | none => ⟨r.lineStart, regex, none, lineEnd⟩
      | some body => ⟨r.lineStart, body, some regex, lineEnd⟩
  match r.mode with
  | .plain => pattern false
  | .dollar => pattern true
  | .classStart => .error .emptyClass
  | .classItem items => .error (if items.ranges.isEmpty then .emptyClass else .unexpectedEnd)
  | _ => .error .unexpectedEnd

theorem read_append (r : Reader) (first second : List Char) :
    r.read (first ++ second) = (r.read first).bind fun s => s.read second := by
  simp only [read, List.foldlM_append]
  rfl

end Reader

/-- Reads an expression: slashes, carets and dollar signs stand for themselves. -/
def Regex.ofText (text : List Char) : Except PatternError Regex :=
  ((Reader.start false false).read text).bind fun r => r.finish.map Pattern.body

/-- Reads the pattern of a rule. -/
def Pattern.ofText (text : List Char) : Except PatternError Pattern :=
  match text with
  | '^' :: rest => ((Reader.start true true).read rest).bind Reader.finish
  | text => ((Reader.start true false).read text).bind Reader.finish

end Scangen
