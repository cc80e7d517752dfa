import Scangen.Pattern.Reader
import Scangen.Spec.Basic
import Scangen.Text.Lines

/-!
Definition texts, one declaration or rule a line:

    # comment
    %s STRING            (inclusive start conditions)
    %x COMMENT           (exclusive start conditions)
    Name: <COND,...>pattern
    <*>pattern
    <COMMENT><<EOF>>

The name and the list of conditions may be left out.
-/

namespace Scangen

inductive DefinitionError where
  | pattern (position : Position) (cause : PatternError)
  /-- A declaration without a name; `kind` is the letter of the directive. -/
  | emptyDeclaration (position : Position) (kind : Char)
deriving DecidableEq

def DefinitionError.message : DefinitionError → String
  | pattern position cause => position.describe ++ ": " ++ cause.message
  | emptyDeclaration position kind =>
    position.describe ++ ": `%" ++ kind.toString ++ "` needs at least one condition name"

namespace Definition

/-- The pattern text of an end-of-input rule. -/
def endOfInput : List Char := ['<', '<', 'E', 'O', 'F', '>', '>']

def isLetter (c : Char) : Bool := ('a' ≤ c && c ≤ 'z') || ('A' ≤ c && c ≤ 'Z') || c = '_'

def isDigit (c : Char) : Bool := '0' ≤ c && c ≤ '9'

def isIdentifier : List Char → Bool
  | [] => false
  | first :: rest => isLetter first && rest.all fun c => isLetter c || isDigit c

/-- Splits off the name, an identifier before a colon and a space. -/
def splitName (line : List Char) : Option (List Char) × List Char :=
  match Text.splitFirst ':' line with
  | some (name, rest) =>
    if isIdentifier (Text.trim name) && rest.head? = some ' ' then
      (some (Text.trim name), Text.trimStart rest)
    else (none, line)
  | none => (none, line)

/-- Splits off the conditions, a star or a list of identifiers in angle brackets with something
after them. A bracket that starts anything else belongs to the pattern. -/
def splitConditions (text : List Char) : RuleConditions × List Char :=
  match text with
  | '<' :: inside =>
    match Text.splitFirst '>' inside with
    | none => (.inclusive, text)
    | some (list, rest) =>
      if rest.isEmpty then (.inclusive, text)
      else if list = ['*'] then (.all, rest)
      else
        let names := (Text.pieces (· = ',') list).map Text.trim
        if names.all isIdentifier then (.named (names.map String.ofList), rest)
        else (.inclusive, text)
  | _ => (.inclusive, text)

/-- What one line says. -/
inductive Line where
  | blank
  | declaration (exclusive : Bool) (names : List String)
  | rule (rule : Rule)

/-- The kind of a declaration and the text after it; the directive is a word of its own. -/
def directive : List Char → Option (Char × List Char)
  | '%' :: kind :: rest =>
    if (kind = 's' || kind = 'x') && (rest.head?.all Text.isBlank) then some (kind, rest) else none
  | _ => none

/-- Reads a line. Columns count bytes from the start of the line as it stands in the text. -/
def readLine (number : Nat) (raw : List Char) : Except DefinitionError Line :=
  let line := Text.trim raw
  let indent := Text.byteLength raw - Text.byteLength (Text.trimStart raw)
  if line.isEmpty || line.head? = some '#' then .ok .blank
  else
    match directive line with
    | some (kind, rest) =>
      match Text.words rest with
      | [] => .error (.emptyDeclaration ⟨number, indent + 1⟩ kind)
      | names => .ok (.declaration (kind = 'x') (names.map String.ofList))
    | none =>
      let (name, rest) := splitName line
      let (conditions, text) := splitConditions rest
      let position : Position := ⟨number, indent + (Text.byteLength line - Text.byteLength text) + 1⟩
      let rule (pattern : RulePattern) : Line :=
        .rule ⟨name.map String.ofList, pattern, conditions, position⟩
      if text = endOfInput then .ok (rule .endOfInput)
      else
        match Pattern.ofText text with
        | .error cause => .error (.pattern position cause)
        | .ok pattern => .ok (rule (.matching pattern))

def addLine (spec : Spec) : Line → Spec
  | .blank => spec
  | .declaration exclusive names => names.foldl (fun spec name => spec.declare name exclusive) spec
  | .rule rule => spec.addRule rule

end Definition

/-- Reads a definition text; the first line that cannot be read decides the error. -/
def Spec.ofText (text : List Char) : Except DefinitionError Spec :=
  (Text.lines text).zipIdx.foldlM (fun spec (line, index) =>
    (Definition.readLine (index + 1) line).map (Definition.addLine spec)) Spec.initial

end Scangen
