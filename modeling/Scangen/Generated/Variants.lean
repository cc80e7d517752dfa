import Scangen.Spec.Basic
import Scangen.Text.PascalCase

/-!
Names for the rules in generated code: identifiers, no two of them equal. A rule whose name is taken gets
its number behind the name, and behind that the first version that is free. Nothing is said about keywords,
which generated code cannot use as names.
-/

namespace Scangen.Generated

def isIdentifierCharacter (c : Char) : Bool := c.isAlphanum || c = '_'

/-- Keeps what an identifier may hold, behind a letter. -/
def identifier (text : String) : String :=
  let kept := text.toList.filter isIdentifierCharacter
  if kept.head?.any Char.isAlpha then String.ofList kept else "Rule" ++ String.ofList kept

/-- The name that a rule gets if nothing else has it. -/
def plainVariant (convert : String → String) (name : Option String) (id : Nat) : String :=
  identifier (match name with
    | some name => convert name
    | none => s!"Rule{id}")

/-- The names to be tried for a rule, in order. -/
def variantCandidate (plain : String) (id : Nat) : Nat → String
  | 0 => plain
  | 1 => s!"{plain}{id}"
  | version + 2 => s!"{plain}{id}V{version + 1}"

/-- The first candidate that is not used. Of one more candidate than names are used, one is free. -/
def freeVariant (used : List String) (plain : String) (id : Nat) : String :=
  (((List.range (used.length + 1)).map (variantCandidate plain id)).find? fun candidate =>
    !used.contains candidate).getD plain

/-- The variants of the rules with these names, from rule `id` on. -/
def variantsFrom (convert : String → String) (used : List String) (id : Nat) :
    List (Option String) → List String
  | [] => []
  | name :: rest =>
    let variant := freeVariant used (plainVariant convert name id) id
    variant :: variantsFrom convert (variant :: used) (id + 1) rest

def variants (convert : String → String) (names : List (Option String)) : List String :=
  variantsFrom convert [] 0 names

/-- The keywords of the language of generated code, those that are kept for later use included. -/
def keywords : List String :=
  ["as", "break", "const", "continue", "crate", "else", "enum", "extern", "false", "fn", "for", "if",
   "impl", "in", "let", "loop", "match", "mod", "move", "mut", "pub", "ref", "return", "self", "Self",
   "static", "struct", "super", "trait", "true", "type", "unsafe", "use", "where", "while",
   "async", "await", "dyn",
   "abstract", "become", "box", "do", "final", "gen", "macro", "override", "priv", "try", "typeof",
   "unsized", "virtual", "yield"]

end Scangen.Generated
