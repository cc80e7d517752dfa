import Scangen.Generated.Arrays
import Scangen.Generated.Lookup
import Scangen.Generated.Variants
import Scangen.Text.Quoted

/-!
The module that is generated for a scanner: an enumeration of the rules, types for the tags, the tables as
constants, and functions that look things up in them.
-/

namespace Scangen

namespace Generated

/-- What is left to others: how code is laid out, and how a name becomes that of a type. -/
structure Style where
  format : List Item → String
  pascal : String → String

def Style.standard : Style := ⟨Generated.format, Text.pascalCase⟩

namespace Style

variable (style : Style)

def ruleTypeName (name : String) : String := style.pascal name ++ "Rule"

/-- The variants of the rules. -/
def ruleVariants (spec : Spec) : List String :=
  variants style.pascal (spec.rules.map Rule.name)

end Style

/-- The rules as an enumeration; one without variants has no representation. -/
def ruleType (typeName : String) (variants : List String) : Item :=
  .enumeration typeName ["Clone", "Copy", "PartialEq", "Eq", "Debug"]
    (if variants.isEmpty then none else some "u32") variants

def fromIdentifierArms (typeName : String) (variants : List String) : List Code :=
  variants.zipIdx.map fun (variant, id) => .line s!"{id} => Some({typeName}::{variant}),"

/-- A rule without a name is shown by its variant. -/
def toNameArms (typeName : String) (names : List (Option String)) (variants : List String) :
    List Code :=
  (names.zip variants).map fun (name, variant) =>
    .line (typeName ++ "::" ++ variant ++ " => \"" ++
      String.ofList (Text.ascii.escapeAll (name.getD variant).toList) ++ "\",")

def fromIdentifier (typeName : String) (variants : List String) : Function :=
  ⟨true, "from_id", ["id: u32"], "Option<Self>",
    [.block "match id" (fromIdentifierArms typeName variants ++ [.line "_ => None,"])]⟩

def toName (typeName : String) (names : List (Option String)) (variants : List String) : Function :=
  ⟨true, "to_name", ["self"], "&'static str",
    [.block "match self" (toNameArms typeName names variants ++
      (if variants.isEmpty then [.line "_ => unreachable!(),"] else []))]⟩

def ruleFunctions (typeName : String) (names : List (Option String)) (variants : List String) :
    Item :=
  .methods typeName [fromIdentifier typeName variants, toName typeName names variants]

def tagTypes : List Item :=
  [.enumeration "Trailing" ["Clone", "Copy", "Debug"] none ["None", "Head(u32)", "Tail(u32)"],
    .record "Accept" ["Clone", "Copy", "Debug"] ["pub rule: u32", "pub trailing: Trailing"]]

def constants (t : Tables) : List Constant :=
  [⟨"DEAD", "u32", "u32::MAX"⟩, ⟨"NUM_STATES", "u32", toString t.numStates⟩,
    ⟨"NUM_CLASSES", "u32", toString t.numClasses⟩,
    ⟨"BOL_CLASS", "Option<u32>", optionText t.lineStart⟩,
    ⟨"EOL_CLASS", "Option<u32>", optionText t.lineEnd⟩]

def Style.items (style : Style) (t : Tables) (spec : Spec) (name : String) : List Item :=
  let typeName := style.ruleTypeName name
  let variants := style.ruleVariants spec
  ruleType typeName variants :: ruleFunctions typeName (spec.rules.map Rule.name) variants ::
    tagTypes ++ (constants t).map Constant.item ++ (arrays t).map ConstantArray.item ++
    (lookups t.classMap t.transitions).map .function

end Generated

/-- The text of a module with the tables of a specification; the type of its rules is called after
`name`. The last line ends like all others. -/
def Tables.generateIn (style : Generated.Style) (t : Tables) (spec : Spec) (name : String) : String :=
  style.format (style.items t spec name) ++ "\n"

/-- The module in the usual style. -/
def Tables.generate (t : Tables) (spec : Spec) (name : String) : String :=
  t.generateIn .standard spec name

end Scangen
