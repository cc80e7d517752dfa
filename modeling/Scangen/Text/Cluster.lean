import Scangen.Text.ClusterRole

/-!
Extended grapheme clusters: a text in the pieces that a reader takes for its characters.
-/

namespace Scangen.Text

/-- What stands before a place in a text, as far as it decides whether a cluster ends there. -/
structure Before where
  role : ClusterRole
  /-- The last letter of a flag is still missing. -/
  openFlag : Bool
  /-- There is a pictograph, and behind it only extenders and at most one joiner at the end. -/
  pictograph : Bool
  /-- There is a consonant, and behind it only extenders. -/
  consonant : Bool
  /-- A linker is among those extenders. -/
  linked : Bool

/-- Nothing stands there. -/
def Before.nothing : Before := ⟨.control, false, false, false, false⟩

def Before.next (b : Before) (c : Char) : Before :=
  let role := ClusterRole.of c
  let extended := role = .extender || role = .joiner
  let bound := b.consonant && extended && c ≠ '\u200C'
  { role
    openFlag := role = .flagLetter && !b.openFlag
    pictograph := role = .pictograph || (b.pictograph && b.role ≠ .joiner && extended)
    consonant := role = .consonant || bound
    linked := bound && (b.linked || isLinker c) }

/-- The next character belongs to the same cluster. -/
def Before.joins (b : Before) (role : ClusterRole) : Bool :=
  if b.role.breaks || role.breaks then b.role = .carriageReturn && role = .lineFeed
  else role.trails || b.role = .leading ||
    match role with
    | .consonant => b.linked
    | .pictograph => b.pictograph && b.role = .joiner
    | .flagLetter => b.openFlag
    | .syllable first _ =>
      match b.role with
      | .syllable _ last => last.joins first
      | _ => false
    | _ => false

/-- The rest of the cluster that is under way, and the clusters behind it. -/
def splitClusters (b : Before) : List Char → List Char × List (List Char)
  | [] => ([], [])
  | c :: rest =>
    let later := splitClusters (b.next c) rest
    if b.joins (.of c) then (c :: later.1, later.2) else ([], (c :: later.1) :: later.2)

def clusters (text : List Char) : List (List Char) := (splitClusters .nothing text).2

end Scangen.Text
