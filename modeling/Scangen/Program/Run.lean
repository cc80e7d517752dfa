import Scangen.Automaton.Graph
import Scangen.Generated.Module
import Scangen.Program.Command
import Scangen.Program.Files
import Scangen.Scan.Scanner
import Scangen.Spec.Definition
import Scangen.Table.Binary
import Scangen.Table.Document

/-!
What the program does: it reads the rules, builds the automaton, and writes what is asked for. Problems
of the rules go to the standard error, each behind the name of the file.
-/

namespace Scangen.Program

inductive Failure where
  | read (file : String) (cause : FileError)
  | definition (file : String) (cause : DefinitionError)
  | options (cause : OptionsError)
  | build (cause : BuildError)
  /-- Bytes are not for the standard output. -/
  | noOutputFile
  | unknownCondition (name : String)
  | scan (file : String) (cause : ScanError)
  | write (file : String) (cause : FileError)
deriving DecidableEq

/-- What went wrong, from the whole to its causes. -/
def Failure.account : Failure → List String
  | read file cause => [s!"failed to read {file}", cause.message]
  | definition file cause => s!"in {file}" :: cause.message ::
      match cause with
      | .pattern _ source => [source.message]
      | .emptyDeclaration _ _ => []
  | options cause => [cause.message]
  | build cause => [cause.message]
  | noOutputFile => ["binary tables need an output file (-o)"]
  | unknownCondition name => [s!"unknown start condition `{name}`"]
  | scan file cause => [s!"while scanning {file}", cause.message]
  | write file cause => [s!"failed to write {file}", cause.message]

/-- Causes are numbered if there are several. -/
def causeLines : List String → List String
  | [] => []
  | [cause] => ["", "Caused by:", "    " ++ cause]
  | causes => "" :: "Caused by:" :: causes.zipIdx.map fun (cause, i) => s!"    {i}: {cause}"

def Failure.lines (failure : Failure) : List String :=
  match failure.account with
  | [] => []
  | whole :: causes => ("Error: " ++ whole) :: causeLines causes

/-- What a command produces and where it goes. -/
inductive Product where
  | print (text : String)
  | save (file : String) (bytes : List UInt8)
deriving DecidableEq

structure Outcome where
  /-- Messages for the standard error. -/
  notes : List String
  result : Except Failure Product

structure Prepared where
  spec : Spec
  config : Config
  automaton : Automaton

/-- Reads the rules and builds their automaton. -/
def prepare (contents : Contents) (command : Command) : List String × Except Failure Prepared :=
  match contents.readText command.rules with
  | .error cause => ([], .error (.read command.rules cause))
  | .ok text =>
    match Spec.ofText text, command.options.resolve with
    | .error cause, _ => ([], .error (.definition command.rules cause))
    | .ok _, .error cause => ([], .error (.options cause))
    | .ok spec, .ok config =>
      let (log, result) := spec.build config []
      let notes := log.map fun d => command.rules ++ ":" ++ d.describe
      match result with
      | .error cause => (notes, .error (.build cause))
      | .ok automaton => (notes, .ok ⟨spec, config, automaton⟩)

def Prepared.tables (p : Prepared) : Tables := p.automaton.tables p.config.layout

def deliver (output : Option String) (text : String) : Product :=
  match output with
  | some file => .save file text.toUTF8.toList
  | none => .print text

/-- The name of generated code, after the file of the rules if no other is given. -/
def moduleName (rules : String) (name : Option String) : String :=
  name.getD ((fileStem rules).getD "lexer")

/-- One line for each token: the rule and the quoted lexeme. -/
def tokenLine (spec : Spec) (token : Nat × List Nat) : String :=
  let (rule, lexeme) := token
  let name := (spec.rules[rule]?.map (·.displayName rule)).getD ""
  let quoted := String.ofList (Text.visible.quote (lexeme.map Char.ofNat))
  s!"{name}\t{quoted}\n"

/-- The tokens of a file in one start condition. -/
def scanFile (contents : Contents) (p : Prepared) (input condition : String) :
    Except Failure Product :=
  match p.spec.conditionId condition with
  | none => .error (.unknownCondition condition)
  | some id =>
    match contents.readText input with
    | .error cause => .error (.read input cause)
    | .ok text =>
      let scanner : Scanner := ⟨p.tables, id⟩
      match scanner.scan (text.map Char.toNat) with
      | .error cause => .error (.scan input cause)
      | .ok tokens => .ok (.print (String.join (tokens.map (tokenLine p.spec))))

def perform (contents : Contents) (rules : String) (p : Prepared) : Task → Except Failure Product
  | .build output .source name =>
    .ok (deliver output (p.tables.generate p.spec (moduleName rules name)))
  | .build (some file) .bytes _ => .ok (.save file p.tables.encode)
  | .build none .bytes _ => .error .noOutputFile
  | .build output .json _ => .ok (deliver output (p.tables.document.render 0))
  | .scan input condition => scanFile contents p input condition
  | .draw output => .ok (deliver output (p.automaton.graph p.spec).render)

def run (contents : Contents) (command : Command) : Outcome :=
  match prepare contents command with
  | (notes, .error failure) => ⟨notes, .error failure⟩
  | (notes, .ok prepared) => ⟨notes, perform contents command.rules prepared command.task⟩

/-- What the user sees of an outcome. -/
structure Report where
  output : String
  /-- The lines of the standard error. -/
  errors : List String
  succeeded : Bool

/-- A message may hold line feeds of its own. -/
def shownLines (messages : List String) : List String :=
  (Text.lines (messages.flatMap fun message => (message ++ "\n").toList)).map String.ofList

def Outcome.failed (outcome : Outcome) (failure : Failure) : Report :=
  ⟨"", shownLines (outcome.notes ++ failure.lines), false⟩

def Outcome.finished (outcome : Outcome) (output : String) : Report :=
  ⟨output, shownLines outcome.notes, true⟩

/-- Runs a command in a directory. -/
def runIn (directory : Directory) (command : Command) : Report × Directory :=
  let outcome := run directory.contents command
  match outcome.result with
  | .error failure => (outcome.failed failure, directory)
  | .ok (.print text) => (outcome.finished text, directory)
  | .ok (.save file bytes) =>
    match directory.write file bytes with
    | .error cause => (outcome.failed (.write file cause), directory)
    | .ok later => (outcome.finished "", later)

end Scangen.Program
