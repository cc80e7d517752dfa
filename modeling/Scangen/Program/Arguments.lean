import Scangen.Program.Command
import Scangen.Spec.Basic

/-!
Reading the arguments of the program word by word. Options may stand anywhere behind the verb, long ones
alone or with their value behind an equals sign, short ones also several in one word. No option but the
request for more output may occur twice.
-/

namespace Scangen.Program

inductive Verb where
  | build
  | scan
  | draw
deriving DecidableEq

def Verb.ofName : String → Option Verb
  | "build" => some .build
  | "scan" => some .scan
  | "dot" => some .draw
  | _ => none

inductive Switch where
  | unicode
  | caseAgnostic
  | classes
  | noMinimize
  | compressMap
  | noCompressNext
  | squeeze
deriving DecidableEq

/-- An option with a value. -/
inductive Setting where
  | output
  | format
  | name
  | condition
deriving DecidableEq

inductive OptionKind where
  /-- Asks for more messages about the work. -/
  | verbose
  | switch (switch : Switch)
  | setting (setting : Setting)
deriving DecidableEq

def Verb.settings : Verb → List Setting
  | build => [.output, .format, .name]
  | scan => [.condition]
  | draw => [.output]

def longOptions : List (String × OptionKind) :=
  [("verbose", .verbose), ("unicode", .switch .unicode), ("case-agnostic", .switch .caseAgnostic),
    ("classes", .switch .classes), ("no-minimize", .switch .noMinimize),
    ("compress-map", .switch .compressMap), ("no-compress-next", .switch .noCompressNext),
    ("squeeze", .switch .squeeze), ("output", .setting .output), ("format", .setting .format),
    ("name", .setting .name), ("condition", .setting .condition)]

def shortOptions : List (Char × OptionKind) :=
  [('v', .verbose), ('o', .setting .output), ('f', .setting .format), ('c', .setting .condition)]

/-- Options that the verb has. -/
def Verb.allows (verb : Verb) : OptionKind → Bool
  | .setting setting => setting ∈ verb.settings
  | _ => true

/-- What has been read behind the verb. -/
structure Arguments where
  files : List String
  switches : List Switch
  values : List (Setting × String)
  /-- The option whose value is the next word. -/
  awaiting : Option Setting
  /-- All words to come are files. -/
  filesOnly : Bool

namespace Arguments

def none : Arguments := ⟨[], [], [], .none, false⟩

def addFile (a : Arguments) (file : String) : Arguments := { a with files := a.files ++ [file] }

def addSwitch (a : Arguments) (switch : Switch) : Option Arguments :=
  if switch ∈ a.switches then .none else some { a with switches := switch :: a.switches }

def addValue (a : Arguments) (setting : Setting) (value : String) : Option Arguments :=
  if (a.values.lookup setting).isSome then .none
  else some { a with values := (setting, value) :: a.values, awaiting := .none }

/-- A long option and the value that is attached to it. -/
def addLong (verb : Verb) (a : Arguments) (name : String) (value : Option String) :
    Option Arguments :=
  match (longOptions.lookup name).filter verb.allows, value with
  | some .verbose, .none => some a
  | some (.switch switch), .none => a.addSwitch switch
  | some (.setting setting), some value => a.addValue setting value
  | some (.setting setting), .none => some { a with awaiting := some setting }
  | _, _ => .none

/-- Short options in one word; an option with a value takes the rest of the word. -/
def addShort (verb : Verb) (a : Arguments) : List Char → Option Arguments
  | [] => some a
  | c :: rest =>
    match (shortOptions.lookup c).filter verb.allows with
    | some .verbose => addShort verb a rest
    | some (.switch switch) => (a.addSwitch switch).bind fun a => addShort verb a rest
    | some (.setting setting) =>
      match rest with
      | [] => some { a with awaiting := some setting }
      | '=' :: value => a.addValue setting (String.ofList value)
      | value => a.addValue setting (String.ofList value)
    | .none => .none

/-- The next word. A value or a file that starts with a minus sign is not understood, unless it is
nothing else. -/
def addWord (verb : Verb) (a : Arguments) (word : String) : Option Arguments :=
  if a.filesOnly then some (a.addFile word)
  else
    match a.awaiting, word.toList with
    | some setting, ['-'] => a.addValue setting word
    | some _, '-' :: _ => .none
    | some setting, _ => a.addValue setting word
    | .none, ['-'] => some (a.addFile word)
    | .none, ['-', '-'] => some { a with filesOnly := true }
    | .none, '-' :: '-' :: long =>
      let name := String.ofList (long.takeWhile (· ≠ '='))
      match long.dropWhile (· ≠ '=') with
      | [] => a.addLong verb name .none
      | _ :: value => a.addLong verb name (some (String.ofList value))
    | .none, '-' :: short => addShort verb a short
    | .none, _ => some (a.addFile word)

/-- All words behind the verb. -/
def ofWords (verb : Verb) (words : List String) : Option Arguments :=
  (words.foldlM (addWord verb) none).filter fun a => a.awaiting.isNone

/-- The Unicode alphabet is always divided into classes, and its class map into pages. -/
def options (a : Arguments) : Options where
  classes := .unicode ∈ a.switches ∨ .classes ∈ a.switches
  unicode := .unicode ∈ a.switches
  caseAgnostic := .caseAgnostic ∈ a.switches
  minimize := .noMinimize ∉ a.switches
  compressMap := .unicode ∈ a.switches ∨ .compressMap ∈ a.switches
  compressNext := .noCompressNext ∉ a.switches
  squeeze := .squeeze ∈ a.switches

/-- The value of an option that names a file, which no empty text does. -/
def output (a : Arguments) : Option (Option String) :=
  match a.values.lookup .output with
  | some "" => .none
  | value => some value

def format (a : Arguments) : Option Format :=
  match a.values.lookup .format with
  | .none => some .source
  | some "rust" => some .source
  | some "bytes" => some .bytes
  | some "json" => some .json
  | some _ => .none

/-- Each verb asks for a number of files. -/
def command (a : Arguments) (verb : Verb) : Option Command :=
  if "" ∈ a.files then .none
  else
    match verb, a.files with
    | .build, [rules] => do
      let output ← a.output
      let format ← a.format
      return ⟨rules, a.options, .build output format (a.values.lookup .name)⟩
    | .scan, [rules, input] =>
      let condition := (a.values.lookup .condition).getD Spec.initialName
      some ⟨rules, a.options, .scan input condition⟩
    | .draw, [rules] => do
      let output ← a.output
      return ⟨rules, a.options, .draw output⟩
    | _, _ => .none

end Arguments

/-- In front of the verb, only the request for more output may stand. -/
def isVerboseWord (word : String) : Bool :=
  word = "--verbose" ||
    match word.toList with
    | '-' :: 'v' :: more => more.all (· = 'v')
    | _ => false

/-- The command that a list of arguments stands for, if it stands for one. -/
def Command.ofArguments (arguments : List String) : Option Command :=
  match arguments.dropWhile isVerboseWord with
  | [] => none
  | word :: words => do
    let verb ← Verb.ofName word
    let read ← Arguments.ofWords verb words
    read.command verb

end Scangen.Program
