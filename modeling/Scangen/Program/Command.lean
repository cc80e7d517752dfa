import Scangen.Options

/-!
Commands of the program: build tables, scan a file with them, or draw the automaton.
-/

namespace Scangen.Program

inductive Format where
  /-- A module in source form. -/
  | source
  | bytes
  | json
deriving DecidableEq

inductive Task where
  /-- Without an output file the tables go to the standard output. -/
  | build (output : Option String) (format : Format) (name : Option String)
  | scan (input : String) (condition : String)
  | draw (output : Option String)
deriving DecidableEq

structure Command where
  /-- The file with the rule definitions. -/
  rules : String
  options : Options
  task : Task
deriving DecidableEq

/-- The files that a command reads. -/
def Command.inputs (command : Command) : List String :=
  match command.task with
  | .scan input _ => [command.rules, input]
  | _ => [command.rules]

end Scangen.Program
