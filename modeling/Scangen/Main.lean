import Scangen.Program.Arguments
import Scangen.Program.Run

/-!
The program itself: it fetches the files that a command reads, runs the command, and puts its product and
its messages where they belong.
-/

namespace Scangen.Program

def usage : List String :=
  ["usage: scangen build RULES [-o FILE] [-f rust|bytes|json] [--name NAME] [OPTIONS]",
    "       scangen scan RULES INPUT [-c CONDITION] [OPTIONS]",
    "       scangen dot RULES [-o FILE] [OPTIONS]",
    "options: --unicode --case-agnostic --classes --no-minimize --compress-map --no-compress-next",
    "         --squeeze -v"]

def FileError.ofError : IO.Error → FileError
  | .inappropriateType _ code _ => if code = 20 then .notDirectory else .isDirectory
  | .invalidArgument .. => .nameTooLong
  | _ => .missing

def fetch (file : String) : IO (Except FileError (List UInt8)) := do
  try
    let bytes ← IO.FS.readBinFile file
    return .ok bytes.toList
  catch e => return .error (.ofError e)

def store (file : String) (bytes : List UInt8) : IO (Except FileError Unit) := do
  try
    IO.FS.writeBinFile file ⟨bytes.toArray⟩
    return .ok ()
  catch e => return .error (.ofError e)

def announce (lines : List String) : IO Unit := lines.forM fun line => IO.eprintln line

def execute (command : Command) : IO UInt32 := do
  let fetched ← command.inputs.mapM fun file => return (file, ← fetch file)
  let outcome := run (fun file => (fetched.lookup file).getD (.error .missing)) command
  announce outcome.notes
  let finish ← match outcome.result with
    | .error failure => pure (some failure)
    | .ok (.print text) => do
      IO.print text
      pure none
    | .ok (.save file bytes) => do
      match ← store file bytes with
      | .ok () => pure none
      | .error cause => pure (some (Failure.write file cause))
  match finish with
  | none => return 0
  | some failure =>
    announce failure.lines
    return 1

end Scangen.Program

def main (arguments : List String) : IO UInt32 := do
  match Scangen.Program.Command.ofArguments arguments with
  | some command => Scangen.Program.execute command
  | none =>
    Scangen.Program.announce Scangen.Program.usage
    return 2
