import Componentry.CommandLine.Run
import Componentry.Json.Printer
/-!
# The program

The only part of the library that acts: it reads the environment and the files that a command line
needs, and prints what `Invocation.run` says.
-/

namespace Componentry.CommandLine

/-- What the program explains about itself. -/
def overview : String :=
  "Resolve declarative component documents and dispatch their events

Usage: componentry [--config <config>] [COMMAND]

Commands:
  inspect  Build a document and print its tree and build errors
  types    List registered class names per category
  run      Open a session, raise events and print the delivery journal
  help     Print this message"

/-- Reads a file. -/
def readText (path : Path) : IO (Except ReadFault String) := do
  try
    let bytes ← IO.FS.readBinFile path
    return (match String.fromUTF8? bytes with
      | some text => .ok text
      | none => .error .notText)
  catch e =>
    return .error (match e with
      | .noFileOrDirectory .. => .notFound
      | .permissionDenied .. => .denied
      | .inappropriateType _ 20 _ => .notDirectory
      | .inappropriateType .. => .isDirectory
      | e => .other (toString e))

/-- The environment of the process. -/
def readEnvironment : IO Environment := do
  return {
    home := ← IO.getEnv "HOME"
    configHome := ← IO.getEnv "XDG_CONFIG_HOME"
    configPath := ← IO.getEnv "IGNITE_CONFIG_PATH" }

end Componentry.CommandLine

open Componentry Componentry.CommandLine in
/-- Runs the program. -/
def main (arguments : List String) : IO UInt32 := do
  match Invocation.ofArguments arguments with
  | .error .help => IO.println overview; return 0
  | .error .misuse => IO.eprintln overview; return 2
  | .ok invocation =>
    let environment ← readEnvironment
    let contents ← (invocation.files environment).mapM fun path => do
      return (path, ← readText path)
    let files (path : Path) := (contents.lookup path).getD (.error .notFound)
    match invocation.run environment files with
    | .overview => IO.println overview; return 0
    | .output v => IO.println v.pretty; return 0
    | .failed failure => IO.eprintln failure.report; return 1
