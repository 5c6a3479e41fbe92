import Componentry.Text.Blank
import Componentry.Text.Case
import Componentry.Text.Cut
/-!
# File paths

A path is the text it is written as.  `Path.join` appends one path to another: an absolute one
replaces the first, and a slash is put between them unless one is there.  `Path.expandHome` replaces
a leading tilde by the home directory, and `Environment.configFile` says where a configuration file
is: where a variable points to, or below the directory of the user's configuration.
-/

namespace Componentry

/-- A path as it is written. -/
abbrev Path : Type := String

namespace Path

/-- Whether a path starts at the root. -/
def isAbsolute (path : Path) : Bool :=
  path.toList.head? = some '/'

/-- Appends a path to a directory. -/
def join (directory path : Path) : Path :=
  if isAbsolute path || directory.toList = [] then path
  else if directory.toList.getLast? = some '/' then directory ++ path
  else directory ++ "/" ++ path

/-- The components between slashes; single periods after the first and empty ones are no
components. -/
def components (path : Path) : List String :=
  match Text.splitOn '/' path.toList with
  | [] => []
  | first :: rest =>
    ((if first = [] then [] else [first]) ++ rest.filter fun part => part ≠ [] ∧ part ≠ ['.']).map
      String.ofList

/-- The last component, unless it leads upwards or names the directory itself. -/
def fileName? (path : Path) : Option String :=
  match (components path).getLast? with
  | some name => if name = ".." ∨ name = "." then none else some name
  | none => none

/-- What follows the last period of the file name, if something precedes that period. -/
def extension? (path : Path) : Option String := do
  let name ← fileName? path
  let (before, after) ← Text.cutLast ['.'] name.toList
  if before = [] then none else some (String.ofList after)

/-- Replaces a leading tilde by the home directory. -/
def expandHome (home : Option Path) (path : Path) : Path :=
  let base := home.getD "~"
  match Text.trimChars path.toList with
  | ['~'] => base
  | '~' :: '/' :: rest => join base (String.ofList rest)
  | '~' :: '\\' :: rest => join base (String.ofList rest)
  | trimmed => String.ofList trimmed

end Path

/-- The environment variables that say where files are. -/
structure Environment where
  /-- The home directory. -/
  home : Option Path := none
  /-- The directory of the user's configuration, which counts if it is absolute. -/
  configHome : Option Path := none
  /-- The file that replaces the default configuration file. -/
  configPath : Option Path := none
  deriving DecidableEq, Repr

namespace Environment

/-- The directory of the user's configuration. -/
def configDirectory (env : Environment) : Option Path :=
  match env.configHome.filter Path.isAbsolute with
  | some directory => some directory
  | none => env.home.map fun home => Path.join home ".config"

/-- Where a configuration file is, given the value of the variable that may point to it. -/
def configFile (env : Environment) (pointer : Option Path) (name : String) : Path :=
  match pointer.filter fun path => !Text.isBlankText path with
  | some path => Path.expandHome env.home path
  | none => Path.join (Path.join (env.configDirectory.getD ".") "ignite") name

/-- Where the configuration of the engine is. -/
def engineFile (env : Environment) : Path :=
  env.configFile env.configPath "engine.json"

end Environment

end Componentry
