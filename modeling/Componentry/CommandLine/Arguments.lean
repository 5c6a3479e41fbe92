import Componentry.Category
import Componentry.Number.Numeral
import Componentry.Path
/-!
# Arguments

A command line is a list of arguments: parameters of the program, a subcommand, and parameters of
the subcommand.  A parameter with a name is given as `--name value`, `--name=value`, `-n value`,
`-nvalue` or `-n=value`; behind `--` every argument is a file.  Arguments are taken from left to
right, and the first thing that is wrong or asks for help decides.

`Reading` is the state of that.  The value of a parameter is not examined before something follows
it, so it waits in `latest` until then (`Reading.close?`).
-/

namespace Componentry.CommandLine

/-- What can be given on a command line. -/
inductive Parameter where
  | config
  | category
  | raise
  | load
  | waitMillis
  | file
  deriving DecidableEq, Repr

/-- The subcommands with parameters of their own. -/
inductive Subcommand where
  | inspect
  | types
  | run
  deriving DecidableEq, Repr

/-- Why a command line names nothing to be done. -/
inductive Refusal where
  | help
  | misuse
  deriving DecidableEq, Repr

/-- A number of milliseconds, in decimal digits with an optional plus sign and at most 64 bits. -/
def millis? (value : String) : Option Nat :=
  let digits := match value.toList with
    | '+' :: rest => rest
    | all => all
  match Numeral.spanDigits digits with
  | (first :: rest, []) => some (Numeral.valueOf (first :: rest)) |>.filter (· < Nat.pow 2 64)
  | _ => none

namespace Parameter

/-- The long name of a parameter; a file has none. -/
def name? : Parameter → Option String
  | .config => some "config"
  | .category => some "category"
  | .raise => some "raise"
  | .load => some "load"
  | .waitMillis => some "wait-ms"
  | .file => none

/-- The letter that stands for the name. -/
def letter? : Parameter → Option Char
  | .category => some 'c'
  | .raise => some 'r'
  | .load => some 'l'
  | .config | .waitMillis | .file => none

/-- Whether a parameter can have a value. -/
def accepts (value : String) : Parameter → Bool
  | .config | .file => value != ""
  | .category => (Category.ofText value).isOk
  | .waitMillis => (millis? value).isSome
  | .raise | .load => true

/-- Whether a parameter may be given more than once. -/
def isRepeatable : Parameter → Bool
  | .raise | .load => true
  | .config | .category | .waitMillis | .file => false

end Parameter

namespace Subcommand

/-- The subcommand with a name. -/
def ofName? : String → Option Subcommand
  | "inspect" => some .inspect
  | "types" => some .types
  | "run" => some .run
  | _ => none

/-- The parameters of a subcommand; those of the program without one are the last. -/
def parameters : Option Subcommand → List Parameter
  | some .inspect => [.config, .file]
  | some .types => [.config, .category]
  | some .run => [.config, .file, .raise, .load, .waitMillis]
  | none => [.config]

end Subcommand

/-- What has been read of a command line. -/
structure Reading where
  /-- The parameters with their values, in order. -/
  given : List (Parameter × String) := []
  /-- The parameter read last, with its value if that has been read too. -/
  latest : Option (Parameter × Option String) := none

namespace Reading

/-- Examines the latest parameter. -/
def close? (reading : Reading) : Option Reading :=
  match reading.latest with
  | none => some reading
  | some (_, none) => none
  | some (parameter, some value) =>
    if parameter.accepts value &&
        (parameter.isRepeatable || !reading.given.any fun entry => entry.1 == parameter) then
      some ⟨reading.given ++ [(parameter, value)], none⟩
    else none

/-- Goes on with another parameter. -/
def next? (parameter : Parameter) (value : Option String) (reading : Reading) : Option Reading :=
  reading.close?.map fun closed => { closed with latest := some (parameter, value) }

/-- Goes on with a parameter and the value written in the same argument. -/
def joined? (parameter : Parameter) (value : Option String) (reading : Reading) :
    Option Reading := do
  let opened ← reading.next? parameter value
  if value.isSome then opened.close? else some opened

/-- Whether the latest parameter still needs its value. -/
def isWaiting (reading : Reading) : Bool :=
  reading.latest.any fun entry => entry.2.isNone

/-- The values of a parameter, in order. -/
def values (parameter : Parameter) (reading : Reading) : List String :=
  reading.given.filterMap fun entry => if entry.1 = parameter then some entry.2 else none

/-- The help that is asked for, unless something before it is wrong. -/
def help (reading : Reading) : Refusal :=
  if reading.close?.isSome then .help else .misuse

/-- Goes on with a file. -/
def file? (level : Option Subcommand) (value : String) (reading : Reading) : Option Reading := do
  guard ((Subcommand.parameters level).contains .file)
  let closed ← reading.close?
  guard (closed.values .file).isEmpty
  return { closed with latest := some (.file, some value) }

/-- An argument with a long name. -/
def long (level : Option Subcommand) (text : List Char) (reading : Reading) :
    Except Refusal Reading :=
  let (name, value) := match Text.cut ['='] text with
    | some (name, value) => (name, some (String.ofList value))
    | none => (text, none)
  let name := String.ofList name
  if name = "help" then .error (if value.isNone then reading.help else .misuse)
  else
    match (Subcommand.parameters level).find? fun p => p.name? == some name with
    | some parameter => ((reading.joined? parameter value).map Except.ok).getD (.error .misuse)
    | none => .error .misuse

/-- An argument with a letter. -/
def short (level : Option Subcommand) (letter : Char) (text : List Char) (reading : Reading) :
    Except Refusal Reading :=
  if letter = 'h' then .error reading.help
  else
    let value := match text with
      | [] => none
      | '=' :: rest => some (String.ofList rest)
      | all => some (String.ofList all)
    match (Subcommand.parameters level).find? fun p => p.letter? == some letter with
    | some parameter => ((reading.joined? parameter value).map Except.ok).getD (.error .misuse)
    | none => .error .misuse

/-- Whether help can be given on what is named. -/
def helpOn : List String → Refusal
  | [] => .help
  | [name] => if name = "help" ∨ (Subcommand.ofName? name).isSome then .help else .misuse
  | _ => .misuse

/-- Reads arguments up to their end or to a subcommand, which comes with the arguments behind
it. -/
def read (level : Option Subcommand) (literal : Bool) (reading : Reading) :
    List String → Except Refusal (Reading × Option (Subcommand × List String))
  | [] => .ok (reading, none)
  | argument :: rest =>
    let asFile :=
      match reading.file? level argument with
      | some reading => read level literal reading rest
      | none => .error .misuse
    if literal then asFile
    else
      match argument.toList with
      | ['-', '-'] => read level true reading rest
      | '-' :: '-' :: text =>
        match reading.long level text with
        | .ok reading => read level false reading rest
        | .error refusal => .error refusal
      | '-' :: letter :: text =>
        match reading.short level letter text with
        | .ok reading => read level false reading rest
        | .error refusal => .error refusal
      | _ =>
        if reading.isWaiting then
          let latest := reading.latest.map fun entry => (entry.1, some argument)
          read level false { reading with latest } rest
        else
          match level, argument, Subcommand.ofName? argument with
          | none, "help", _ => .error (helpOn rest)
          | none, _, some subcommand => .ok (reading, some (subcommand, rest))
          | _, _, _ => asFile

end Reading

/-! ### Commands -/

/-- What is to be done. -/
inductive Command where
  /-- Show what the program can do. -/
  | overview
  /-- Build a document and show its tree and problems. -/
  | inspect (file : Path)
  /-- List the registered types. -/
  | types (category : Option Category)
  /-- Open a session, load data providers, raise events and show what was delivered. -/
  | run (file : Path) (loads raises : List String) (wait : Nat)
  deriving DecidableEq, Repr

/-- A command and the configuration file it is to be done with, if one is named. -/
structure Invocation where
  config : Option Path
  command : Command
  deriving DecidableEq, Repr

/-- The command of a subcommand with its parameters. -/
def Subcommand.command? (reading : Reading) : Subcommand → Option Command
  | .inspect => (reading.values .file).head?.map .inspect
  | .types =>
    some (.types ((reading.values .category).head?.bind fun name => (Category.ofText name).toOption))
  | .run =>
    (reading.values .file).head?.map fun file =>
      .run file (reading.values .load) (reading.values .raise)
        (((reading.values .waitMillis).head?.bind millis?).getD 0)

/-- Understands a command line.  The parameters of the program are examined after those of the
subcommand, and a configuration file named among the latter counts. -/
def Invocation.ofArguments (arguments : List String) : Except Refusal Invocation :=
  match Reading.read none false {} arguments with
  | .error refusal => .error refusal
  | .ok (outer, none) =>
    match outer.close? with
    | some outer => .ok ⟨(outer.values .config).head?, .overview⟩
    | none => .error .misuse
  | .ok (outer, some (subcommand, arguments)) =>
    match Reading.read (some subcommand) false {} arguments with
    | .error refusal => .error refusal
    | .ok (inner, _) =>
      match inner.close?, outer.close? with
      | some inner, some outer =>
        match subcommand.command? inner with
        | some command => .ok ⟨(inner.values .config ++ outer.values .config).head?, command⟩
        | none => .error .misuse
      | _, _ => .error .misuse

end Componentry.CommandLine
