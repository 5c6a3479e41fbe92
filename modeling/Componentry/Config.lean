import Componentry.Json.Decode
import Componentry.Json.Reader
import Componentry.Registry.Basic
/-!
# Configuration

`EngineConfig` is what can be configured: the registry, the build mode and the dispatcher.  It is
read from JSON; what a file leaves out takes its default.  A file is read as it is written, so a
repeated field is an error there, while members that mean nothing may hold anything that is JSON.
-/

namespace Componentry

/-- Debug builds report the problems of a document loudly. -/
inductive BuildMode where
  | debug
  | release
  deriving DecidableEq, Repr

/-- The name of a build mode. -/
def BuildMode.name : BuildMode → String
  | .debug => "debug"
  | .release => "release"

/-- The build mode with exactly this name. -/
def BuildMode.ofName? : String → Option BuildMode
  | "debug" => some .debug
  | "release" => some .release
  | _ => none

/-- The configuration of the dispatcher; times are in milliseconds. -/
structure DispatchConfig where
  /-- The delay of actions that declare none. -/
  defaultDelay : Nat := 0
  /-- The shortest interval between two repeats. -/
  minRepeatDelay : Nat := 10
  /-- How often a binding may repeat. -/
  maxRepeats : Nat := 100
  deriving DecidableEq, Repr

/-- Raises a repeat interval, in microseconds, to the configured minimum. -/
def DispatchConfig.clampRepeat (config : DispatchConfig) (micros : Nat) : Nat :=
  max micros (1000 * config.minRepeatDelay)

/-- What can be configured. -/
structure EngineConfig where
  registry : RegistryConfig := {}
  mode : BuildMode := .debug
  dispatch : DispatchConfig := {}
  deriving DecidableEq, Repr

/-! ### JSON forms -/

/-- The name of a registration policy. -/
def RegistrationPolicy.name : RegistrationPolicy → String
  | .overwrite => "overwrite"
  | .strict => "strict"

/-- The policy with exactly this name. -/
def RegistrationPolicy.ofName? : String → Option RegistrationPolicy
  | "overwrite" => some .overwrite
  | "strict" => some .strict
  | _ => none

namespace RegistryConfig

/-- The JSON form of a registry configuration. -/
def toJson (config : RegistryConfig) : Json :=
  .object [
    ("policy", .string config.policy.name),
    ("class_name_formats", .object
      (config.classNameFormats.map fun entry => (entry.1.name, .string entry.2)))]

/-- Reads the JSON form of a registry configuration. -/
def ofJson? (v : Json) : Option RegistryConfig := do
  let r ← Decoder.fields ["policy", "class_name_formats"] v
  return {
    policy := ← Decoder.optional r "policy" (Decoder.name RegistrationPolicy.ofName?) .overwrite
    classNameFormats := ← Decoder.optional r "class_name_formats"
      (Decoder.keyed Category.ofName? Decoder.string) [] }

end RegistryConfig

namespace DispatchConfig

/-- The JSON form of a dispatcher configuration. -/
def toJson (config : DispatchConfig) : Json :=
  .object [
    ("default_delay_ms", .number (.int config.defaultDelay)),
    ("min_repeat_delay_ms", .number (.int config.minRepeatDelay)),
    ("max_repeats", .number (.int config.maxRepeats))]

/-- Reads the JSON form of a dispatcher configuration: delays have 64 bits, the number of repeats
has 32. -/
def ofJson? (v : Json) : Option DispatchConfig := do
  let r ← Decoder.fields ["default_delay_ms", "min_repeat_delay_ms", "max_repeats"] v
  return {
    defaultDelay := ← Decoder.optional r "default_delay_ms" (Decoder.natBelow (Nat.pow 2 64)) 0
    minRepeatDelay := ← Decoder.optional r "min_repeat_delay_ms" (Decoder.natBelow (Nat.pow 2 64)) 10
    maxRepeats := ← Decoder.optional r "max_repeats" (Decoder.natBelow (Nat.pow 2 32)) 100 }

end DispatchConfig

namespace EngineConfig

/-- The JSON form of a configuration. -/
def toJson (config : EngineConfig) : Json :=
  .object [
    ("registry", config.registry.toJson),
    ("mode", .string config.mode.name),
    ("dispatch", config.dispatch.toJson)]

/-- Reads the JSON form of a configuration. -/
def ofJson? (v : Json) : Option EngineConfig := do
  let r ← Decoder.fields ["registry", "mode", "dispatch"] v
  return {
    registry := ← Decoder.optional r "registry" RegistryConfig.ofJson? {}
    mode := ← Decoder.optional r "mode" (Decoder.name BuildMode.ofName?) .debug
    dispatch := ← Decoder.optional r "dispatch" DispatchConfig.ofJson? {} }

end EngineConfig

namespace Json.Written

mutual

/-- The value of a written text with its repeated keys, at any depth.  A number that is too large
and a string without content become `false`, which no field of a configuration accepts; a key
without content has no value. -/
def verbatim? : Written → Option Json
  | .null => some .null
  | .bool b => some (.bool b)
  | .number n => some ((n.toNumber?.map .number).getD (.bool false))
  | .string s => some ((s.map .string).getD (.bool false))
  | .array items => (verbatimItems? items).map .array
  | .object members => (verbatimMembers? members).map .object

/-- The values of written items. -/
def verbatimItems? : List Written → Option (List Json)
  | [] => some []
  | v :: rest =>
    match verbatim? v, verbatimItems? rest with
    | some v, some rest => some (v :: rest)
    | _, _ => none

/-- The values of written members. -/
def verbatimMembers? : List (Option String × Written) → Option (List (String × Json))
  | [] => some []
  | (key, v) :: rest =>
    match key, verbatim? v, verbatimMembers? rest with
    | some key, some v, some rest => some ((key, v) :: rest)
    | _, _, _ => none

end

end Json.Written

/-- Why a file cannot be read. -/
inductive ReadFault where
  | notFound
  | isDirectory
  /-- A part of the path in front of a slash is a file. -/
  | notDirectory
  | notText
  | denied
  | other (description : String)
  deriving DecidableEq, Repr

/-- The wording of a read fault. -/
def ReadFault.message : ReadFault → String
  | .notFound => "No such file or directory (os error 2)"
  | .isDirectory => "Is a directory (os error 21)"
  | .notDirectory => "Not a directory (os error 20)"
  | .notText => "stream did not contain valid UTF-8"
  | .denied => "Permission denied (os error 13)"
  | .other description => description

/-- Why a configuration file yields no configuration. -/
inductive ConfigError where
  | read (fault : ReadFault)
  | malformed
  deriving DecidableEq, Repr

/-- The wording of an error, followed by that of what caused it. -/
def ConfigError.messages : ConfigError → List String
  | .read fault => ["failed to read configuration: " ++ fault.message, fault.message]
  | .malformed => ["failed to parse configuration", "the text is malformed"]

namespace EngineConfig

/-- Reads a configuration file. -/
def ofText? (text : String) : Option EngineConfig := do
  ofJson? (← (← Json.Written.ofText? text).verbatim?)

/-- The configuration in a file that was read or could not be. -/
def ofFile : Except ReadFault String → Except ConfigError EngineConfig
  | .error fault => .error (.read fault)
  | .ok text =>
    match ofText? text with
    | some config => .ok config
    | none => .error .malformed

/-- The configuration at the default place: a file that is missing or unusable means defaults. -/
def orDefault : Except ConfigError EngineConfig → EngineConfig
  | .ok config => config
  | .error _ => {}

end EngineConfig

end Componentry
