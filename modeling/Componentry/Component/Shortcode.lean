import Componentry.Scope
/-!
# Shortcodes

A shortcode stands in a text for a value.  Its behaviour is a function of the argument that follows
the colon, if one does, and of the scope; no value means that the argument leads nowhere.  The
built-in shortcodes look their argument up below one of the roots of the scope.
-/

namespace Componentry

/-- The value that a shortcode stands for. -/
abbrev Shortcode : Type := Option String → Scope → Option Json

namespace Shortcode

/-- Looks the argument up below a root; a blank argument leads nowhere. -/
def below (root : String) : Shortcode := fun argument scope =>
  match (argument.map Text.trim).filter (· ≠ "") with
  | none => none
  | some path => scope.lookup? (root ++ "." ++ path)

/-- The built-in shortcodes with their type names. -/
def builtins : List (String × Shortcode) :=
  [("app", below "app"), ("session", below "session"), ("attr", below "nodes"),
   ("dp", below "providers"), ("event", below "event")]

end Shortcode

end Componentry
