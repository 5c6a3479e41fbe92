import Componentry.Text.Cut
import Componentry.Tree.Basic
/-!
# Scopes

A `Scope` is what conditions and shortcodes can see: the tree and the event that is being
delivered, if there is one.  A dotted path starts at one of five roots: the stores `app` and
`session`, the `event`, the attributes of `nodes` and the payloads of `providers`.
-/

namespace Componentry

/-- The tree and the event that is being delivered. -/
structure Scope where
  tree : Tree
  event : Option Event := none

namespace Scope

/-- The names that a path may start with. -/
def roots : List String := ["app", "session", "event", "nodes", "providers"]

/-- What a path finds in the event. -/
def eventAtPath? (event : Event) : List String → Option Json
  | ["name"] => some (.string event.name.text)
  | ["source"] => some (.string event.source)
  | "payload" :: rest => event.payload.bind fun payload => payload.atPath? rest
  | _ => none

/-- What a path finds. -/
def atPath? (scope : Scope) : List String → Option Json
  | "app" :: rest => scope.tree.app.atPath? rest
  | "session" :: rest => scope.tree.session.atPath? rest
  | "event" :: rest => scope.event.bind fun event => eventAtPath? event rest
  | "nodes" :: id :: rest =>
    (scope.tree.byId? id).bind fun entity => entity.attributes.atPath? rest
  | "providers" :: id :: rest =>
    ((scope.tree.byId? id).bind Entity.payload).bind fun payload => payload.atPath? rest
  | _ => none

/-- What a path finds that is written with periods; blanks around its segments do not count. -/
def lookup? (scope : Scope) (path : String) : Option Json :=
  scope.atPath? (Text.dottedPath path)

end Scope

end Componentry
