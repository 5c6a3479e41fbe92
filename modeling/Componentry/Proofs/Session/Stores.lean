import Mathlib.Tactic
import Componentry.Proofs.Keyed
import Componentry.Proofs.Session.Execution
import Componentry.Proofs.Text
/-!
# What is set in a store is read there

The two stores of a tree are written by actions and read by paths, `app.‹key›` or `session.‹key›` and
further segments below.  The two meet in `Tree.store`: a path that starts with the name of a store is
read in it (`Scope.atPath?_store`), and an action whose target is the store writes into it
(`Tree.write`).

Of an executed action the entities show no more than its state, which no path reads
(`Tree.SameView`).  So what `Tree.Written` says of a tree is all that can be seen of the write: the
value and what is inside it below the key, and everything as before where the path leads elsewhere.
-/

namespace Componentry

/-- One of the two stores of a tree. -/
inductive Store where
  | app
  | session
  deriving DecidableEq, Repr

namespace Store

/-- The root of the paths that are read in a store. -/
def name : Store → String
  | .app => "app"
  | .session => "session"

/-- The target that a store is. -/
def target : Store → Target
  | .app => .app
  | .session => .session

end Store

/-! ### Paths -/

/-- Whether a text is one segment of a path: there is no period in it, and no blank around it. -/
def IsSegment (text : String) : Prop := '.' ∉ text.toList ∧ Text.trim text = text

instance (text : String) : Decidable (IsSegment text) := inferInstanceAs (Decidable (_ ∧ _))

lemma Store.isSegment_name (store : Store) : IsSegment store.name := by
  cases store <;> decide +kernel

lemma Text.intercalate_eq_joinWith (separator : Char) (first : List Char) (rest : List (List Char)) :
    [separator].intercalate (first :: rest) = joinWith separator first rest := by
  induction rest generalizing first with
  | nil => simp [joinWith]
  | cons piece rest ih => simp [List.intercalate_cons_cons, ih, joinWith]

/-- Segments with periods between them are a path of these segments. -/
lemma Text.dottedPath_intercalate {first : String} {rest : List String} (hfirst : IsSegment first)
    (hrest : ∀ segment ∈ rest, IsSegment segment) :
    dottedPath (".".intercalate (first :: rest)) = first :: rest := by
  have htrim : ∀ segment : String, IsSegment segment →
      String.ofList (trimChars segment.toList) = segment := fun segment h => h.2
  have hcut : splitOn '.' (joinWith '.' first.toList (rest.map String.toList))
      = first.toList :: rest.map String.toList := by
    refine splitOn_joinWith hfirst.1 fun piece hpiece => ?_
    obtain ⟨segment, hsegment, rfl⟩ := List.mem_map.mp hpiece
    exact (hrest segment hsegment).1
  rw [dottedPath, String.toList_intercalate, show ".".toList = ['.'] from rfl, List.map_cons,
    intercalate_eq_joinWith, hcut, List.map_cons, List.map_cons, htrim first hfirst, List.map_map,
    List.map_map]
  exact congrArg (first :: ·) ((List.map_congr_left fun segment hsegment =>
    htrim segment (hrest segment hsegment)).trans (List.map_id' rest))

namespace Tree

/-- The attributes in a store. -/
def store (t : Tree) : Store → Attributes
  | .app => t.app
  | .session => t.session

/-- What is set under a key of a store. -/
def write (t : Tree) (store : Store) (key : String) (value : Json) : Tree :=
  t.merge (Action.place store.target) [(key, value)]

/-- Whether two trees have the same attributes and payloads under every id. -/
def SameView (t u : Tree) : Prop :=
  ∀ id, (u.byId? id).map (fun e => (e.attributes, e.payload))
    = (t.byId? id).map fun e => (e.attributes, e.payload)

variable {t u : Tree} {store : Store} {key : String} {value : Json}

lemma store_write_self : (t.write store key value).store store
    = (t.store store).insert key value := by
  cases store <;> rfl

lemma store_write_of_ne {other : Store} (h : other ≠ store) :
    (t.write store key value).store other = t.store other := by
  cases store <;> cases other <;> first | rfl | exact absurd rfl h

lemma store_modify (t : Tree) (index : Nat) (f : Entity → Entity) (store : Store) :
    (t.modify index f).store store = t.store store := by
  cases store <;> rfl

lemma sameView_write : t.SameView (t.write store key value) := by
  intro id
  cases store <;> rfl

/-- The state of an entity is not part of the view. -/
lemma sameView_state (t : Tree) (index : Nat) (state : LifecycleState) :
    t.SameView (t.modify index fun e => { e with state }) := by
  intro id
  rw [byId?, byId?, find?, find?]
  change Option.map _ ((t.ids.lookup id).bind _) = _
  cases t.ids.lookup id with
  | none => rfl
  | some i =>
      rw [Option.bind_some, Option.bind_some, entity?_modify]
      cases t.entity? i with
      | none => simp
      | some e => by_cases hi : index = i <;> simp [hi]

lemma SameView.trans {v : Tree} (h : t.SameView u) (h' : u.SameView v) : t.SameView v :=
  fun id => (h' id).trans (h id)

/-- What is read of an entity is the same in the same view. -/
lemma SameView.bind_byId? (h : t.SameView u) (id : String)
    (f : Attributes × Option Json → Option Json) :
    (u.byId? id).bind (fun e => f (e.attributes, e.payload))
      = (t.byId? id).bind fun e => f (e.attributes, e.payload) := by
  simpa only [Option.bind_map, Function.comp_def] using congrArg (Option.bind · f) (h id)

end Tree

namespace Scope

lemma atPath?_store (scope : Scope) (store : Store) (path : List String) :
    scope.atPath? (store.name :: path) = (scope.tree.store store).atPath? path := by
  cases store <;> rfl

/-- A path that does not start at a store finds what it found before, where the view and the other
store are the same. -/
lemma atPath?_congr {t u : Tree} {store : Store} (hview : t.SameView u)
    (hother : ∀ other, other ≠ store → u.store other = t.store other) (event : Option Event)
    {path : List String} (hpath : path.head? ≠ some store.name) :
    (Scope.mk u event).atPath? path = (Scope.mk t event).atPath? path := by
  unfold atPath?
  split
  · exact congrArg (Attributes.atPath? · _) (hother .app fun heq => hpath (heq ▸ rfl))
  · exact congrArg (Attributes.atPath? · _) (hother .session fun heq => hpath (heq ▸ rfl))
  · rfl
  · rename_i id rest
    exact hview.bind_byId? id fun shown => shown.1.atPath? rest
  · rename_i id rest
    simpa only [Option.bind_assoc] using hview.bind_byId? id fun shown =>
      shown.2.bind fun payload => payload.atPath? rest
  · rfl

end Scope

namespace Tree

/-- A tree that shows a value set under a key of a store, and otherwise what another one shows. -/
structure Written (t : Tree) (store : Store) (key : String) (value : Json) (u : Tree) : Prop where
  /-- Below the key there is the value. -/
  lookup_eq : ∀ (event : Option Event) (rest : List String), (∀ segment ∈ rest, IsSegment segment) →
    (Scope.mk u event).lookup? (".".intercalate (store.name :: key :: rest)) = value.atPath? rest
  /-- Every path finds what it found, unless it leads to the store as a whole or to the key. -/
  lookup_apart : ∀ (event : Option Event) (path : String), Text.dottedPath path ≠ [store.name] →
    ¬ [store.name, key] <+: Text.dottedPath path →
      (Scope.mk u event).lookup? path = (Scope.mk t event).lookup? path
  /-- A new key goes behind the others, and none moves. -/
  keys_eq : (u.store store).keys = if key ∈ (t.store store).keys then (t.store store).keys
    else (t.store store).keys ++ [key]
  other_eq : ∀ other, other ≠ store → u.store other = t.store other

variable {t u : Tree} {store : Store} {key : String} {value : Json}

/-- What is stored under another key is found as before. -/
lemma lookup_insert_apart {attributes : Attributes} {path : List String} (hne : path ≠ [])
    (hkey : ¬ [key] <+: path) :
    Attributes.atPath? (attributes.insert key value) path = attributes.atPath? path := by
  cases path with
  | nil => exact absurd rfl hne
  | cons other rest =>
      have hother : key ≠ other := fun heq => hkey ⟨rest, by rw [heq]; rfl⟩
      rw [Attributes.atPath?, Attributes.atPath?, Keyed.lookup_insert, if_neg hother]

lemma written_of_store (hkey : IsSegment key) (hview : t.SameView u)
    (hstore : u.store store = (t.store store).insert key value)
    (hother : ∀ other, other ≠ store → u.store other = t.store other) :
    t.Written store key value u where
  lookup_eq event rest hrest := by
    rw [Scope.lookup?, Text.dottedPath_intercalate store.isSegment_name
      (List.forall_mem_cons.mpr ⟨hkey, hrest⟩), Scope.atPath?_store, hstore, Attributes.atPath?,
      Keyed.lookup_insert, if_pos rfl, Option.bind_some]
  lookup_apart event path hroot hbelow := by
    rw [Scope.lookup?, Scope.lookup?]
    cases hpath : Text.dottedPath path with
    | nil => rfl
    | cons first rest =>
        rw [hpath] at hroot hbelow
        by_cases hfirst : first = store.name
        · subst hfirst
          rw [Scope.atPath?_store, Scope.atPath?_store, hstore]
          exact lookup_insert_apart (fun heq => hroot (by rw [heq])) fun hprefix =>
            hbelow ((List.prefix_cons_inj _).mpr hprefix)
        · exact Scope.atPath?_congr hview hother event fun heq => hfirst (Option.some.inj heq)
  keys_eq := by rw [hstore, Keyed.keys_insert]
  other_eq := hother

end Tree

namespace Session

variable {s : Session}

/-- Merging into a place is carried out. -/
lemma carryOut_merge (s : Session) {verdict : Verdict} {place : Place} {changes : Attributes}
    {animated : Bool} (h : verdict.result = .ok (.merge place changes animated)) :
    (s.carryOut verdict).2 = .ok (.merge place changes animated)
      ∧ (s.carryOut verdict).1.tree = s.tree.merge place changes := by
  have htree := s.carryOut_tree verdict
  have heffect : (s.carryOut verdict).2 = .ok (.merge place changes animated) := by
    have hnone := perform_merge { s with reports := s.reports ++ verdict.reports } place changes
      animated
    rw [carryOut, h]
    dsimp only
    split
    · rfl
    · rename_i hperformed
      rw [hperformed] at hnone
      cases hnone
  rw [heffect] at htree
  exact ⟨heffect, htree.2⟩

/-- An action that sets a key of a store asks for just this. -/
lemma verdict_of_set {e : Entity} {event : Event} {store : Store} {key : String} {value : Json}
    (haction : e.behaviour.action? = some Action.set)
    (htarget : s.tree.resolveTarget e.target = .ok store.target)
    (hkey : (s.invocation e event).text? "key" = some key)
    (hvalue : (s.invocation e event).attributes.lookup "value" = some value) :
    (s.verdict e event).result = .ok (.merge (Action.place store.target) [(key, value)] false) := by
  have hplace : (s.invocation e event).target = .ok store.target := htarget
  rw [verdict, haction]
  dsimp only
  rw [Action.set, Action.quiet]
  cases store <;> simp only [hplace, hvalue, hkey, Store.target]

/-- **What is set in a store is read there, and nothing else moves.**  An action that sets a key of
a store succeeds, and then the value and what is inside it is found below the key; no other path
finds anything new, and the keys of the store keep their places. -/
theorem execute_stores (s : Session) {index : Nat} {e : Entity} {event : Event} {store : Store}
    {key : String} {value : Json} (he : s.tree.entity? index = some e)
    (haction : e.behaviour.action? = some Action.set)
    (htarget : s.tree.resolveTarget e.target = .ok store.target)
    (hkey : (s.invocation e event).text? "key" = some key)
    (hvalue : (s.invocation e event).attributes.lookup "value" = some value)
    (hsegment : IsSegment key) :
    (s.execute index event).journal = s.journal ++ [executionRecord event e.id .executed]
      ∧ s.tree.Written store key value (s.execute index event).tree := by
  obtain ⟨heffect, htree⟩ := s.carryOut_merge (verdict_of_set haction htarget hkey hvalue)
  refine ⟨?_, ?_⟩
  · rw [execute_journal he, ending, heffect]
    rfl
  · rw [execute_tree he, htree]
    exact Tree.written_of_store hsegment
      (Tree.sameView_write.trans (Tree.sameView_state _ index _))
      ((Tree.store_modify ..).trans Tree.store_write_self)
      fun other hother => (Tree.store_modify ..).trans (Tree.store_write_of_ne hother)

/-- An action that keeps a record under a new key. -/
def keeper : Entity where
  id := "keeper"
  role := .action
  behaviour := .action Action.set
  target := some " session"
  attributes := [("key", .string "last visit"),
    ("value", .object [("pages", .array [.string "home", .string "news"])])]

/-- The record is found by its key, blanks around it or not, and by the places inside it; the theme
is still there, in front of it. -/
theorem execute_stores_keeper :
    let s := start Host.bare
      { entities := [keeper], ids := [("keeper", 0)], session := [("theme", .string "dark")] }
    let event : Event := ⟨⟨"success"⟩, "keeper", none⟩
    let value : Json := .object [("pages", .array [.string "home", .string "news"])]
    let t := (s.execute 0 event).tree
    s.tree.Written .session "last visit" value t
      ∧ (Scope.mk t none).lookup? "session.last visit.pages.1" = some (.string "news")
      ∧ (Scope.mk t none).lookup? " session . theme" = some (.string "dark")
      ∧ t.session.keys = ["theme", "last visit"] := by
  intro s event value t
  have he : s.tree.entity? 0 = some keeper := rfl
  have htarget : s.tree.resolveTarget keeper.target = .ok Store.session.target := by
    decide +kernel
  have hkey : (s.invocation keeper event).text? "key" = some "last visit" := by decide +kernel
  have hvalue : (s.invocation keeper event).attributes.lookup "value" = some value := by
    decide +kernel
  obtain ⟨-, hwritten⟩ := execute_stores s he rfl htarget hkey hvalue (by decide +kernel)
  refine ⟨hwritten, ?_, ?_, hwritten.keys_eq⟩
  · exact hwritten.lookup_eq none ["pages", "1"] (by decide +kernel)
  · exact hwritten.lookup_apart none " session . theme" (by decide +kernel) (by decide +kernel)

end Session

end Componentry
