import Mathlib.Tactic
import Componentry.Proofs.Build.WellFormed
/-!
# What is hidden when it is built

The `if` gate of a control or a data provider is looked at once, when the entity is made, in the
tree as it is at that moment.  `Builder.visits` follows the walk through a document and notes these
moments: for every control and every provider its index, and the tree that its gate was looked at
in.  It is the walk itself that is followed, with the builds that its steps have left.

`Builder.Explained` is what the walk keeps: the visits are those of the controls and the providers,
in the order of the tree, and each of these is suppressed exactly if its gate was not open in the
tree of its visit, or its parent is suppressed.  Below an entity there are only actions, for which
`Builder.TracksActions` has the induction; above them it follows `Builder.control`.
`Document.build_explained` is the result for a document.
-/

namespace Componentry

namespace Builder

/-! ### Visits -/

/-- The visit of a declaration: its index if it becomes an entity, and the tree that it is made
in. -/
def entering (builder : Builder) (role : Role) (owner : Option Nat) (path : String)
    (own : Attributes) (build : Build) : List (Nat × Tree) :=
  (builder.enter role owner path own build).2.toList.map fun index => (index, build.tree)

/-- The visit of a data provider; one that is referred to has been visited before. -/
def providerVisits (builder : Builder) (owner : Nat) (path : String) :
    Declaration → Build → List (Nat × Tree)
  | .other, _ => []
  | .object own _ _ _ _, build =>
    match referred? build.tree own with
    | some _ => []
    | none => builder.entering .dataProvider (some owner) path own build

/-- The visits of listed providers. -/
def providersVisits (builder : Builder) (owner : Nat) (path : String) (position : Nat) :
    List Declaration → Build → List (Nat × Tree)
  | [], _ => []
  | declaration :: rest, build =>
    builder.providerVisits owner (itemPath path position) declaration build
      ++ builder.providersVisits owner path (position + 1) rest
        (linked (fun b provider => b.linkProvider owner provider)
          (builder.provider owner (itemPath path position) declaration build))

/-- The visits of the data providers of a control. -/
def providerListingVisits (builder : Builder) (owner : Nat) (path : String) :
    Listing → Build → List (Nat × Tree)
  | .absent, _ | .malformed, _ => []
  | .items declarations, build =>
    builder.providersVisits owner (path ++ "/dataProviders") 0 declarations build

mutual

/-- The visits of a control and of everything below it. -/
def controlVisits (builder : Builder) (owner : Option Nat) (path : String) :
    Declaration → Build → List (Nat × Tree)
  | .other, _ => []
  | .object own providers actions controls handlers, build =>
    match builder.enter .control owner path own build with
    | (_, none) => []
    | (entered, some index) =>
      let provided := builder.providerListing index path providers entered
      let handled := builder.handlerMap index path handlers provided
      let bound := builder.actionListing index path actions handled
      builder.entering .control owner path own build
        ++ builder.providerListingVisits index path providers entered
        ++ builder.controlListingVisits index path controls bound

/-- The visits of the child controls of a control. -/
def controlListingVisits (builder : Builder) (owner : Nat) (path : String) :
    Listing → Build → List (Nat × Tree)
  | .absent, _ | .malformed, _ => []
  | .items declarations, build =>
    builder.controlsVisits owner (path ++ "/controls") 0 declarations build

/-- The visits of listed controls. -/
def controlsVisits (builder : Builder) (owner : Nat) (path : String) (position : Nat) :
    List Declaration → Build → List (Nat × Tree)
  | [], _ => []
  | declaration :: rest, build =>
    builder.controlVisits (some owner) (itemPath path position) declaration build
      ++ builder.controlsVisits owner path (position + 1) rest
        (linked (fun b child => b.linkControl owner child)
          (builder.control (some owner) (itemPath path position) declaration build))

end

/-- The visits of all controls and data providers of a document. -/
def visits (builder : Builder) (document : Document) : List (Nat × Tree) :=
  builder.controlVisits none "view" (Declaration.ofJson (.object document.rootNode))
    { tree := { app := document.app, session := document.session } }

end Builder

/-! ### Suppression -/

namespace Tree

/-- Whether the entity at an index is suppressed. -/
def IsSuppressed (t : Tree) (index : Nat) : Prop :=
  (t.entity? index).map Entity.suppressed = some true

/-- The entity at an index is suppressed exactly if its gate was not open in a tree, or its parent
is suppressed. -/
def HiddenBy (t : Tree) (evaluator : Evaluator) (index : Nat) (seen : Tree) : Prop :=
  ∃ e, t.entity? index = some e
    ∧ (e.suppressed = true ↔ Gate.isOpen evaluator { tree := seen } e.condition ≠ .ok true
      ∨ ∃ p ∈ e.parent, t.IsSuppressed p)

/-- The controls and the data providers of a tree, in order. -/
def shown (t : Tree) : List Nat :=
  (List.range t.size).filter fun i => t.roleAt? i ≠ some .action

/-- What the suppression of an entity depends on. -/
def marks (t : Tree) (index : Nat) : Option (Role × Option Nat × Option Json × Bool) :=
  (t.entity? index).map fun e => (e.role, e.parent, e.condition, e.suppressed)

variable {t u : Tree}

lemma shown_congr (hsize : u.size = t.size) (h : ∀ i, u.marks i = t.marks i) :
    u.shown = t.shown := by
  have hrole : ∀ i, u.roleAt? i = t.roleAt? i := fun i => by
    simpa [marks, roleAt?, Option.map_map, Function.comp_def]
      using congrArg (Option.map Prod.fst) (h i)
  rw [shown, shown, hsize]
  simp only [hrole]

lemma HiddenBy.congr (h : ∀ i, u.marks i = t.marks i) {evaluator : Evaluator} {index : Nat}
    {seen : Tree} (ht : t.HiddenBy evaluator index seen) : u.HiddenBy evaluator index seen := by
  have hentity : ∀ i e, t.entity? i = some e → ∃ e', u.entity? i = some e' ∧ e'.parent = e.parent
      ∧ e'.condition = e.condition ∧ e'.suppressed = e.suppressed := by
    intro i e he
    have hi := h i
    rw [marks, marks, he, Option.map_some, Option.map_eq_some_iff] at hi
    obtain ⟨e', he', hmarks⟩ := hi
    simp only [Prod.mk.injEq] at hmarks
    exact ⟨e', he', hmarks.2.1, hmarks.2.2.1, hmarks.2.2.2⟩
  have hsuppressed : ∀ p, u.IsSuppressed p ↔ t.IsSuppressed p := by
    intro p
    have hp : (u.entity? p).map Entity.suppressed = (t.entity? p).map Entity.suppressed := by
      simpa [marks, Option.map_map, Function.comp_def]
        using congrArg (Option.map fun m => m.2.2.2) (h p)
    rw [IsSuppressed, hp, IsSuppressed]
  obtain ⟨e, he, hiff⟩ := ht
  obtain ⟨e', he', hparent, hcondition, hflag⟩ := hentity index e he
  refine ⟨e', he', ?_⟩
  rw [hflag, hcondition, hparent, hiff]
  simp only [hsuppressed]

/-- A change of an entity that leaves its marks alone. -/
lemma marks_modify (t : Tree) (index : Nat) {f : Entity → Entity}
    (hf : ∀ e, (f e).role = e.role ∧ (f e).parent = e.parent ∧ (f e).condition = e.condition
      ∧ (f e).suppressed = e.suppressed) (i : Nat) : (t.modify index f).marks i = t.marks i := by
  rw [marks, marks, entity?_modify]
  split_ifs
  · cases t.entity? i with
    | none => rfl
    | some e =>
        obtain ⟨hrole, hparent, hcondition, hsuppressed⟩ := hf e
        simp [hrole, hparent, hcondition, hsuppressed]
  · rfl

lemma shown_insert (t : Tree) (e : Entity) :
    (t.insert e).shown = t.shown ++ if e.role = .action then [] else [t.size] := by
  have hold : ∀ i ∈ List.range t.size, (t.insert e).roleAt? i = t.roleAt? i := by
    intro i hi
    rw [roleAt?, entity?_insert_of_lt t e (List.mem_range.mp hi), roleAt?]
  have hnew : (t.insert e).roleAt? t.size = some e.role := by
    rw [roleAt?, entity?_insert_size, Option.map_some]
  rw [shown, size_insert, List.range_succ, List.filter_append, shown]
  congr 1
  · exact List.filter_congr fun i hi => by rw [hold i hi]
  · by_cases hrole : e.role = .action <;> simp [hnew, hrole]

lemma isSuppressed_insert (t : Tree) (e : Entity) {index : Nat} (h : index < t.size) :
    (t.insert e).IsSuppressed index ↔ t.IsSuppressed index := by
  rw [IsSuppressed, entity?_insert_of_lt t e h, IsSuppressed]

/-- What was known of an entity stays known when another one enters. -/
lemma HiddenBy.insert {evaluator : Evaluator} {index : Nat} {seen : Tree}
    (h : t.HiddenBy evaluator index seen) (hl : ∀ e, t.entity? index = some e →
      ∀ p ∈ e.parent, p < index) (new : Entity) :
    (t.insert new).HiddenBy evaluator index seen := by
  obtain ⟨e, he, hiff⟩ := h
  have hindex : index < t.size := lt_size_iff.mpr ⟨e, he⟩
  refine ⟨e, by rw [entity?_insert_of_lt t new hindex, he], hiff.trans (or_congr_right ?_)⟩
  refine exists_congr fun p => and_congr_right fun hp => ?_
  rw [isSuppressed_insert t new ((hl e he p hp).trans hindex)]

end Tree

namespace Builder

/-- A control or a provider is suppressed exactly if its gate is not open in the tree that it is made
in, or its owner is suppressed. -/
lemma suppressed_iff {builder : Builder} {t : Tree} {role : Role} {owner : Option Nat} {id : String}
    {own : Attributes} {e : Entity} {faults : List BuildFault}
    (h : builder.describe t role owner id own = (faults, some e)) (hrole : role ≠ .action) :
    e.suppressed = true ↔ Gate.isOpen builder.evaluator { tree := t } e.condition ≠ .ok true
      ∨ ∃ p ∈ owner, t.IsSuppressed p := by
  have hvisible : ∀ condition, (builder.visible t condition).2 = true
      ↔ Gate.isOpen builder.evaluator { tree := t } condition = .ok true := by
    intro condition
    rw [visible]
    split
    · rename_i open? hopen
      simp [hopen]
    · rename_i failure hfailure
      simp [hfailure]
  have howner : ownerSuppressed t owner = true ↔ ∃ p ∈ owner, t.IsSuppressed p := by
    rw [ownerSuppressed]
    cases owner with
    | none => simp
    | some p => cases hp : t.entity? p <;> simp [Tree.IsSuppressed, hp]
  have hflag : ∀ condition, (!(builder.visible t condition).2 || ownerSuppressed t owner) = true
      ↔ Gate.isOpen builder.evaluator { tree := t } condition ≠ .ok true
        ∨ ∃ p ∈ owner, t.IsSuppressed p := by
    intro condition
    rw [Bool.or_eq_true, Bool.not_eq_true', ← Bool.not_eq_true, howner, hvisible]
  rw [describe] at h
  split at h
  · cases h
  · rename_i faults' e' htyped
    have hrole' := (typed_isNew htyped).role_eq
    dsimp only at h
    rw [← Option.some.inj (congrArg Prod.snd h), completed]
    dsimp only
    cases role with
    | action => exact absurd rfl hrole
    | control =>
        rw [hrole']
        exact hflag _
    | dataProvider =>
        rw [hrole']
        exact hflag _

/-! ### Along the walk -/

/-- What the walk keeps: its visits so far are those of the controls and the providers, and each of
these is suppressed for a reason. -/
structure Explained (builder : Builder) (visits : List (Nat × Tree)) (stack : List (Nat × Role))
    (b : Build) : Prop where
  stack_lt : ∀ entry ∈ stack, entry.1 < b.tree.size
  older : ∀ i e, b.tree.entity? i = some e → ∀ p ∈ e.parent, p < i
  visited : visits.map Prod.fst = b.tree.shown
  /-- An entity was made when there were only the entities before it. -/
  size_eq : ∀ visit ∈ visits, visit.2.size = visit.1
  hidden : ∀ visit ∈ visits, b.tree.HiddenBy builder.evaluator visit.1 visit.2

namespace Explained

variable {builder : Builder} {visits : List (Nat × Tree)} {stack : List (Nat × Role)} {b : Build}

/-- A change of the build that leaves the marks of all entities alone. -/
lemma congr (h : builder.Explained visits stack b) {b' : Build} {stack' : List (Nat × Role)}
    (hstack : ∀ entry ∈ stack', entry ∈ stack) (hsize : b'.tree.size = b.tree.size)
    (hmarks : ∀ i, b'.tree.marks i = b.tree.marks i) : builder.Explained visits stack' b' where
  stack_lt entry hentry := by
    rw [hsize]
    exact h.stack_lt entry (hstack entry hentry)
  older i e he p hp := by
    have hi := hmarks i
    rw [Tree.marks, Tree.marks, he, Option.map_some, eq_comm, Option.map_eq_some_iff] at hi
    obtain ⟨e', he', hmark⟩ := hi
    simp only [Prod.mk.injEq] at hmark
    exact h.older i e' he' p (hmark.2.1 ▸ hp)
  visited := by rw [h.visited, Tree.shown_congr hsize hmarks]
  size_eq := h.size_eq
  hidden visit hvisit := (h.hidden visit hvisit).congr hmarks

lemma ownerOf_lt (h : builder.Explained visits stack b) : ∀ p ∈ ownerOf stack, p < b.tree.size := by
  intro p hp
  cases stack with
  | nil => simp [ownerOf] at hp
  | cons top below =>
      simp only [ownerOf, List.head?_cons, Option.map_some, Option.mem_some_iff] at hp
      exact hp ▸ h.stack_lt top List.mem_cons_self

/-- An entity enters: an action without a visit, a control or a provider with its own. -/
lemma insert (h : builder.Explained visits stack b) {b' : Build} {role : Role} {id : String}
    {own : Attributes} {faults : List BuildFault} {e : Entity}
    (hd : builder.describe b.tree role (ownerOf stack) id own = (faults, some e))
    (ht : b'.tree = b.tree.insert e) :
    builder.Explained (visits ++ if role = .action then [] else [(b.tree.size, b.tree)])
      ((b.tree.size, role) :: stack) b' := by
  have hnew := describe_isNew hd
  have hvisits : ∀ visit ∈ visits ++ if role = .action then [] else [(b.tree.size, b.tree)],
      visit ∈ visits ∨ role ≠ .action ∧ visit = (b.tree.size, b.tree) := by
    intro visit hvisit
    refine (List.mem_append.mp hvisit).imp_right fun hlast => ?_
    split_ifs at hlast with hrole
    · simp at hlast
    · exact ⟨hrole, List.mem_singleton.mp hlast⟩
  refine ⟨fun entry hentry => ?_, fun i x hx p hp => ?_, ?_, fun visit hvisit => ?_,
    fun visit hvisit => ?_⟩
  · rw [ht, Tree.size_insert]
    obtain rfl | hentry := List.mem_cons.mp hentry
    · exact Nat.lt_succ_self _
    · exact (h.stack_lt entry hentry).trans (Nat.lt_succ_self _)
  · rw [ht, Tree.entity?_insert] at hx
    split_ifs at hx with hi
    · cases hx
      rw [hnew.parent_eq] at hp
      rw [hi]
      exact h.ownerOf_lt p hp
    · exact h.older i x hx p hp
  · rw [ht, Tree.shown_insert, hnew.role_eq, List.map_append, h.visited]
    split_ifs <;> rfl
  · obtain hold | ⟨-, rfl⟩ := hvisits visit hvisit
    · exact h.size_eq visit hold
    · rfl
  · rw [ht]
    obtain hold | ⟨hrole, rfl⟩ := hvisits visit hvisit
    · exact (h.hidden visit hold).insert (h.older visit.1) e
    · -- The new entity: its owner, if it has one, is an entity before it.
      refine ⟨e, b.tree.entity?_insert_size e, (suppressed_iff hd hrole).trans ?_⟩
      rw [hnew.parent_eq]
      refine or_congr_right (exists_congr fun p => and_congr_right fun hp => ?_)
      rw [b.tree.isSuppressed_insert e (h.ownerOf_lt p hp)]

/-- A declaration enters, with its visit if it is no action. -/
lemma enter (h : builder.Explained visits stack b) (role : Role) (path : String)
    (own : Attributes) :
    Leaves (builder.Explained (visits ++ if role = .action then []
        else builder.entering role (ownerOf stack) path own b)) stack role
      (builder.enter role (ownerOf stack) path own b) := by
  have hcases := builder.enter_describes role (ownerOf stack) path own b
  rw [entering]
  cases hent : builder.enter role (ownerOf stack) path own b with
  | mk b' index =>
      rw [hent] at hcases
      obtain ⟨ht, hi⟩ | ⟨id, faults, e, hd, ht, hi⟩ := hcases
      · cases hi
        have hb : builder.Explained visits stack b' :=
          h.congr (fun _ hentry => hentry) (by rw [ht]) fun i => by rw [ht]
        simpa [Leaves] using hb
      · cases hi
        exact h.insert hd ht

/-- Listing and binding leave all marks alone. -/
lemma modified (h : builder.Explained visits stack b) {stack' : List (Nat × Role)}
    (hstack : ∀ entry ∈ stack', entry ∈ stack) {b' : Build} {index : Nat} {f : Entity → Entity}
    (ht : b'.tree.entities = (b.tree.modify index f).entities)
    (hf : ∀ e, (f e).role = e.role ∧ (f e).parent = e.parent ∧ (f e).condition = e.condition
      ∧ (f e).suppressed = e.suppressed) : builder.Explained visits stack' b' := by
  refine h.congr hstack ?_ fun i => ?_
  · rw [Tree.size, ht, ← Tree.size, Tree.size_modify]
  · rw [Tree.marks, Tree.entity?, ht, ← Tree.entity?, ← Tree.marks, b.tree.marks_modify index hf i]

/-- The walk through the actions below an entity adds no visits. -/
lemma actionSteps (builder : Builder) (visits : List (Nat × Tree)) :
    builder.TracksActions (builder.Explained visits) where
  report stack b path faults h := h.congr (fun _ hentry => hentry) rfl fun _ => rfl
  enter stack b path own _ h := by simpa using h.enter .action path own
  bind stack b owner role action events _ _ h := by
    have hb : builder.Explained visits ((action, .action) :: (owner, role) :: stack)
        (b.bind owner action events) :=
      Build.bind_induction (fun b event _ hb => hb.modified (fun _ hentry => hentry) rfl fun _ =>
        ⟨rfl, rfl, rfl, rfl⟩) h
    exact hb.congr (fun _ hentry => List.mem_cons_of_mem _ hentry) rfl fun _ => rfl

/-! ### The data providers of a control -/

/-- The walk through a data provider below its owner. -/
theorem provider (owner : Nat) (path : String) (d : Declaration)
    (h : builder.Explained visits ((owner, .control) :: stack) b) :
    builder.Explained (visits ++ builder.providerVisits owner path d b) ((owner, .control) :: stack)
      (linked (fun b provider => b.linkProvider owner provider)
        (builder.provider owner path d b)) := by
  have hlink : ∀ {visits b' open'} provider, builder.Explained visits open' b' →
      (∀ entry ∈ (owner, Role.control) :: stack, entry ∈ open') →
      builder.Explained visits ((owner, .control) :: stack) (b'.linkProvider owner provider) :=
    fun provider hb hsub => hb.modified hsub rfl fun _ => ⟨rfl, rfl, rfl, rfl⟩
  cases d with
  | other =>
      rw [providerVisits, List.append_nil]
      exact (actionSteps builder visits).report _ b path _ h
  | object own providers actions controls handlers =>
      rw [providerVisits, Builder.provider]
      cases referred? b.tree own with
      | some existing =>
          rw [List.append_nil]
          exact hlink existing ((actionSteps builder visits).report _ b path (referenceFaults own) h)
            fun _ hentry => hentry
      | none =>
          have he := h.enter .dataProvider path own
          rw [if_neg (by decide), ownerOf, List.head?_cons, Option.map_some] at he
          dsimp only
          generalize builder.entering .dataProvider (some owner) path own b = new at he ⊢
          cases hent : builder.enter .dataProvider (some owner) path own b with
          | mk b' index =>
              rw [hent] at he
              cases index with
              | none => exact he
              | some index =>
                  have hsteps := actionSteps builder (visits ++ new)
                  have h1 := hsteps.handlerMap index .dataProvider _ path handlers b' he
                  have h2 := hsteps.actionListing index .dataProvider _ path actions _ h1
                  exact hlink index h2 fun _ hentry => List.mem_cons_of_mem _ hentry

/-- The walk through listed data providers. -/
theorem providers (owner : Nat) (path : String) (position : Nat) (ds : List Declaration)
    (h : builder.Explained visits ((owner, .control) :: stack) b) :
    builder.Explained (visits ++ builder.providersVisits owner path position ds b)
      ((owner, .control) :: stack) (builder.providers owner path position ds b) := by
  induction ds generalizing visits position b with
  | nil => simpa [providersVisits, Builder.providers] using h
  | cons d rest ih =>
      rw [providersVisits, ← List.append_assoc]
      exact ih (position + 1) (h.provider owner (itemPath path position) d)

/-- The walk through the data provider list of a control. -/
theorem providerListing (owner : Nat) (path : String) (listing : Listing)
    (h : builder.Explained visits ((owner, .control) :: stack) b) :
    builder.Explained (visits ++ builder.providerListingVisits owner path listing b)
      ((owner, .control) :: stack) (builder.providerListing owner path listing b) := by
  cases listing with
  | absent => simpa [providerListingVisits, Builder.providerListing] using h
  | malformed =>
      rw [providerListingVisits, List.append_nil]
      exact (actionSteps builder visits).report _ b path _ h
  | items declarations => exact h.providers owner (path ++ "/dataProviders") 0 declarations

/-! ### The controls -/

mutual

/-- The walk through a control. -/
theorem control {visits : List (Nat × Tree)} {stack : List (Nat × Role)} {b : Build}
    (path : String) (d : Declaration) (h : builder.Explained visits stack b) :
    Leaves (builder.Explained (visits ++ builder.controlVisits (ownerOf stack) path d b)) stack
      .control (builder.control (ownerOf stack) path d b) := by
  cases d with
  | other =>
      rw [controlVisits, List.append_nil]
      exact (actionSteps builder visits).report _ b path _ h
  | object own providers actions controls handlers =>
      have he := h.enter .control path own
      rw [if_neg (by decide)] at he
      rw [controlVisits, Builder.control]
      generalize hnew : builder.entering .control (ownerOf stack) path own b = new at he ⊢
      cases hent : builder.enter .control (ownerOf stack) path own b with
      | mk b' index =>
          rw [hent] at he
          cases index with
          | none =>
              rw [entering, hent] at hnew
              simpa [← hnew] using he
          | some index =>
              have h1 := he.providerListing index path providers
              have hsteps := actionSteps builder
                (visits ++ new ++ builder.providerListingVisits index path providers b')
              have h2 := hsteps.handlerMap index .control stack path handlers _ h1
              have h3 := hsteps.actionListing index .control stack path actions _ h2
              have h4 := controlListing index path controls h3
              simpa only [Leaves, List.append_assoc] using h4

/-- The walk through the child list of a control. -/
theorem controlListing {visits : List (Nat × Tree)} {stack : List (Nat × Role)} {b : Build}
    (owner : Nat) (path : String) (listing : Listing)
    (h : builder.Explained visits ((owner, .control) :: stack) b) :
    builder.Explained (visits ++ builder.controlListingVisits owner path listing b)
      ((owner, .control) :: stack) (builder.controlListing owner path listing b) := by
  cases listing with
  | absent => simpa [controlListingVisits, Builder.controlListing] using h
  | malformed =>
      rw [controlListingVisits, List.append_nil]
      exact (actionSteps builder visits).report _ b path _ h
  | items declarations => exact controls owner (path ++ "/controls") 0 declarations h

/-- The walk through listed controls. -/
theorem controls {visits : List (Nat × Tree)} {stack : List (Nat × Role)} {b : Build}
    (owner : Nat) (path : String) (position : Nat) (ds : List Declaration)
    (h : builder.Explained visits ((owner, .control) :: stack) b) :
    builder.Explained (visits ++ builder.controlsVisits owner path position ds b)
      ((owner, .control) :: stack) (builder.controls owner path position ds b) := by
  cases ds with
  | nil => simpa [controlsVisits, Builder.controls] using h
  | cons d rest =>
      rw [controlsVisits, ← List.append_assoc]
      have hc := control (itemPath path position) d h
      have h1 := hc.closed (fun b child => b.linkControl owner child) fun b child hb =>
        show builder.Explained _ ((owner, .control) :: stack) _ from
          hb.modified (fun _ hentry => List.mem_cons_of_mem _ hentry) rfl fun _ =>
            ⟨rfl, rfl, rfl, rfl⟩
      exact controls owner path (position + 1) rest h1

end

end Explained

/-- **Why an entity is hidden**: the walk visits the controls and the providers of a document in the
order of its tree, each when there are only the entities before it, and suppresses those whose gate
is not open then and those whose owner is suppressed. -/
theorem build_explained (builder : Builder) (document : Document) :
    builder.Explained (builder.visits document) [] (builder.build document) := by
  have hstart : builder.Explained [] []
      { tree := { app := document.app, session := document.session } } :=
    ⟨by simp, fun i e he => by simp [Tree.entity?] at he, rfl, by simp, by simp⟩
  have hc := hstart.control "view" (Declaration.ofJson (.object document.rootNode))
  rw [List.nil_append] at hc
  change Leaves (builder.Explained (builder.visits document)) [] .control
    (builder.control none "view" _ _) at hc
  rw [Builder.build]
  dsimp only
  split
  · rename_i b root hb
    rw [hb] at hc
    exact hc.congr (by simp) rfl fun _ => rfl
  · rename_i b hb
    rw [hb] at hc
    exact hc

end Builder

/-- The visits of all controls and data providers of a document that is built. -/
def Document.visits (document : Document) (catalog : Catalog) (evaluator : Evaluator)
    (dispatch : DispatchConfig) : List (Nat × Tree) :=
  { catalog, evaluator, styles := document.styles,
    defaultDelay := 1000 * dispatch.defaultDelay : Builder }.visits document

theorem Document.build_explained (document : Document) (catalog : Catalog) (evaluator : Evaluator)
    (dispatch : DispatchConfig) :
    Builder.Explained
      { catalog, evaluator, styles := document.styles, defaultDelay := 1000 * dispatch.defaultDelay }
      (document.visits catalog evaluator dispatch) []
      (document.build catalog evaluator dispatch) :=
  Builder.build_explained _ document

end Componentry
