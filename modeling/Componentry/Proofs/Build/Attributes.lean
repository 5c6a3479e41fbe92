import Mathlib.Tactic
import Componentry.Proofs.Build.Bindings
/-!
# Where attributes come from

A declaration takes its attributes from several sources, the weakest first: the bundles of the styles
that it names, the members that stand for attributes, and the object under `attributes`
(`Declared.sources`).  `Declared.Source.read` says what one of them gives, or what is wrong with it.
A source that cannot be read gives a fault and nothing else, and the others are merged as if it were
not there: the last source that knows a key decides on its value, the first one on its place
(`Declared.collected_eq`, `Declared.faults_eq`).

`Builder.Reads` are the declarations that the walk through a document reads, each with the build in
which it is read.  `Document.build_attributes` says what becomes of the attributes that they collect:
the factory of the type sees them, the entity starts with them, a control after it has configured
them, and the faults of the sources are reported at the path of the declaration, once each.
-/

namespace Componentry

namespace Declared

/-! ### Sources -/

/-- Where a declaration takes attributes from. -/
inductive Source where
  /-- The bundle of a style. -/
  | style (name : String)
  /-- A `style` that is no list of names. -/
  | noStyle
  /-- A member of the declaration itself. -/
  | member (key : String)
  /-- The object under `attributes`. -/
  | object
  deriving DecidableEq, Repr

/-- What a source gives, or what is wrong with it. -/
def Source.read (styles : Keyed String Attributes) (own : Attributes) :
    Source → Except BuildFault Attributes
  | .style name =>
    match styles.lookup name with
    | some bundle => .ok bundle
    | none => .error (.malformed ("unknown style '" ++ name ++ "'"))
  | .noStyle => .error (.malformed "'style' must be a comma separated list of style names")
  | .member key => .ok (entries own [key])
  | .object =>
    match own.lookup "attributes" with
    | none => .ok []
    | some (.object members) => .ok members
    | some _ => .error (.malformed "'attributes' must be an object")

/-- The styles that a declaration names, in the order of the list. -/
def namedStyles (own : Attributes) : List Source :=
  match own.lookup "style" with
  | none => []
  | some (.string names) => (Text.commaList names).map .style
  | some _ => [.noStyle]

/-- The sources of the attributes of a declaration, the weakest first. -/
def sources (extraKeys : List String) (own : Attributes) : List Source :=
  namedStyles own ++ (shorthandKeys ++ extraKeys).map .member ++ [.object]

/-- What a source says about a key; of several entries under one key the last counts. -/
def valueOf (key : String) : Except BuildFault Attributes → Option Json
  | .ok given => (Keyed.ofList given).lookup key
  | .error _ => none

/-- The keys that a source knows, in order. -/
def keysOf : Except BuildFault Attributes → List String
  | .ok given => Keyed.keys given
  | .error _ => []

/-- What is wrong with a source. -/
def faultOf : Except BuildFault Attributes → Option BuildFault
  | .ok _ => none
  | .error fault => some fault

/-- The entries that a source gives; one that cannot be read gives none. -/
def entriesOf : Except BuildFault Attributes → Attributes
  | .ok given => given
  | .error _ => []

variable {styles : Keyed String Attributes} {extraKeys : List String} {own : Attributes}

lemma entries_cons (own : Attributes) (key : String) (keys : List String) :
    entries own (key :: keys) = entries own [key] ++ entries own keys := by
  simp only [entries, List.filterMap_cons, List.filterMap_nil]
  cases own.lookup key <;> rfl

/-- What the members give that stand for attributes. -/
lemma flatMap_member (styles : Keyed String Attributes) (own : Attributes) (keys : List String) :
    (keys.map Source.member).flatMap (fun source => entriesOf (source.read styles own))
      = entries own keys := by
  induction keys with
  | nil => rfl
  | cons key rest ih =>
      rw [List.map_cons, List.flatMap_cons, ih, entries_cons]
      rfl

/-- What the styles give that are there. -/
lemma flatMap_style (styles : Keyed String Attributes) (own : Attributes) (names : List String) :
    (names.map Source.style).flatMap (fun source => entriesOf (source.read styles own))
      = (names.filterMap styles.lookup).flatten := by
  induction names with
  | nil => rfl
  | cons name rest ih =>
      rw [List.map_cons, List.flatMap_cons, ih, List.filterMap_cons, Source.read]
      cases styles.lookup name <;> rfl

/-- What is wrong with the styles that are not there. -/
lemma filterMap_style (styles : Keyed String Attributes) (own : Attributes) (names : List String) :
    (names.map Source.style).filterMap (fun source => faultOf (source.read styles own))
      = (names.filter fun name => !styles.contains name).map fun name =>
        .malformed ("unknown style '" ++ name ++ "'") := by
  induction names with
  | nil => rfl
  | cons name rest ih =>
      rw [List.map_cons, List.filterMap_cons, ih, List.filter_cons, Source.read, Keyed.contains]
      cases styles.lookup name <;> rfl

lemma flatMap_namedStyles (styles : Keyed String Attributes) (own : Attributes) :
    (namedStyles own).flatMap (fun source => entriesOf (source.read styles own))
      = ((styleNames own).filterMap styles.lookup).flatten := by
  rw [namedStyles, styleNames]
  cases own.lookup "style" with
  | none => rfl
  | some v =>
      cases v with
      | string names => exact flatMap_style styles own (Text.commaList names)
      | null | bool _ | number _ | array _ | object _ => rfl

lemma filterMap_member (styles : Keyed String Attributes) (own : Attributes) (keys : List String) :
    (keys.map Source.member).filterMap (fun source => faultOf (source.read styles own)) = [] := by
  rw [List.filterMap_map, List.filterMap_eq_nil_iff]
  exact fun _ _ => rfl

/-- **All sources are merged** into the attributes of a declaration. -/
lemma collected_eq (styles : Keyed String Attributes) (extraKeys : List String) (own : Attributes) :
    collected styles extraKeys own = Keyed.ofList
      ((sources extraKeys own).map fun source => entriesOf (source.read styles own)).flatten := by
  have hobject : ((own.lookup "attributes").bind Json.object?).getD []
      = entriesOf (Source.object.read styles own) := by
    rw [Source.read]
    cases own.lookup "attributes" with
    | none => rfl
    | some v => cases v <;> rfl
  rw [collected, Keyed.foldl_extend, layers, sources, ← List.flatMap_def, List.flatMap_append,
    List.flatMap_append, flatMap_namedStyles, flatMap_member, List.flatten_append, hobject,
    List.append_assoc]
  rfl

/-- **Every source that cannot be read is a fault**, and nothing else is. -/
lemma faults_eq (styles : Keyed String Attributes) (extraKeys : List String) (own : Attributes) :
    faults styles own
      = (sources extraKeys own).filterMap fun source => faultOf (source.read styles own) := by
  rw [sources, List.filterMap_append, List.filterMap_append, filterMap_member, List.append_nil,
    faults]
  congr 1
  · rw [namedStyles, styleNames]
    cases own.lookup "style" with
    | none => rfl
    | some v =>
        cases v with
        | string names => exact (filterMap_style styles own (Text.commaList names)).symm
        | null | bool _ | number _ | array _ | object _ => rfl
  · rw [List.filterMap_cons, Source.read]
    cases own.lookup "attributes" with
    | none => rfl
    | some v => cases v <;> rfl

/-- What can be wrong with a source. -/
def OfSource (fault : BuildFault) : Prop :=
  ∃ styles own, ∃ source : Source, source.read styles own = .error fault

/-- The faults of sources are malformed members with texts of their own. -/
lemma not_ofSource_malformed {reason : String} (hstyle : reason.toList.head? ≠ some 'u')
    (hlist : reason ≠ "'style' must be a comma separated list of style names")
    (hobject : reason ≠ "'attributes' must be an object") : ¬ OfSource (.malformed reason) := by
  rintro ⟨styles, own, source, h⟩
  cases source with
  | style name =>
      rw [Source.read] at h
      split at h
      · cases h
      · cases h
        exact hstyle (by simp [String.toList_append])
  | noStyle =>
      cases h
      exact hlist rfl
  | member key => cases h
  | object =>
      rw [Source.read] at h
      split at h
      · cases h
      · cases h
      · cases h
        exact hobject rfl

lemma not_ofSource {fault : BuildFault} (h : ∀ reason, fault ≠ .malformed reason) :
    ¬ OfSource fault := by
  rintro ⟨styles, own, source, hread⟩
  cases source with
  | style name =>
      rw [Source.read] at hread
      split at hread <;> cases hread
      exact h _ rfl
  | noStyle =>
      cases hread
      exact h _ rfl
  | member key => cases hread
  | object =>
      rw [Source.read] at hread
      split at hread <;> cases hread
      exact h _ rfl

end Declared

/-- The attributes that a behaviour makes of the collected ones: a control configures them. -/
def Behaviour.configured (attributes : Attributes) : Behaviour → Attributes
  | .control c => c.configure attributes
  | _ => attributes

namespace Builder

open Declared

/-! ### One declaration -/

/-- An entity starts with the attributes that its declaration collects, and the factory of its type
has seen these. -/
structure Starts (builder : Builder) (role : Role) (own : Attributes) (e : Entity) : Prop where
  attributes_eq : e.attributes
    = e.behaviour.configured (collected builder.styles (extraKeys role) own)
  made : ∀ typeName ∈ e.typeName, builder.behaviour role
      { id := e.id, typeName, attributes := collected builder.styles (extraKeys role) own }
    = .ok (e.behaviour, e.attributes)

variable {builder : Builder} {role : Role} {id : String} {own : Attributes} {e : Entity}
  {faults : List BuildFault}

lemma behaviour_configured {blueprint : Blueprint} {behaviour : Behaviour}
    {attributes : Attributes} (h : builder.behaviour role blueprint = .ok (behaviour, attributes)) :
    attributes = behaviour.configured blueprint.attributes := by
  cases role with
  | control | dataProvider | action =>
      simp only [Builder.behaviour, bind, Except.bind, pure, Except.pure] at h
      split at h
      · cases h
      · cases h
        rfl

/-- A type that is not resolved is unknown. -/
lemma ofRegistry_ne_malformed {α : Type} {catalog : Catalog} {category : Category}
    {pick : Factory → Option α} {typeName : String} {error : RegistryError}
    (h : catalog.resolveAs category pick typeName = .error error) (reason : String) :
    BuildFault.ofRegistry error ≠ .malformed reason := by
  rw [Catalog.resolveAs, Registry.resolve, Registry.className] at h
  split at h
  · rename_i hresolve
    cases h
    split at hresolve
    · rename_i hname
      cases hresolve
      split at hname <;> cases hname
      simp [BuildFault.ofRegistry]
    · split at hresolve <;> cases hresolve
      simp [BuildFault.ofRegistry]
  · split at h <;> cases h
    simp [BuildFault.ofRegistry]

/-- Where a behaviour cannot be made, its type or its factory is at fault, and no source. -/
lemma not_ofSource_of_behaviour {blueprint : Blueprint} {fault : BuildFault}
    (h : builder.behaviour role blueprint = .error fault) : ¬ OfSource fault := by
  have hmade : ∀ {α : Type} {category : Category} {pick : Factory → Option (Maker α)},
      made (builder.catalog.resolveAs category pick blueprint.typeName) blueprint = .error fault →
      ¬ OfSource fault := by
    intro α category pick hfault
    unfold made at hfault
    split at hfault
    · rename_i error herror
      cases hfault
      exact not_ofSource (ofRegistry_ne_malformed herror)
    · split at hfault <;> cases hfault
      exact not_ofSource (by simp)
  cases role with
  | control | dataProvider | action =>
      simp only [Builder.behaviour, bind, Except.bind, pure, Except.pure] at h
      split at h
      · rename_i hfault
        cases h
        exact hmade hfault
      · cases h

lemma typed_starts (h : builder.typed role id own = (faults, some e)) :
    builder.Starts role own e := by
  rw [typed] at h
  split at h
  · cases h
  · dsimp only at h
    split at h
    · cases h
      exact ⟨rfl, by simp⟩
    · split at h
      · cases h
      · rename_i hb
        cases h
        refine ⟨behaviour_configured hb, fun typeName htype => ?_⟩
        cases htype
        exact hb

lemma describe_starts {t : Tree} {owner : Option Nat}
    (h : builder.describe t role owner id own = (faults, some e)) : builder.Starts role own e := by
  obtain ⟨faults', e', htyped, rfl⟩ := describe_eq h
  have hstarts := typed_starts htyped
  rw [completed]
  dsimp only
  split <;> exact ⟨hstarts.attributes_eq, hstarts.made⟩

/-! ### What is reported -/

/-- Claiming an id reports no fault of a source. -/
lemma claim_reported (b : Build) (role : Role) (path : String) (own : Attributes) :
    ∃ before : List BuildFault,
      (b.claim role path own).1.problems = b.problems ++ before.map (BuildProblem.mk path)
        ∧ ∀ fault ∈ before, ¬ OfSource fault := by
  rw [Build.claim]
  split
  · exact ⟨[], by simp [Build.generate]⟩
  · dsimp only
    split_ifs
    · exact ⟨[], by simp [Build.generate]⟩
    · exact ⟨[.duplicateId _], rfl, by simpa using not_ofSource (by simp)⟩
    · exact ⟨[], by simp⟩
  · refine ⟨[.malformed "'id' must be a string"], rfl, ?_⟩
    simpa using not_ofSource_malformed (by decide) (by decide) (by decide)

/-! What is added to an entity is wrong in ways of its own. -/

lemma visible_reported {t : Tree} (condition : Option Json) :
    ∀ fault ∈ (builder.visible t condition).1, ¬ OfSource fault := by
  intro fault hfault
  rw [visible] at hfault
  split at hfault
  · cases hfault
  · rw [List.mem_singleton.mp hfault]
    exact not_ofSource (by simp)

lemma declaredTarget_reported (own : Attributes) :
    ∀ fault ∈ (declaredTarget own).1, ¬ OfSource fault := by
  intro fault hfault
  rw [declaredTarget] at hfault
  split at hfault
  · cases hfault
  · cases hfault
  · rw [List.mem_singleton.mp hfault]
    exact not_ofSource_malformed (by decide) (by decide) (by decide)

lemma durationAt_reported (own : Attributes) {key : String}
    (hkey : key ∈ ["delay", "repeatDelay"]) :
    ∀ fault ∈ (durationAt own key).1, ¬ OfSource fault := by
  intro fault hfault
  rw [durationAt] at hfault
  split at hfault
  · cases hfault
  · split at hfault
    · cases hfault
    · rw [List.mem_singleton.mp hfault]
      obtain rfl | rfl : key = "delay" ∨ key = "repeatDelay" := by simpa using hkey
      · exact not_ofSource_malformed (by decide) (by decide) (by decide)
      · exact not_ofSource_malformed (by decide) (by decide) (by decide)

lemma completed_reported {t : Tree} {owner : Option Nat} :
    ∀ fault ∈ (builder.completed t owner own e).1, ¬ OfSource fault := by
  rw [completed]
  dsimp only
  split
  · exact visible_reported _
  · exact visible_reported _
  · intro fault hfault
    dsimp only at hfault
    obtain (hfault | hfault) | hfault := (List.mem_append.mp hfault).imp_left List.mem_append.mp
    · exact declaredTarget_reported own fault hfault
    · exact durationAt_reported own (by simp) fault hfault
    · exact durationAt_reported own (by simp) fault hfault

/-- A declaration with a type, or without one, reports the faults of its sources before anything
that is wrong with the entity. -/
lemma describe_reported (builder : Builder) (t : Tree) (role : Role) (owner : Option Nat)
    (id : String) {typeName : Option String} (htype : declaredType own = .ok typeName) :
    ∃ after, (builder.describe t role owner id own).1 = Declared.faults builder.styles own ++ after
      ∧ ∀ fault ∈ after, ¬ OfSource fault := by
  have htyped : ∃ after,
      (builder.typed role id own).1 = Declared.faults builder.styles own ++ after
        ∧ ∀ fault ∈ after, ¬ OfSource fault := by
    rw [typed, htype]
    dsimp only
    split
    · exact ⟨[], by simp⟩
    · split
      · rename_i fault hfault
        exact ⟨[fault], rfl, by simpa using not_ofSource_of_behaviour hfault⟩
      · exact ⟨[], by simp⟩
  obtain ⟨after, hafter, hnone⟩ := htyped
  rw [describe]
  split
  · rename_i faults heq
    rw [heq] at hafter
    exact ⟨after, hafter, hnone⟩
  · rename_i faults entity heq
    rw [heq] at hafter
    refine ⟨after ++ (builder.completed t owner own entity).1, ?_, fun fault hfault => ?_⟩
    · rw [← List.append_assoc, ← hafter]
    · obtain hfault | hfault := List.mem_append.mp hfault
      · exact hnone fault hfault
      · exact completed_reported fault hfault

/-- **The faults of the sources are reported once each**, at the path of the declaration. -/
lemma enter_reports (builder : Builder) (role : Role) (owner : Option Nat) (path : String)
    (b : Build) {typeName : Option String} (htype : declaredType own = .ok typeName) :
    ∃ before after : List BuildFault, (builder.enter role owner path own b).1.problems
        = b.problems
          ++ (before ++ Declared.faults builder.styles own ++ after).map (BuildProblem.mk path)
      ∧ ∀ fault ∈ before ++ after, ¬ OfSource fault := by
  obtain ⟨before, hbefore, hclaim⟩ := claim_reported b role path own
  obtain ⟨after, hafter, hdescribe⟩ := builder.describe_reported (b.claim role path own).1.tree
    role owner (b.claim role path own).2 htype
  refine ⟨before, after, ?_, fun fault hfault => ?_⟩
  · have hproblems : (builder.enter role owner path own b).1.problems
        = (b.claim role path own).1.problems
          ++ ((builder.describe (b.claim role path own).1.tree role owner
            (b.claim role path own).2 own).1).map (BuildProblem.mk path) := by
      rw [enter]
      dsimp only
      split
      · rename_i heq
        rw [heq]
        rfl
      · rename_i heq
        rw [heq]
        rfl
    rw [hproblems, hbefore, hafter]
    simp only [List.map_append, List.append_assoc]
  · exact (List.mem_append.mp hfault).elim (hclaim fault) (hdescribe fault)

/-! ### The reports of the walk -/

lemma settle_problems {owner : Nat} {b : Build} (ho : owner < b.tree.size) (part : Part) :
    b.problems <+: (builder.settle owner b part).problems := by
  cases part with
  | refused path reason lost => exact List.prefix_append _ _
  | element slot path d =>
      obtain ⟨m, hadds⟩ | hrefers | ⟨-, hfails⟩ := builder.element_cases ho slot path d
      · exact hadds.problems
      · obtain ⟨faults, hfaults⟩ := hrefers.reported
        exact ⟨_, hfaults.symm⟩
      · obtain ⟨faults, -, hfaults⟩ := hfails.reported
        exact ⟨_, hfaults.symm⟩

lemma fill_problems {owner : Nat} {b : Build} (ho : owner < b.tree.size) (parts : List Part) :
    b.problems <+: (builder.fill owner parts b).problems := by
  induction parts generalizing b with
  | nil => exact List.prefix_rfl
  | cons part rest ih =>
      exact (settle_problems ho part).trans (ih (ho.trans_le (builder.settle_keeps ho part).1))

variable {document : Document}

/-- What has been reported when some parts of an entity are settled stays reported. -/
lemma Makes.problems {m : Made} (h : builder.Makes document m) {before after : List Part}
    (hparts : m.parts = before ++ after) :
    (builder.fill m.index before m.entered).problems <+: (builder.build document).problems := by
  have hfilled : ∀ m, builder.Makes document m → ∀ before after, m.parts = before ++ after →
      (builder.fill m.index before m.entered).problems
        <+: (builder.fill m.index m.parts m.entered).problems := by
    intro m hm before after hparts
    rw [hparts, fill_append]
    exact fill_problems (hm.index_lt.trans_le (builder.fill_keeps hm.index_lt before).1) after
  induction h generalizing before after with
  | root made =>
      rw [build_of_root? made]
      exact hfilled _ (.root made) before after hparts
  | @nested above m before' after' slot path d habove hsplit made ih =>
      refine (hfilled m (.nested habove hsplit made) before after hparts).trans ?_
      have hinside := ih (hsplit.trans (List.append_cons before' _ after'))
      have ho := habove.index_lt.trans_le (builder.fill_keeps habove.index_lt before').1
      rw [fill_append, fill_cons, fill_nil] at hinside
      obtain ⟨m', hadds⟩ | hrefers | ⟨hnone, -⟩ := builder.element_cases ho slot path d
      · cases hadds.made.symm.trans made
        rwa [hadds.filled, Build.attach_problems] at hinside
      · cases hrefers.made.symm.trans made
      · cases hnone.symm.trans made

/-- An entity of a document is as it has entered the tree, but for its links. -/
lemma Makes.bare_eq {m : Made} (h : builder.Makes document m) :
    ((builder.build document).tree.entity? m.index).map Entity.bare
      = (m.entered.tree.entity? m.index).map Entity.bare := by
  rw [h.entity?_eq m.index le_rfl h.index_lt_finish]
  cases h with
  | root made => exact (beneath_fill made).bare_eq m.index (Makes.root made).index_lt
  | nested above parts made =>
      exact (beneath_fill (make?_of_element? made)).bare_eq m.index
        (Makes.nested above parts made).index_lt

/-! ### The declarations that are read -/

/-- A declaration that is read: an object in a role, below an owner and at a path, and the build in
which it is read. -/
structure Reading where
  role : Role
  owner : Option Nat
  path : String
  own : Attributes
  build : Build

/-- The build and the index that a reading leads to. -/
def Reading.entered (r : Reading) (builder : Builder) : Build × Option Nat :=
  builder.enter r.role r.owner r.path r.own r.build

/-- The declarations that the walk through a document reads: its root, and the elements of the
entities that it makes, as far as they are objects, have a trigger if they need one, and refer to no
other entity. -/
inductive Reads (builder : Builder) (document : Document) : Reading → Prop
  | root : builder.Reads document
      { role := .control, owner := none, path := "view", own := document.rootNode
        build := { tree := { app := document.app, session := document.session } } }
  | nested {owner : Made} {before after : List Part} {slot : Slot} {path : String}
      {own : Attributes} {providers actions controls : Listing} {handlers : Handlers}
      (above : builder.Makes document owner)
      (parts : owner.parts = before
        ++ .element slot path (.object own providers actions controls handlers) :: after)
      (triggered : ¬ slot.Untriggered (.object own providers actions controls handlers))
      (new : slot.referred? (builder.fill owner.index before owner.entered).tree
        (.object own providers actions controls handlers) = none) :
      builder.Reads document
        { role := slot.role, owner := some owner.index, path, own
          build := (builder.fill owner.index before owner.entered).report path
            (slot.triggers (.object own providers actions controls handlers)).1 }

/-- Linking reports nothing. -/
lemma linked_problems (owner : Nat) (slot : Slot) (events : List EventName)
    (result : Build × Option Nat) :
    (linked (fun b index => b.attach owner slot events index) result).problems
      = result.1.problems := by
  obtain ⟨b, index⟩ := result
  cases index with
  | none => rfl
  | some index => exact b.attach_problems owner slot events index

/-- What is reported when a declaration is filled was reported when it entered. -/
lemma filled_problems {path : String} {d : Declaration} {result : Build × Option Nat}
    (h : ∀ index ∈ result.2, index < result.1.tree.size) :
    result.1.problems <+: (builder.filled role path d result).1.problems := by
  obtain ⟨b, index⟩ := result
  cases index with
  | none => exact List.prefix_rfl
  | some index => exact fill_problems (h index rfl) _

lemma Reading.index_lt (r : Reading) (builder : Builder) :
    ∀ index ∈ (r.entered builder).2, index < (r.entered builder).1.tree.size := by
  intro index hindex
  obtain ⟨-, hnone⟩ | ⟨id, e, ht, hsome, -⟩ :=
    builder.enter_cases r.role r.owner r.path r.own r.build
  · rw [Reading.entered, hnone] at hindex
    cases hindex
  · rw [Reading.entered, hsome] at hindex
    cases hindex
    rw [Reading.entered, ht, Tree.size_insert]
    exact Nat.lt_succ_self _

/-- What is reported of a declaration that is read stays reported. -/
lemma Reads.problems {r : Reading} (h : builder.Reads document r) :
    (r.entered builder).1.problems <+: (builder.build document).problems := by
  have hlt := r.index_lt builder
  cases h with
  | root =>
      have hbuild : (builder.build document).problems
          = (builder.control none "view" (Declaration.ofJson (.object document.rootNode))
            { tree := { app := document.app, session := document.session } }).1.problems := by
        rw [build]
        dsimp only
        split <;> simp_all
      rw [hbuild, Declaration.ofJson_object, control_object]
      exact filled_problems hlt
  | @nested owner before after slot path own providers actions controls handlers above parts
      triggered new =>
      have hinside := above.problems (parts.trans (List.append_cons before _ after))
      rw [fill_append, fill_cons, fill_nil, settle, if_neg triggered, linked_problems,
        walk_object (by exact new)] at hinside
      exact (filled_problems hlt).trans hinside

lemma make?_object {owner : Option Nat} {path : String} {b : Build} {m : Made}
    {providers actions controls : Listing} {handlers : Handlers}
    (h : builder.make? role owner path (.object own providers actions controls handlers) b = some m) :
    builder.enter role owner path own b = (m.entered, some m.index) := by
  rw [make?] at h
  split at h
  · cases h
  · rename_i hent
    cases h
    exact hent

/-- Every entity is made of a declaration that is read. -/
lemma Makes.exists_reads {m : Made} (h : builder.Makes document m) :
    ∃ r, builder.Reads document r ∧ r.entered builder = (m.entered, some m.index)
      ∧ r.role = m.role ∧ r.build.tree.size = m.index := by
  cases h with
  | root made =>
      obtain ⟨⟨hindex, hrole, -⟩, -⟩ := make?_eq_some made
      rw [root?, Declaration.ofJson_object] at made
      exact ⟨_, .root, make?_object made, hrole.symm, hindex.symm⟩
  | @nested above m before after slot path d habove parts made =>
      have hmake := make?_of_element? made
      obtain ⟨⟨hindex, hrole, -⟩, -⟩ := make?_eq_some hmake
      cases d with
      | other => cases hmake
      | object own providers actions controls handlers =>
          rw [element?] at made
          split_ifs at made with hrefused
          obtain ⟨htriggered, hnew⟩ := not_or.mp hrefused
          rw [Option.not_isSome_iff_eq_none] at hnew
          exact ⟨_, .nested habove parts htriggered hnew, make?_object hmake, hrole.symm,
            hindex.symm⟩

/-- A declaration that is read and enters is made into an entity. -/
lemma Reads.exists_makes {r : Reading} (h : builder.Reads document r) {index : Nat}
    (hindex : (r.entered builder).2 = some index) :
    ∃ m, builder.Makes document m ∧ m.index = index ∧ m.entered = (r.entered builder).1 := by
  have hmake : ∀ {providers actions controls : Listing} {handlers : Handlers},
      ∃ m, builder.make? r.role r.owner r.path (.object r.own providers actions controls handlers)
        r.build = some m ∧ m.index = index ∧ m.entered = (r.entered builder).1 := by
    intro providers actions controls handlers
    rw [Reading.entered] at hindex
    rw [make?, Reading.entered]
    cases hent : builder.enter r.role r.owner r.path r.own r.build with
    | mk entered index' =>
        rw [hent] at hindex
        cases hindex
        exact ⟨_, rfl, rfl, rfl⟩
  cases h with
  | root =>
      obtain ⟨m, hm, heq⟩ := hmake
      refine ⟨m, .root ?_, heq⟩
      rw [root?, Declaration.ofJson_object]
      exact hm
  | @nested owner before after slot path own providers actions controls handlers above parts
      triggered new =>
      obtain ⟨m, hm, heq⟩ := hmake
      refine ⟨m, .nested above parts ?_, heq⟩
      rw [element?, if_neg (by simp [triggered, new])]
      exact hm

lemma Starts.congr {e' : Entity} (h : builder.Starts role own e) (heq : e'.bare = e.bare) :
    builder.Starts role own e' := by
  have hid : e'.id = e.id := show e'.bare.id = e.bare.id by rw [heq]
  have htype : e'.typeName = e.typeName := show e'.bare.typeName = e.bare.typeName by rw [heq]
  have hbehaviour : e'.behaviour = e.behaviour :=
    show e'.bare.behaviour = e.bare.behaviour by rw [heq]
  have hattributes : e'.attributes = e.attributes :=
    show e'.bare.attributes = e.bare.attributes by rw [heq]
  refine ⟨?_, ?_⟩
  · rw [hattributes, hbehaviour, h.attributes_eq]
  · rw [hid, htype, hbehaviour, hattributes]
    exact h.made

/-- An entity of a document starts with what its declaration collects. -/
lemma Reads.starts {r : Reading} (h : builder.Reads document r) :
    (r.entered builder).2 = none ∨ (r.entered builder).2 = some r.build.tree.size
      ∧ ∃ e, (builder.build document).tree.entity? r.build.tree.size = some e
        ∧ builder.Starts r.role r.own e := by
  obtain ⟨-, hnone⟩ | ⟨id, faults, e, hd, ht, hindex⟩ :=
    builder.enter_describes r.role r.owner r.path r.own r.build
  · exact .inl hnone
  · obtain ⟨m, hm, hmindex, hentered⟩ := h.exists_makes hindex
    have hbare := hm.bare_eq
    have hentity : m.entered.tree.entity? m.index = some e := by
      rw [hentered, hmindex, Reading.entered, ht, Tree.entity?_insert_size]
    rw [hentity, hmindex, Option.map_some, Option.map_eq_some_iff] at hbare
    obtain ⟨e', he', heq⟩ := hbare
    exact .inr ⟨hindex, e', he', (describe_starts hd).congr heq⟩

end Builder

/-! ### Documents -/

/-- **Which source an attribute comes from.**  The last source that knows a key decides on its value
and the first one on its place, and every source that cannot be read is one fault.  For every
declaration that the walk reads, these faults are reported at its path, once each and beside nothing
of the kind; and if it becomes an entity, this starts with the attributes that were collected. -/
theorem Document.build_attributes (document : Document) (catalog : Catalog) (evaluator : Evaluator)
    (dispatch : DispatchConfig) :
    let builder : Builder :=
      { catalog, evaluator, styles := document.styles
        defaultDelay := 1000 * dispatch.defaultDelay }
    let built := document.build catalog evaluator dispatch
    (∀ extraKeys own,
        let given := (Declared.sources extraKeys own).map (Declared.Source.read document.styles own)
        let attributes := Declared.collected document.styles extraKeys own
        (∀ key, attributes.lookup key = given.reverse.findSome? (Declared.valueOf key))
          ∧ attributes.keys = (given.flatMap Declared.keysOf).eraseDups
          ∧ Declared.faults document.styles own = given.filterMap Declared.faultOf)
      ∧ (∀ r, builder.Reads document r →
        (∀ typeName, Builder.declaredType r.own = .ok typeName → ∃ before after later,
          built.problems = r.build.problems
              ++ (before ++ Declared.faults document.styles r.own ++ after).map
                (BuildProblem.mk r.path) ++ later
            ∧ ∀ fault ∈ before ++ after, ¬ Declared.OfSource fault)
        ∧ ((r.entered builder).2 = none ∨ (r.entered builder).2 = some r.build.tree.size
          ∧ ∃ e, built.tree.entity? r.build.tree.size = some e
            ∧ builder.Starts r.role r.own e))
      ∧ ∀ index e, built.tree.entity? index = some e → ∃ r, builder.Reads document r
        ∧ r.role = e.role ∧ r.build.tree.size = index ∧ (r.entered builder).2 = some index := by
  intro builder built
  refine ⟨fun extraKeys own => ?_, fun r hr => ⟨fun typeName htype => ?_, hr.starts⟩,
    fun index e he => ?_⟩
  · intro given attributes
    have hmerged : attributes = Keyed.ofList (given.map Declared.entriesOf).flatten := by
      rw [List.map_map]
      exact Declared.collected_eq document.styles extraKeys own
    refine ⟨fun key => ?_, ?_, ?_⟩
    · rw [hmerged, Keyed.lookup_ofList_flatten, ← List.map_reverse, List.findSome?_map]
      refine congrArg (List.findSome? · given.reverse) (funext fun source => ?_)
      cases source <;> rfl
    · rw [hmerged, Keyed.keys_ofList, Keyed.keys, List.map_flatten, List.map_map, List.flatMap_def]
      refine congrArg (fun f => (given.map f).flatten.eraseDups) (funext fun source => ?_)
      cases source <;> rfl
    · rw [List.filterMap_map]
      exact Declared.faults_eq document.styles extraKeys own
  · obtain ⟨later, hlater⟩ := hr.problems
    obtain ⟨before, after, hreports, hothers⟩ :=
      builder.enter_reports r.role r.owner r.path r.build htype
    exact ⟨before, after, later, hlater.symm.trans (congrArg (· ++ later) hreports), hothers⟩
  · obtain ⟨m, hm, rfl⟩ := Builder.exists_makes he
    obtain ⟨r, hr, hentered, hrole, hsize⟩ := hm.exists_reads
    obtain ⟨e', he', hrole', -⟩ := hm.exists_bindings
    cases he.symm.trans he'
    exact ⟨r, hr, hrole.trans hrole'.symm, hsize, by rw [hentered]⟩

/-- A screen that names two styles and one that is not there. -/
def layered : Document where
  members := [
    ("style", .object [
      ("plain", .object [("title", .string "plain"), ("font", .string "serif")]),
      ("loud", .object [("font", .string "bold"), ("size", .number (.int 2))])]),
    ("view", .object [("id", .string "screen"), ("style", .string "plain, missing, loud"),
      ("value", .string "short"),
      ("attributes", .object [("title", .string "own"), ("value", .string "long")])])]

/-- The later sources win, the keys stay where they came first, and the unknown style is reported. -/
theorem Document.build_attributes_layered :
    let catalog : Catalog := ⟨.empty .strict⟩
    let builder : Builder :=
      { catalog, evaluator := .standard, styles := layered.styles, defaultDelay := 0 }
    let built := layered.build catalog .standard {}
    ∃ e r, built.tree.entity? 0 = some e ∧ builder.Reads layered r
      ∧ builder.Starts .control r.own e
      ∧ e.attributes = [("title", .string "own"), ("font", .string "bold"),
        ("size", .number (.int 2)), ("value", .string "long")]
      ∧ built.problems = [⟨"view", .malformed "unknown style 'missing'"⟩] := by
  intro catalog builder built
  have hattributes : (built.tree.entity? 0).map Entity.attributes
      = some [("title", .string "own"), ("font", .string "bold"), ("size", .number (.int 2)),
        ("value", .string "long")] := by decide +kernel
  obtain ⟨e, he, hattributes⟩ := Option.map_eq_some_iff.mp hattributes
  obtain ⟨-, hreads, hmade⟩ := layered.build_attributes catalog .standard {}
  obtain ⟨r, hr, hrole, hsize, hindex⟩ := hmade 0 e he
  have hcontrol : (built.tree.entity? 0).map Entity.role = some .control := by decide +kernel
  rw [he, Option.map_some, Option.some.injEq] at hcontrol
  obtain ⟨-, hnone | ⟨-, e', he', hstarts⟩⟩ := hreads r hr
  · cases hindex.symm.trans hnone
  · rw [hsize] at he'
    cases he.symm.trans he'
    rw [hrole, hcontrol] at hstarts
    exact ⟨e, r, he, hr, hstarts, hattributes, by decide +kernel⟩

end Componentry
