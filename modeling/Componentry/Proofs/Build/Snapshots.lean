import Mathlib.Tactic
import Componentry.Proofs.Build.Bindings
import Componentry.Proofs.Tree.Routes
/-!
# Snapshots of built trees

The child controls of an entity are linked in the order of their declarations: `Builder.children` are
those that the walk has made, in the order of the parts (`Makes.exists_controls`), and these are
declared in the same order (`Builder.children_sublist`).

`Document.build_snapshots` puts this together with the routes of built trees.  The recursion that
takes a snapshot ends for every entity; the snapshot of the root shows every control once, below its
parent and in the order of the declaration, and every action below its owner.
-/

namespace Componentry

/-! ### Declared child controls -/

/-- The child control that a part declares, with its path. -/
def Part.child? : Part → Option (String × Declaration)
  | .element .control path d => some (path, d)
  | .element _ _ _ | .refused _ _ _ => none

/-- The child controls that a declaration lists, each with its path; only a control has some. -/
def Declaration.childControls (role : Role) (path : String) :
    Declaration → List (String × Declaration)
  | .object _ _ _ (.items ds) _ =>
    if role = .control then
      ds.zipIdx.map fun item => (Builder.itemPath (path ++ "/controls") item.2, item.1)
    else []
  | _ => []

lemma Part.child?_eq_none {slot : Slot} (h : slot.role ≠ .control) (path : String)
    (d : Declaration) : (Part.element slot path d).child? = none := by
  cases slot with
  | control => exact absurd rfl h
  | provider | listed | bound _ => rfl

/-- Only the list of the child controls declares some. -/
lemma Listing.filterMap_child?_eq_nil (slot : Slot) (h : slot.role ≠ .control) (path key : String)
    (listing : Listing) : (listing.parts slot path key).filterMap Part.child? = [] := by
  rw [List.filterMap_eq_nil_iff]
  intro part hpart
  cases part with
  | refused path reason lost => rfl
  | element slot' path' d =>
      rw [Listing.role_eq hpart]
      exact Part.child?_eq_none h path' d

lemma Handlers.filterMap_child?_eq_nil (path : String) (handlers : Handlers) :
    (handlers.parts path).filterMap Part.child? = [] := by
  rw [List.filterMap_eq_nil_iff]
  intro part hpart
  cases part with
  | refused path reason lost => rfl
  | element slot path' d => exact Part.child?_eq_none (by rw [Handlers.role_eq hpart]; simp) path' d

/-- The parts of a declaration declare its child controls, in the order of the list. -/
lemma Declaration.filterMap_child? (role : Role) (path : String) (d : Declaration) :
    (d.parts role path).filterMap Part.child? = d.childControls role path := by
  cases d with
  | other => rfl
  | object own providers actions controls handlers =>
      have hactions := Listing.filterMap_child?_eq_nil .listed (by simp [Slot.role]) path "actions"
        actions
      have hhandlers := Handlers.filterMap_child?_eq_nil path handlers
      cases role with
      | control =>
          have hproviders := Listing.filterMap_child?_eq_nil .provider (by simp [Slot.role]) path
            "dataProviders" providers
          rw [parts, List.filterMap_append, List.filterMap_append, List.filterMap_append,
            hproviders, hhandlers, hactions]
          cases controls with
          | absent | malformed => rfl
          | items ds =>
              rw [Listing.parts, Part.items, List.filterMap_map, childControls, if_pos rfl,
                show "/" ++ "controls" = "/controls" from rfl, ← List.filterMap_eq_map]
              rfl
      | dataProvider | action =>
          rw [parts, List.filterMap_append, hhandlers, hactions]
          cases controls <;> simp [childControls]

namespace Builder

/-! ### The child controls of an entity -/

/-- The child control that is made of a part. -/
def child? (builder : Builder) (owner : Nat) (b : Build) (part : Part) : Option Made :=
  part.child?.bind fun _ => builder.made? owner b part

/-- The child controls that are made of parts which are settled in turn. -/
def childrenOf (builder : Builder) (owner : Nat) : List Part → Build → List Made
  | [], _ => []
  | part :: rest, b =>
    (builder.child? owner b part).toList ++ builder.childrenOf owner rest (builder.settle owner b part)

/-- The child controls of an entity that has been made. -/
def children (builder : Builder) (m : Made) : List Made :=
  builder.childrenOf m.index m.parts m.entered

variable {builder : Builder} {owner : Nat} {b : Build} {document : Document} {m : Made}

/-- A child control is made of a part that declares it. -/
lemma child?_eq_some {part : Part} {c : Made} (h : builder.child? owner b part = some c) :
    part.child? = some (c.path, c.declaration) ∧ builder.made? owner b part = some c := by
  obtain ⟨declared, hdeclared, hmade⟩ := Option.bind_eq_some_iff.mp h
  refine ⟨?_, hmade⟩
  cases part with
  | refused path reason lost => cases hdeclared
  | element slot path d =>
      obtain ⟨⟨-, -, hpath, hd⟩, -⟩ := make?_eq_some (make?_of_element? hmade)
      rw [hpath, hd]
      cases slot with
      | control => rfl
      | provider | listed | bound _ => cases hdeclared

/-- Child controls are made in the order in which they are declared. -/
lemma childrenOf_sublist (builder : Builder) (owner : Nat) (parts : List Part) (b : Build) :
    ((builder.childrenOf owner parts b).map fun c => (c.path, c.declaration)).Sublist
      (parts.filterMap Part.child?) := by
  induction parts generalizing b with
  | nil => exact .slnil
  | cons part rest ih =>
      rw [childrenOf, List.map_append]
      cases hchild : builder.child? owner b part with
      | none =>
          refine (ih _).trans ?_
          rw [List.filterMap_cons]
          cases part.child? with
          | none => exact List.Sublist.refl _
          | some declared => exact List.sublist_cons_self _ _
      | some c =>
          rw [List.filterMap_cons, (child?_eq_some hchild).1]
          exact (ih _).cons_cons _

lemma children_sublist (builder : Builder) (m : Made) :
    ((builder.children m).map fun c => (c.path, c.declaration)).Sublist
      (m.declaration.childControls m.role m.path) := by
  rw [← Declaration.filterMap_child?]
  exact builder.childrenOf_sublist m.index m.parts m.entered

/-- Settling a part lists the child control that it declares, behind all that have been listed. -/
lemma settle_controls (builder : Builder) (ho : owner < b.tree.size) (part : Part) {o : Entity}
    (hentity : b.tree.entity? owner = some o) : ∃ o',
      (builder.settle owner b part).tree.entity? owner = some o'
        ∧ o'.controls = o.controls ++ (builder.child? owner b part).toList.map Made.index := by
  cases part with
  | refused path reason lost => exact ⟨o, hentity, (List.append_nil _).symm⟩
  | element slot path d =>
      rcases builder.element_cases ho slot path d with ⟨m, hadds⟩ | hrefers | ⟨hnone, hfails⟩
      · obtain ⟨x, hx, hlinked⟩ := hadds.linked
        cases hentity.symm.trans hx
        refine ⟨_, hlinked, ?_⟩
        have hmade : builder.made? owner b (.element slot path d) = some m := hadds.made
        rw [child?, hmade]
        cases slot <;> simp [Entity.attach, Part.child?]
      · obtain ⟨_, _, _, _, _, _, existing, _, -, -, -, -, -, ht⟩ := hrefers.found
        have hattach := b.attach_entity? owner .provider [] existing owner
        rw [if_pos rfl, hentity] at hattach
        refine ⟨_, (congrArg (Tree.entity? · owner) ht).trans hattach, ?_⟩
        rw [child?, hrefers.slot_eq]
        exact (List.append_nil _).symm
      · refine ⟨o, by rw [hfails.tree_eq, hentity], ?_⟩
        have hmade : builder.made? owner b (.element slot path d) = none := hnone
        rw [child?, hmade]
        cases (Part.element slot path d).child? <;> simp

lemma fill_controls (builder : Builder) (ho : owner < b.tree.size) (parts : List Part)
    {o : Entity} (hentity : b.tree.entity? owner = some o) : ∃ o',
      (builder.fill owner parts b).tree.entity? owner = some o'
        ∧ o'.controls = o.controls ++ (builder.childrenOf owner parts b).map Made.index := by
  induction parts generalizing b o with
  | nil => exact ⟨o, hentity, (List.append_nil _).symm⟩
  | cons part rest ih =>
      obtain ⟨x, hx, hcontrols⟩ := builder.settle_controls ho part hentity
      obtain ⟨o', ho', hrest⟩ := ih (ho.trans_le (builder.settle_keeps ho part).1) hx
      refine ⟨o', ho', ?_⟩
      rw [hrest, hcontrols, childrenOf, List.map_append, List.append_assoc]

/-- **The controls of an entity** are the child controls that were made. -/
lemma Makes.exists_controls (h : builder.Makes document m) :
    ∃ e, (builder.build document).tree.entity? m.index = some e
      ∧ e.controls = (builder.children m).map Made.index := by
  obtain ⟨_, _, e, he, hnew⟩ := h.exists_isNew
  obtain ⟨e', he', hcontrols⟩ := builder.fill_controls h.index_lt m.parts he
  refine ⟨e', (h.entity?_eq m.index le_rfl h.index_lt_finish).trans he', ?_⟩
  rw [hcontrols, hnew.controls_eq]
  rfl

end Builder

/-! ### Documents -/

/-- **Snapshots show the tree.**  In the tree of a document nothing comes back to where it started by
what entities list, and every entity has a snapshot: its own fields, and the snapshots of what it
lists.  Along every route the snapshot shows what is there in the tree.  From the root every control
is reached on exactly one route and every action on some, and these go through the parent; and the
controls of an entity stand in the order in which they are declared. -/
theorem Document.build_snapshots (document : Document) (catalog : Catalog) (evaluator : Evaluator)
    (dispatch : DispatchConfig) :
    let builder : Builder :=
      { catalog, evaluator, styles := document.styles
        defaultDelay := 1000 * dispatch.defaultDelay }
    let tree := (document.build catalog evaluator dispatch).tree
    WellFounded tree.IsListed
      ∧ (∀ index e, tree.entity? index = some e → ∃ s, tree.snapshot? index = some s
        ∧ e.IsShown tree.snapshot? s
        ∧ (∀ depth, tree.snapshotDepth ≤ depth → tree.snapshotWithin depth index = some s)
        ∧ ∀ route, s.at? route = (tree.at? index route).bind tree.snapshot?)
      ∧ (tree.size ≠ 0 → ∃ root s, tree.root = some root ∧ tree.rootSnapshot? = some s
        ∧ (∀ route, s.at? route = (tree.at? root route).bind tree.snapshot?)
        ∧ (∀ index e, tree.entity? index = some e → ∃ route, tree.at? root route = some index)
        ∧ (∀ index e, tree.entity? index = some e → e.role = .control →
          ∃! route, tree.at? root route = some index)
        ∧ ∀ index e, tree.entity? index = some e → e.role ≠ .dataProvider →
          ∀ p ∈ e.parent, ∀ route, tree.at? root route = some index → ∃ lead place o,
            route = lead ++ [⟨e.role, place⟩] ∧ tree.at? root lead = some p
              ∧ tree.entity? p = some o ∧ (o.listed e.role)[place]? = some index)
      ∧ ∀ index e, tree.entity? index = some e → ∃ m, builder.Makes document m ∧ m.index = index
        ∧ e.controls = (builder.children m).map Made.index
        ∧ ((builder.children m).map fun c => (c.path, c.declaration)).Sublist
          (m.declaration.childControls m.role m.path) := by
  intro builder tree
  have hbuilt : tree.Built := document.build_built catalog evaluator dispatch
  refine ⟨hbuilt.linked.wellFounded_isListed, fun index e he => ?_, fun hsize => ?_,
    fun index e he => ?_⟩
  · obtain ⟨s, hs, hshown, hdepth⟩ := hbuilt.linked.exists_isShown he
    exact ⟨s, hs, hshown, hdepth, hbuilt.linked.at?_eq hs⟩
  · obtain ⟨root, hroot⟩ := Option.isSome_iff_exists.mp (hbuilt.root_isSome_iff.mpr hsize)
    obtain ⟨-, r, hr, -⟩ := hbuilt.root_eq hroot
    obtain ⟨s, hs, -⟩ := hbuilt.linked.exists_isShown hr
    refine ⟨root, s, hroot, by rw [Tree.rootSnapshot?, hroot, Option.bind_some, hs],
      hbuilt.linked.at?_eq hs, fun index e he => hbuilt.exists_route hroot he,
      fun index e he hrole => hbuilt.existsUnique_route hroot he hrole, ?_⟩
    intro index e he hrole p hp route hroute
    obtain rfl | ⟨lead, place, q, o, rfl, hq, hlead, ho, hplace⟩ :=
      hbuilt.route_cases he hrole hroute
    · -- The root has no parent.
      cases hroute
      cases ((hbuilt.orphan_iff he).mpr hroot).symm.trans hp
    · cases hp.symm.trans hq
      exact ⟨lead, place, o, rfl, hlead, ho, hplace⟩
  · obtain ⟨m, hm, rfl⟩ := Builder.exists_makes he
    obtain ⟨e', he', hcontrols⟩ := hm.exists_controls
    cases he.symm.trans he'
    exact ⟨m, hm, rfl, hcontrols, builder.children_sublist m⟩

/-- A screen whose second control shares the data provider of the screen. -/
def gallery : Document where
  members := [("id", .string "screen"),
    ("dataProviders", .array [.object [("id", .string "feed"), ("actions", .array
      [.object [("id", .string "tell"), ("on", .string "success")]])]]),
    ("controls", .array [
      .object [("id", .string "head")],
      .object [("id", .string "body"), ("dataProviders", .array [.object [("id", .string "feed")]]),
        ("controls", .array [.object [("id", .string "leaf")]])]])]

/-- The innermost control is shown once, and the data provider twice, each time with its action. -/
theorem Document.build_snapshots_gallery :
    let catalog : Catalog := ⟨.empty .strict⟩
    let tree := (gallery.build catalog .standard {}).tree
    ∃ s, tree.rootSnapshot? = some s
      ∧ (∀ route, tree.at? 0 route = some 5 ↔ route = [⟨.control, 1⟩, ⟨.control, 0⟩])
      ∧ (s.at? [⟨.control, 1⟩, ⟨.control, 0⟩]).map Snapshot.id = some "leaf"
      ∧ (s.at? [⟨.dataProvider, 0⟩, ⟨.action, 0⟩]).map Snapshot.id = some "tell"
      ∧ (s.at? [⟨.control, 1⟩, ⟨.dataProvider, 0⟩, ⟨.action, 0⟩]).map Snapshot.id
        = some "tell" := by
  intro catalog tree
  obtain ⟨-, -, hroot, -⟩ := gallery.build_snapshots catalog .standard {}
  obtain ⟨root, s, hsome, hs, hroutes, -, hunique, -⟩ := hroot (by decide +kernel)
  have hzero : tree.root = some 0 := by decide +kernel
  cases hsome.symm.trans hzero
  obtain ⟨e, he⟩ := Tree.lt_size_iff.mp (by decide +kernel : 5 < tree.size)
  have hcontrol : (tree.entity? 5).map Entity.role = some .control := by decide +kernel
  rw [he, Option.map_some, Option.some.injEq] at hcontrol
  obtain ⟨route, -, honly⟩ := hunique 5 e he hcontrol
  have hleaf : tree.at? 0 [⟨.control, 1⟩, ⟨.control, 0⟩] = some 5 := by decide +kernel
  have hshows : ∀ route id, ((tree.at? 0 route).bind tree.snapshot?).map Snapshot.id = some id →
      (s.at? route).map Snapshot.id = some id := fun route id h => by
    rw [← h]
    exact congrArg (Option.map Snapshot.id) (hroutes route)
  refine ⟨s, hs, fun other => ⟨fun hother => ?_, fun h => by rw [h, hleaf]⟩,
    hshows _ _ (by decide +kernel), hshows _ _ (by decide +kernel), hshows _ _ (by decide +kernel)⟩
  rw [honly other hother, honly _ hleaf]

end Componentry
