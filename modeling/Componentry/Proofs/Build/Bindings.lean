import Mathlib.Tactic
import Componentry.Proofs.Build.Nesting
/-!
# The order of the bindings

A declaration offers actions to events: first those of its handler map, entry by entry, and then its
listed actions, each to the events that it names itself (`Declaration.offers`).  The walk makes some
of them into entities (`Builder.fulfilments`) and binds these in turn, so that the bindings of an
entity are those of the fulfilments (`Makes.exists_bindings`), and the actions stand in the tree in
the same order, each followed by what is below it (`Makes.isChain_bound`).

`Document.build_bindings` puts it together for all entities of a document.
-/

namespace Componentry

/-! ### What a declaration offers -/

/-- An action as it is declared, and the events that it is to be bound to. -/
structure Offer where
  declaration : Declaration
  events : List EventName

/-- The events that an action names itself: the valid names of its comma-separated `on`. -/
def Declaration.named : Declaration → List EventName
  | .object _ _ _ _ (.trigger names) => (Text.commaList names).filterMap EventName.ofText?
  | _ => []

/-- What a handler map offers, entry by entry; a key that is no event offers nothing. -/
def Handlers.offers : Handlers → List Offer
  | .entries bounds => bounds.flatMap fun entry =>
    match EventName.ofText? entry.1 with
    | some event => entry.2.declarations.map (Offer.mk · [event])
    | none => []
  | .absent | .trigger _ | .malformed => []

/-- What an action list offers. -/
def Listing.offers : Listing → List Offer
  | .items ds => ds.map fun d => ⟨d, d.named⟩
  | .absent | .malformed => []

/-- What a declaration offers: the actions of its handler map, and then the listed ones. -/
def Declaration.offers : Declaration → List Offer
  | .object _ _ actions _ handlers => handlers.offers ++ actions.offers
  | .other => []

/-- The offer of an element: an action with the events that trigger it. -/
def Slot.offer? (slot : Slot) (d : Declaration) : Option Offer :=
  if slot.role = .action then some ⟨d, (slot.triggers d).2⟩ else none

/-- The offer of a part. -/
def Part.offer? : Part → Option Offer
  | .element slot _ d => slot.offer? d
  | .refused _ _ _ => none

lemma Builder.triggers_eq_named (d : Declaration) : (Builder.triggers d).2 = d.named := by
  cases d with
  | other => rfl
  | object own providers actions controls handlers => cases handlers <;> rfl

lemma Part.filterMap_items (slot : Slot) (path : String) (position : Nat)
    (ds : List Declaration) :
    (Part.items slot path position ds).filterMap Part.offer? = ds.filterMap slot.offer? := by
  induction ds generalizing position with
  | nil => rfl
  | cons d rest ih =>
      rw [Builder.items_cons, List.filterMap_cons, List.filterMap_cons, ih]
      rfl

/-- Outside of action lists and handler maps nothing is offered. -/
lemma Slot.filterMap_eq_nil {slot : Slot} (h : slot.role ≠ .action) (ds : List Declaration) :
    ds.filterMap slot.offer? = [] :=
  List.filterMap_eq_nil_iff.mpr fun _ _ => if_neg h

lemma Slot.filterMap_listed (ds : List Declaration) :
    ds.filterMap (Slot.offer? .listed) = ds.map fun d => ⟨d, d.named⟩ := by
  rw [← List.filterMap_eq_map]
  refine List.filterMap_congr fun d _ => (if_pos rfl).trans ?_
  rw [Slot.triggers, Builder.triggers_eq_named]
  rfl

lemma Slot.filterMap_bound (event : EventName) (ds : List Declaration) :
    ds.filterMap (Slot.offer? (.bound event)) = ds.map (Offer.mk · [event]) := by
  rw [← List.filterMap_eq_map]
  exact List.filterMap_congr fun d _ => if_pos rfl

lemma Listing.filterMap_parts_eq_nil {slot : Slot} (h : slot.role ≠ .action) (path key : String)
    (listing : Listing) : (listing.parts slot path key).filterMap Part.offer? = [] := by
  cases listing with
  | absent | malformed => rfl
  | items ds => rw [Listing.parts, Part.filterMap_items, Slot.filterMap_eq_nil h]

lemma Listing.filterMap_parts (path key : String) (listing : Listing) :
    (listing.parts .listed path key).filterMap Part.offer? = listing.offers := by
  cases listing with
  | absent | malformed => rfl
  | items ds => rw [Listing.parts, Part.filterMap_items, Slot.filterMap_listed, Listing.offers]

lemma Handlers.filterMap_parts (path : String) (handlers : Handlers) :
    (handlers.parts path).filterMap Part.offer? = handlers.offers := by
  cases handlers with
  | absent | trigger _ | malformed => rfl
  | entries bounds =>
      rw [Handlers.parts, List.filterMap_flatMap, Handlers.offers]
      refine List.flatMap_congr fun entry _ => ?_
      obtain ⟨key, bound⟩ := entry
      rw [Handlers.entryParts]
      cases EventName.ofText? key with
      | none => rfl
      | some event =>
          cases bound with
          | malformed => rfl
          | actions ds =>
              exact (Part.filterMap_items _ _ _ ds).trans (Slot.filterMap_bound event ds)

/-- All elements of a handler map are actions. -/
lemma Handlers.role_eq {slot : Slot} {path path' : String} {handlers : Handlers} {d : Declaration}
    (h : .element slot path' d ∈ handlers.parts path) : slot.role = .action := by
  cases handlers with
  | absent | trigger _ | malformed => simp [parts] at h
  | entries bounds =>
      obtain ⟨⟨key, bound⟩, -, hpart⟩ := List.mem_flatMap.mp h
      rw [entryParts] at hpart
      split at hpart
      · simp at hpart
      · cases bound with
        | malformed => simp [Bound.parts] at hpart
        | actions ds =>
            obtain ⟨item, -, heq⟩ := List.mem_map.mp hpart
            cases heq
            rfl

lemma Listing.role_eq {slot slot' : Slot} {path path' key : String} {listing : Listing}
    {d : Declaration} (h : .element slot' path' d ∈ listing.parts slot path key) :
    slot' = slot := by
  cases listing with
  | absent => simp [parts] at h
  | malformed => simp [parts] at h
  | items ds =>
      obtain ⟨item, -, heq⟩ := List.mem_map.mp h
      cases heq
      rfl

/-- The parts of an entity are parts that offer nothing, those of its handler map and its action
list, and again parts that offer nothing. -/
lemma Declaration.exists_parts (role : Role) (path : String) (d : Declaration) :
    ∃ before middle after, d.parts role path = before ++ middle ++ after
      ∧ before.filterMap Part.offer? = [] ∧ middle.filterMap Part.offer? = d.offers
      ∧ after.filterMap Part.offer? = []
      ∧ ∀ slot path' d', .element slot path' d' ∈ middle → slot.role = .action := by
  cases d with
  | other => exact ⟨[], [], [], rfl, rfl, rfl, rfl, by simp⟩
  | object own providers actions controls handlers =>
      have hoffers : (handlers.parts path ++ actions.parts .listed path "actions").filterMap
          Part.offer? = handlers.offers ++ actions.offers := by
        rw [List.filterMap_append, Handlers.filterMap_parts, Listing.filterMap_parts]
      have hactions : ∀ slot path' d', .element slot path' d' ∈ handlers.parts path
          ++ actions.parts .listed path "actions" → slot.role = .action := by
        intro slot path' d' h
        obtain h | h := List.mem_append.mp h
        · exact Handlers.role_eq h
        · rw [Listing.role_eq h]
          rfl
      cases role with
      | control =>
          refine ⟨providers.parts .provider path "dataProviders", _,
            controls.parts .control path "controls", ?_,
            Listing.filterMap_parts_eq_nil (by simp [Slot.role]) _ _ _, hoffers,
            Listing.filterMap_parts_eq_nil (by simp [Slot.role]) _ _ _, hactions⟩
          rw [parts, ← List.append_assoc]
      | dataProvider | action =>
          exact ⟨[], _, [], (List.append_nil _).symm, rfl, hoffers, rfl, hactions⟩

/-! ### What becomes of the offers -/

/-- What became of an offer: the action that was made of it, unless it failed. -/
structure Fulfilment where
  offer : Offer
  action? : Option Made

/-- One binding for each event of the offer, if there is an action to bind. -/
def Fulfilment.bindings (o : Fulfilment) : List Binding :=
  match o.action? with
  | some action => o.offer.events.map (Binding.mk · action.index)
  | none => []

namespace Builder

/-- What becomes of the offer of a part. -/
def fulfilment? (builder : Builder) (owner : Nat) (b : Build) (part : Part) : Option Fulfilment :=
  part.offer?.map fun offer => ⟨offer, builder.made? owner b part⟩

/-- What becomes of the offers of parts that are settled in turn. -/
def fulfilments (builder : Builder) (owner : Nat) : List Part → Build → List Fulfilment
  | [], _ => []
  | part :: rest, b =>
    (builder.fulfilment? owner b part).toList
      ++ builder.fulfilments owner rest (builder.settle owner b part)

variable {builder : Builder} {owner : Nat} {b : Build} {document : Document} {m : Made}

lemma fulfilments_append (builder : Builder) (owner : Nat) (parts more : List Part) (b : Build) :
    builder.fulfilments owner (parts ++ more) b = builder.fulfilments owner parts b
      ++ builder.fulfilments owner more (builder.fill owner parts b) := by
  induction parts generalizing b with
  | nil => rfl
  | cons part rest ih =>
      rw [List.cons_append, fulfilments, ih, fulfilments, List.append_assoc, fill_cons]

/-- There is one fulfilment for every offer. -/
lemma map_offer_fulfilments (builder : Builder) (owner : Nat) (parts : List Part) (b : Build) :
    (builder.fulfilments owner parts b).map Fulfilment.offer = parts.filterMap Part.offer? := by
  induction parts generalizing b with
  | nil => rfl
  | cons part rest ih =>
      rw [fulfilments, List.map_append, ih, List.filterMap_cons, fulfilment?]
      cases part.offer? <;> rfl

lemma fulfilments_eq_nil {parts : List Part} (h : parts.filterMap Part.offer? = []) :
    builder.fulfilments owner parts b = [] := by
  rw [← List.map_eq_nil_iff, map_offer_fulfilments, h]

/-- A fulfilment comes of a part, when the parts before it have been settled. -/
lemma exists_of_mem_fulfilments {parts : List Part} {o : Fulfilment}
    (h : o ∈ builder.fulfilments owner parts b) : ∃ before slot path d after,
      parts = before ++ .element slot path d :: after ∧ slot.offer? d = some o.offer
        ∧ builder.element? owner slot path d (builder.fill owner before b) = o.action? := by
  induction parts generalizing b with
  | nil => cases h
  | cons part rest ih =>
      obtain h | h := List.mem_append.mp h
      · rw [Option.mem_toList, fulfilment?, Option.map_eq_some_iff] at h
        obtain ⟨offer, hoffer, rfl⟩ := h
        cases part with
        | refused path reason lost => cases hoffer
        | element slot path d => exact ⟨[], slot, path, d, rest, rfl, hoffer, rfl⟩
      · obtain ⟨before, slot, path, d, after, rfl, hoffer, hmade⟩ := ih h
        exact ⟨part :: before, slot, path, d, after, rfl, hoffer, hmade⟩

/-! ### The bindings of one entity -/

/-- Settling a part binds what becomes of its offer, behind all that has been bound. -/
lemma settle_bindings (builder : Builder) (ho : owner < b.tree.size) (part : Part) {o : Entity}
    (hentity : b.tree.entity? owner = some o) : ∃ o',
      (builder.settle owner b part).tree.entity? owner = some o'
        ∧ o'.bindings = o.bindings ++ (builder.fulfilment? owner b part).toList.flatMap
          Fulfilment.bindings := by
  cases part with
  | refused path reason lost => exact ⟨o, hentity, (List.append_nil _).symm⟩
  | element slot path d =>
      rcases builder.element_cases ho slot path d with ⟨m, hadds⟩ | hrefers | ⟨hnone, hfails⟩
      · obtain ⟨x, hx, hlinked⟩ := hadds.linked
        cases hentity.symm.trans hx
        refine ⟨_, hlinked, ?_⟩
        have hmade : builder.made? owner b (.element slot path d) = some m := hadds.made
        rw [fulfilment?, hmade]
        cases slot <;>
          simp [Entity.attach, Part.offer?, Slot.offer?, Slot.role, Fulfilment.bindings]
      · obtain ⟨_, _, _, _, _, _, existing, _, -, -, -, -, -, ht⟩ := hrefers.found
        have hattach := b.attach_entity? owner .provider [] existing owner
        rw [if_pos rfl, hentity] at hattach
        refine ⟨_, (congrArg (Tree.entity? · owner) ht).trans hattach, ?_⟩
        rw [fulfilment?, Part.offer?, hrefers.slot_eq, Slot.offer?, if_neg (by simp [Slot.role])]
        exact (List.append_nil _).symm
      · refine ⟨o, by rw [hfails.tree_eq, hentity], ?_⟩
        have hmade : builder.made? owner b (.element slot path d) = none := hnone
        rw [fulfilment?, hmade]
        cases (Part.element slot path d).offer? <;> simp [Fulfilment.bindings]

lemma fill_bindings (builder : Builder) (ho : owner < b.tree.size) (parts : List Part)
    {o : Entity} (hentity : b.tree.entity? owner = some o) : ∃ o',
      (builder.fill owner parts b).tree.entity? owner = some o'
        ∧ o'.bindings = o.bindings
          ++ (builder.fulfilments owner parts b).flatMap Fulfilment.bindings := by
  induction parts generalizing b o with
  | nil => exact ⟨o, hentity, (List.append_nil _).symm⟩
  | cons part rest ih =>
      obtain ⟨x, hx, hbindings⟩ := builder.settle_bindings ho part hentity
      obtain ⟨o', ho', hrest⟩ := ih (ho.trans_le (builder.settle_keeps ho part).1) hx
      refine ⟨o', ho', ?_⟩
      rw [hrest, hbindings, fulfilments, List.flatMap_append, List.append_assoc]

/-- What becomes of the offers of an entity that has been made. -/
def offered (builder : Builder) (m : Made) : List Fulfilment :=
  builder.fulfilments m.index m.parts m.entered

/-- The actions of an entity, in the order in which they were made. -/
def bound (builder : Builder) (m : Made) : List Made :=
  (builder.offered m).filterMap Fulfilment.action?

lemma map_offer_offered (builder : Builder) (m : Made) :
    (builder.offered m).map Fulfilment.offer = m.declaration.offers := by
  obtain ⟨before, middle, after, hparts, hbefore, hmiddle, hafter, -⟩ :=
    m.declaration.exists_parts m.role m.path
  rw [offered, map_offer_fulfilments, Made.parts, hparts, List.filterMap_append,
    List.filterMap_append, hbefore, hmiddle, hafter, List.nil_append, List.append_nil]

/-- **The bindings of an entity** are those of the fulfilments of its offers. -/
lemma Makes.exists_bindings (h : builder.Makes document m) :
    ∃ e, (builder.build document).tree.entity? m.index = some e ∧ e.role = m.role
      ∧ e.bindings = (builder.offered m).flatMap Fulfilment.bindings := by
  obtain ⟨_, _, e, he, hnew⟩ := h.exists_isNew
  obtain ⟨e', he', hbindings⟩ := builder.fill_bindings h.index_lt m.parts he
  have hrole := (builder.fill_keeps h.index_lt m.parts).2 m.index h.index_lt
  rw [h.roleAt?_eq, Tree.roleAt?, he', Option.map_some, Option.some.injEq] at hrole
  refine ⟨e', (h.entity?_eq m.index le_rfl h.index_lt_finish).trans he', hrole, ?_⟩
  rw [hbindings, hnew.bindings_eq]
  rfl

/-- What was made of an offer is an action of the document, and some event triggers it. -/
lemma Makes.of_offered (h : builder.Makes document m) {o : Fulfilment} (ho : o ∈ builder.offered m)
    {action : Made} (haction : o.action? = some action) : builder.Makes document action
      ∧ action.role = .action ∧ action.declaration = o.offer.declaration
      ∧ o.offer.events ≠ [] := by
  obtain ⟨before, slot, path, d, after, hparts, hoffer, hmade⟩ := exists_of_mem_fulfilments ho
  rw [haction] at hmade
  rw [Slot.offer?, Option.ite_none_right_eq_some, Option.some.injEq] at hoffer
  obtain ⟨hslot, hoffer⟩ := hoffer
  obtain ⟨⟨-, hrole, -, hd⟩, -⟩ := make?_eq_some (make?_of_element? hmade)
  refine ⟨.nested h hparts hmade, hrole.trans hslot, by rw [hd, ← hoffer], ?_⟩
  rw [element?] at hmade
  split_ifs at hmade with huntriggered
  rw [← hoffer]
  exact fun hevents => huntriggered (.inl ⟨hslot, hevents⟩)

/-! ### The actions in the tree -/

/-- Where all elements are actions, each action that is made is followed by the next one as soon as
it is finished. -/
lemma isChain_fulfilments {parts : List Part} (ho : owner < b.tree.size)
    (h : ∀ slot path d, .element slot path d ∈ parts → slot.role = .action) :
    (∀ first ∈ ((builder.fulfilments owner parts b).filterMap Fulfilment.action?).head?,
        first.index = b.tree.size)
      ∧ ((builder.fulfilments owner parts b).filterMap Fulfilment.action?).IsChain
        fun action next => next.index = builder.finish action := by
  induction parts generalizing b with
  | nil => exact ⟨by simp [fulfilments], .nil⟩
  | cons part rest ih =>
      obtain ⟨hfirst, hchain⟩ := ih (ho.trans_le (builder.settle_keeps ho part).1)
        fun slot path d hd => h slot path d (List.mem_cons_of_mem _ hd)
      rw [fulfilments, List.filterMap_append]
      cases hmade : builder.made? owner b part with
      | none =>
          have hnone : (builder.fulfilment? owner b part).toList.filterMap Fulfilment.action?
              = [] := by
            rw [fulfilment?, hmade]
            cases part.offer? <;> rfl
          rw [hnone, List.nil_append]
          rw [(settle_of_made?_none ho hmade).2] at hfirst
          exact ⟨hfirst, hchain⟩
      | some m =>
          cases part with
          | refused path reason lost => cases hmade
          | element slot path d =>
              have hsome : (builder.fulfilment? owner b (.element slot path d)).toList.filterMap
                  Fulfilment.action? = [m] := by
                rw [fulfilment?, hmade, Part.offer?, Slot.offer?,
                  if_pos (h slot path d List.mem_cons_self)]
                rfl
              obtain ⟨hindex, hsize, -⟩ := entity?_settle_of_made ho hmade
              rw [hsome, List.singleton_append]
              refine ⟨fun first hm => ?_, List.isChain_cons.mpr ⟨fun next hn => ?_, hchain⟩⟩
              · cases hm
                exact hindex
              · rw [hfirst next hn, hsize]

/-- Each action of an entity is followed by the next one as soon as it is finished. -/
lemma Makes.isChain_bound (h : builder.Makes document m) :
    (builder.bound m).IsChain fun action next => next.index = builder.finish action := by
  obtain ⟨before, middle, after, hparts, hbefore, -, hafter, hactions⟩ :=
    m.declaration.exists_parts m.role m.path
  have ho := h.index_lt.trans_le (builder.fill_keeps h.index_lt before).1
  rw [bound, offered, Made.parts, hparts, fulfilments_append, fulfilments_append,
    fulfilments_eq_nil hbefore, fulfilments_eq_nil hafter, List.nil_append, List.append_nil]
  exact (isChain_fulfilments ho hactions).2

/-- What is made of the offers of an entity is made by the walk, too. -/
lemma Makes.of_bound (h : builder.Makes document m) {action : Made}
    (haction : action ∈ builder.bound m) : builder.Makes document action := by
  obtain ⟨o, ho, hmade⟩ := List.mem_filterMap.mp haction
  exact (h.of_offered ho hmade).1

/-- The actions of an entity are different entities. -/
lemma Makes.nodup_bound (h : builder.Makes document m) :
    ((builder.bound m).map Made.index).Nodup := by
  have hlt : ((builder.bound m).map Made.index).IsChain (· < ·) := by
    rw [List.isChain_map]
    refine List.IsChain.imp_of_mem_imp (fun action next haction _ hnext => ?_) h.isChain_bound
    rw [hnext]
    exact (h.of_bound haction).index_lt_finish
  exact (List.isChain_iff_pairwise.mp hlt).imp Nat.ne_of_lt

/-- The actions below an entity are those that were made of its offers. -/
lemma Makes.isParent_iff (h : builder.Makes document m) (i : Nat) :
    (builder.build document).tree.IsParent m.index i
        ∧ (builder.build document).tree.roleAt? i = some .action
      ↔ i ∈ (builder.bound m).map Made.index := by
  have hbuilt := builder.build_built document
  obtain ⟨e, he, -, hbindings⟩ := h.exists_bindings
  have hmem : i ∈ e.bindings.map Binding.action ↔ i ∈ (builder.bound m).map Made.index := by
    rw [hbindings, List.map_flatMap, List.mem_flatMap, bound, List.map_filterMap,
      List.mem_filterMap]
    refine exists_congr fun o => and_congr_right fun ho => ?_
    cases haction : o.action? with
    | none => simp [Fulfilment.bindings, haction]
    | some action =>
        obtain ⟨-, -, -, hevents⟩ := h.of_offered ho haction
        obtain ⟨event, rest, hcons⟩ := List.exists_cons_of_ne_nil hevents
        simp [Fulfilment.bindings, haction, hcons, eq_comm]
  rw [← hmem]
  constructor
  · rintro ⟨⟨x, hx, hparent⟩, hrole⟩
    rw [Tree.roleAt?, hx, Option.map_some, Option.some.injEq] at hrole
    exact (hbuilt.bound_iff hx hrole he).mpr hparent
  · intro hi
    obtain ⟨x, hx, hrole, -⟩ := hbuilt.linked.listed m.index e he .action i hi
    exact ⟨⟨x, hx, (hbuilt.bound_iff hx hrole he).mp hi⟩, by
      rw [Tree.roleAt?, hx, Option.map_some, hrole]⟩

/-- Every entity of a document has been made by the walk. -/
lemma exists_makes {index : Nat} {e : Entity}
    (he : (builder.build document).tree.entity? index = some e) :
    ∃ m, builder.Makes document m ∧ m.index = index := by
  obtain ⟨ms, hmakes, hindices, -, -⟩ := builder.exists_entered document
  have hindex : index ∈ ms.map Made.index := by
    rw [hindices]
    exact List.mem_range.mpr (Tree.lt_size_iff.mpr ⟨e, he⟩)
  obtain ⟨m, hm, rfl⟩ := List.mem_map.mp hindex
  exact ⟨m, (hmakes m).mpr hm, rfl⟩

end Builder

/-! ### Documents -/

/-- **Bindings stand in the order of the declaration.**  The walk has made all entities of a
document.  The bindings of each are those of what its declaration offers, offer by offer and event
by event, as far as an action was made of the offer.  These are the actions that belong to the
entity; they stand in the tree in the same order, each followed by what is below it and this by the
next one. -/
theorem Document.build_bindings (document : Document) (catalog : Catalog) (evaluator : Evaluator)
    (dispatch : DispatchConfig) :
    let builder : Builder :=
      { catalog, evaluator, styles := document.styles
        defaultDelay := 1000 * dispatch.defaultDelay }
    let tree := (document.build catalog evaluator dispatch).tree
    (∀ index e, tree.entity? index = some e → ∃ m, builder.Makes document m ∧ m.index = index)
      ∧ ∀ m, builder.Makes document m →
        (builder.offered m).map Fulfilment.offer = m.declaration.offers
          ∧ (∃ e, tree.entity? m.index = some e ∧ e.role = m.role
            ∧ e.bindings = (builder.offered m).flatMap Fulfilment.bindings)
          ∧ (∀ o ∈ builder.offered m, ∀ action ∈ o.action?, builder.Makes document action
            ∧ action.role = .action ∧ action.declaration = o.offer.declaration)
          ∧ (∀ i, tree.IsParent m.index i ∧ tree.roleAt? i = some .action
            ↔ i ∈ (builder.bound m).map Made.index)
          ∧ (∀ action ∈ builder.bound m, ∃ stop, tree.Occupies action.index stop)
          ∧ ((builder.bound m).map Made.index).IsChain tree.Occupies := by
  intro builder tree
  refine ⟨fun index e he => Builder.exists_makes he, fun m h => ?_⟩
  have hoccupies : ∀ action ∈ builder.bound m,
      tree.Occupies action.index (builder.finish action) := fun action haction =>
    (h.of_bound haction).occupies
  refine ⟨builder.map_offer_offered m, h.exists_bindings, fun o ho action haction => ?_,
    h.isParent_iff, fun action haction => ⟨_, hoccupies action haction⟩, ?_⟩
  · obtain ⟨hmakes, hrole, hd, -⟩ := h.of_offered ho haction
    exact ⟨hmakes, hrole, hd⟩
  · rw [List.isChain_map]
    refine List.IsChain.imp_of_mem_imp (fun action next haction _ hnext => ?_) h.isChain_bound
    rw [hnext]
    exact hoccupies action haction

/-- A screen with a handler map, one of whose keys is no event, and with a list of actions.  Some
of the values are no actions, one action has no trigger, and one has an action of its own. -/
def errands : Document where
  members := [("id", .string "screen"),
    ("on", .object [
      (" Loaded ", .object [("id", .string "first")]),
      ("on time", .object [("id", .string "lost")]),
      ("success", .array [.object [("id", .string "second")], .null,
        .object [("id", .string "third"),
          ("on", .object [("touch", .object [("id", .string "inner")])])]])]),
    ("actions", .array [
      .object [("id", .string "fourth"), ("on", .string "Touch, on time, success")],
      .object [("id", .string "silent")],
      .object [("id", .string "fifth"), ("on", .string "success")]])]

/-- Seven actions are offered, of which five are made, with six bindings; the third one is followed
by its own. -/
theorem Document.build_bindings_errands :
    let catalog : Catalog := ⟨.empty .strict⟩
    let builder : Builder :=
      { catalog, evaluator := .standard, styles := errands.styles, defaultDelay := 0 }
    let tree := (errands.build catalog .standard {}).tree
    ∃ m, builder.Makes errands m ∧ m.index = 0
      ∧ (builder.offered m).map Fulfilment.offer = m.declaration.offers
      ∧ m.declaration.offers.map Offer.events = [["loaded"], ["success"], ["success"], ["success"],
        ["touch", "success"], [], ["success"]].map (List.map EventName.mk)
      ∧ (builder.bound m).map Made.index = [1, 2, 3, 5, 6]
      ∧ (∀ i, tree.IsParent 0 i ∧ tree.roleAt? i = some .action ↔ i ∈ [1, 2, 3, 5, 6])
      ∧ [1, 2, 3, 5, 6].IsChain tree.Occupies
      ∧ (tree.entity? 0).map Entity.bindings = some [⟨⟨"loaded"⟩, 1⟩, ⟨⟨"success"⟩, 2⟩,
        ⟨⟨"success"⟩, 3⟩, ⟨⟨"touch"⟩, 5⟩, ⟨⟨"success"⟩, 5⟩, ⟨⟨"success"⟩, 6⟩] := by
  intro catalog builder tree
  obtain ⟨m, hm⟩ := Option.isSome_iff_exists.mp
    (by decide +kernel : (builder.root? errands).isSome)
  obtain ⟨-, hmade⟩ := errands.build_bindings catalog .standard {}
  obtain ⟨hoffers, -, -, hbelow, -, hchain⟩ := hmade m (.root hm)
  have hindices : (builder.root? errands).map (fun m => (builder.bound m).map Made.index)
      = some [1, 2, 3, 5, 6] := by
    decide +kernel
  have hevents : (builder.root? errands).map (fun m => m.declaration.offers.map Offer.events)
      = some ([["loaded"], ["success"], ["success"], ["success"], ["touch", "success"], [],
        ["success"]].map (List.map EventName.mk)) := by
    decide +kernel
  obtain ⟨⟨hindex, -⟩, -⟩ := Builder.make?_eq_some hm
  have hindex : m.index = 0 := hindex
  rw [hm, Option.map_some, Option.some.injEq] at hindices hevents
  have hbound : (builder.bound m).map Made.index = [1, 2, 3, 5, 6] := hindices
  have hbelow : ∀ i, tree.IsParent m.index i ∧ tree.roleAt? i = some .action
      ↔ i ∈ (builder.bound m).map Made.index := hbelow
  have hchain : ((builder.bound m).map Made.index).IsChain tree.Occupies := hchain
  rw [hbound, hindex] at hbelow
  rw [hbound] at hchain
  exact ⟨m, .root hm, hindex, hoffers, hevents, hbound, hbelow, hchain, by decide +kernel⟩

end Componentry
