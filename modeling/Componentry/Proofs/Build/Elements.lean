import Mathlib.Tactic
import Componentry.Proofs.Build.Parts
/-!
# What becomes of every element

An element of a declaration that an entity was made of becomes an entity of its own and is linked
to its owner (`Builder.Adds`), or it names a provider that is there already, which is linked once
more (`Builder.Refers`), or it fails: the tree stays exactly as it was and there is a report at the
path of the element (`Build.Fails`).  It is one of the three and never two of them
(`Builder.settles`); a malformed section or entry fails as a whole.

What the walk does below an entity leaves everything before the entity alone and keeps of the older
entities all but their links, and all that is new belongs to the entity or to something below it:
this is `Build.Beneath`, which the walk keeps (`Builder.tracks_beneath`).

`Builder.Makes` are the entities that the walk through a document makes, each with the build in
which its parts are settled, one after the other.  `Document.build_elements` puts it together for
documents: every entity of the tree is one of these, and every part of each of them settles.
-/

namespace Componentry

namespace Entity

/-- An entity without its links to other entities below it. -/
def bare (e : Entity) : Entity := { e with controls := [], dataProviders := [], bindings := [] }

/-- An entity that has another one linked to it as the slot has it. -/
def attach (e : Entity) (slot : Slot) (events : List EventName) (index : Nat) : Entity :=
  match slot with
  | .control => { e with controls := e.controls ++ [index] }
  | .provider => { e with dataProviders := e.dataProviders ++ [index] }
  | .listed | .bound _ => { e with bindings := e.bindings ++ events.map (Binding.mk · index) }

lemma bare_attach (e : Entity) (slot : Slot) (events : List EventName) (index : Nat) :
    (e.attach slot events index).bare = e.bare := by
  cases slot <;> rfl

end Entity

namespace Tree

/-- What is read off the bare entities. -/
lemma map_eq_of_bare {α : Type} {t u : Tree} {i : Nat}
    (h : (u.entity? i).map Entity.bare = (t.entity? i).map Entity.bare) (f : Entity → α)
    (hf : ∀ e : Entity, f e.bare = f e) : (u.entity? i).map f = (t.entity? i).map f := by
  simpa [Option.map_map, Function.comp_def, hf] using congrArg (Option.map f) h

end Tree

namespace Build

@[simp] lemma attach_problems (b : Build) (owner : Nat) (slot : Slot) (events : List EventName)
    (index : Nat) : (b.attach owner slot events index).problems = b.problems := by
  cases slot <;> rfl

@[simp] lemma attach_size (b : Build) (owner : Nat) (slot : Slot) (events : List EventName)
    (index : Nat) : (b.attach owner slot events index).tree.size = b.tree.size := by
  cases slot <;> simp [attach]

lemma bind_entity? (b : Build) (owner action : Nat) (events : List EventName) (i : Nat) :
    (b.bind owner action events).tree.entity? i = if owner = i then
      (b.tree.entity? i).map fun e => { e with bindings := e.bindings ++ events.map (⟨·, action⟩) }
      else b.tree.entity? i := by
  induction events generalizing b with
  | nil =>
      rw [show b.bind owner action [] = b from rfl]
      cases b.tree.entity? i <;> simp
  | cons event rest ih =>
      have hfirst : (b.bind owner action [event]).tree.entity? i = if owner = i then
          (b.tree.entity? i).map fun e => { e with bindings := e.bindings ++ [⟨event, action⟩] }
          else b.tree.entity? i := b.tree.entity?_modify owner _ i
      rw [show b.bind owner action (event :: rest) = (b.bind owner action [event]).bind owner action
        rest from rfl, ih, hfirst]
      split_ifs
      · cases b.tree.entity? i <;> simp
      · rfl

/-- Linking changes the owner only. -/
lemma attach_entity? (b : Build) (owner : Nat) (slot : Slot) (events : List EventName)
    (index i : Nat) : (b.attach owner slot events index).tree.entity? i
      = if owner = i then (b.tree.entity? i).map (·.attach slot events index)
        else b.tree.entity? i := by
  cases slot with
  | control | provider => exact b.tree.entity?_modify owner _ i
  | listed | bound _ => exact b.bind_entity? owner index events i

/-- Linking keeps the bare entities. -/
lemma attach_bare (b : Build) (owner : Nat) (slot : Slot) (events : List EventName)
    (index i : Nat) :
    ((b.attach owner slot events index).tree.entity? i).map Entity.bare
      = (b.tree.entity? i).map Entity.bare := by
  rw [attach_entity?]
  split_ifs
  · simp only [Option.map_map, Function.comp_def, Entity.bare_attach]
  · rfl

/-- Linking keeps the owners. -/
lemma exists_of_attach {b : Build} {owner : Nat} {slot : Slot} {events : List EventName}
    {index i : Nat} {e : Entity} (he : (b.attach owner slot events index).tree.entity? i = some e) :
    ∃ e', b.tree.entity? i = some e' ∧ e'.parent = e.parent := by
  have hparent := Tree.map_eq_of_bare (b.attach_bare owner slot events index i) Entity.parent
    fun _ => rfl
  rw [he, Option.map_some, eq_comm, Option.map_eq_some_iff] at hparent
  exact hparent

/-! ### Below an entity -/

/-- What has been done from a build on while only an entity and what is below it was open. -/
structure Beneath (top : Nat) (before : Build) (stack : List (Nat × Role)) (b : Build) : Prop where
  opened : stack ≠ []
  stack_ge : ∀ entry ∈ stack, top ≤ entry.1
  size_le : before.tree.size ≤ b.tree.size
  /-- What comes before the entity is left alone. -/
  older : ∀ i < top, b.tree.entity? i = before.tree.entity? i
  /-- Of what has been there only links have changed. -/
  bare_eq : ∀ i < before.tree.size,
    (b.tree.entity? i).map Entity.bare = (before.tree.entity? i).map Entity.bare
  /-- What comes after the entity belongs to it or to something below it. -/
  nested : ∀ i e, top < i → b.tree.entity? i = some e → ∃ p ∈ e.parent, top ≤ p
  problems : before.problems <+: b.problems

namespace Beneath

variable {top : Nat} {before b : Build} {stack : List (Nat × Role)}

/-- A link of an open entity. -/
lemma attached (h : Beneath top before stack b) {owner : Nat} (ho : top ≤ owner) (slot : Slot)
    (events : List EventName) (index : Nat) {stack' : List (Nat × Role)} (hne : stack' ≠ [])
    (hsub : stack' ⊆ stack) : Beneath top before stack' (b.attach owner slot events index) where
  opened := hne
  stack_ge entry hentry := h.stack_ge entry (hsub hentry)
  size_le := by
    rw [attach_size]
    exact h.size_le
  older i hi := by
    rw [attach_entity?, if_neg (by omega), h.older i hi]
  bare_eq i hi := by
    rw [attach_bare, h.bare_eq i hi]
  nested i e hi he := by
    obtain ⟨e', he', heq⟩ := exists_of_attach he
    rw [← heq]
    exact h.nested i e' hi he'
  problems := by
    rw [attach_problems]
    exact h.problems

/-- A new entity belongs to the entity on top of the stack. -/
lemma insert (h : Beneath top before stack b) (htop : top < before.tree.size) {e : Entity}
    {id : String} {role : Role} (he : e.IsNew id role (Builder.ownerOf stack)) {b' : Build}
    (ht : b'.tree = b.tree.insert e) (hp : b.problems <+: b'.problems) :
    Beneath top before ((b.tree.size, role) :: stack) b' where
  opened := by simp
  stack_ge entry hentry := by
    have hsize := h.size_le
    obtain rfl | hentry := List.mem_cons.mp hentry
    · exact htop.le.trans hsize
    · exact h.stack_ge entry hentry
  size_le := by
    rw [ht, Tree.size_insert]
    exact h.size_le.trans (Nat.le_succ _)
  older i hi := by
    have hsize := h.size_le
    rw [ht, Tree.entity?_insert_of_lt _ _ (by omega), h.older i hi]
  bare_eq i hi := by
    rw [ht, Tree.entity?_insert_of_lt _ _ (hi.trans_le h.size_le), h.bare_eq i hi]
  nested i x hi hx := by
    rw [ht, Tree.entity?_insert] at hx
    split_ifs at hx with hlast
    · cases hx
      rw [he.parent_eq]
      obtain ⟨entry, rest, rfl⟩ := List.exists_cons_of_ne_nil h.opened
      exact ⟨entry.1, rfl, h.stack_ge entry List.mem_cons_self⟩
    · exact h.nested i x hi hx
  problems := h.problems.trans hp

end Beneath

end Build

namespace Builder

/-- Every step of the walk below an entity stays beneath it. -/
lemma tracks_beneath (builder : Builder) (top : Nat) (before : Build)
    (htop : top < before.tree.size) : builder.Tracks (Build.Beneath top before) where
  report _ _ _ _ h := { h with problems := h.problems.trans (List.prefix_append _ _) }
  enter stack b role path own _ h := by
    obtain ⟨faults, hfaults, -⟩ := builder.enter_reported role (ownerOf stack) path own b
    have hcases := builder.enter_cases role (ownerOf stack) path own b
    cases hent : builder.enter role (ownerOf stack) path own b with
    | mk b' index =>
        rw [hent] at hcases hfaults
        have hp : b.problems <+: b'.problems := ⟨_, hfaults.symm⟩
        rcases hcases with ⟨ht, hi⟩ | ⟨id, e, ht, hi, he⟩
        · cases hi
          exact ⟨h.opened, h.stack_ge, ht ▸ h.size_le, ht ▸ h.older, ht ▸ h.bare_eq, ht ▸ h.nested,
            h.problems.trans hp⟩
        · cases hi
          exact h.insert htop he ht hp
  linkControl stack b owner child h :=
    h.attached (h.stack_ge (owner, .control) (by simp)) .control [] child (by simp)
      (List.subset_cons_self _ _)
  linkProvider stack b owner provider h :=
    h.attached (h.stack_ge (owner, .control) (by simp)) .provider [] provider (by simp)
      (List.subset_cons_self _ _)
  share stack b owner provider _ h :=
    h.attached (h.stack_ge (owner, .control) (by simp)) .provider [] provider (by simp)
      (List.Subset.refl _)
  bind stack b owner role action events _ _ h :=
    h.attached (h.stack_ge (owner, role) (by simp)) .listed events action (by simp)
      (List.subset_cons_self _ _)

variable {builder : Builder} {owner : Nat} {path : String} {d : Declaration} {b : Build}

/-- The entity that a declaration is made into comes after all others and lists nothing yet. -/
lemma make?_eq_some {role : Role} {owner : Option Nat} {m : Made}
    (h : builder.make? role owner path d b = some m) :
    (m.index = b.tree.size ∧ m.role = role ∧ m.path = path ∧ m.declaration = d)
      ∧ (∃ id e, m.entered.tree = b.tree.insert e ∧ e.IsNew id role owner)
      ∧ b.problems <+: m.entered.problems := by
  cases d with
  | other => cases h
  | object own providers actions controls handlers =>
      obtain ⟨faults, hfaults, -⟩ := builder.enter_reported role owner path own b
      have hcases := builder.enter_cases role owner path own b
      rw [make?] at h
      cases hent : builder.enter role owner path own b with
      | mk entered index =>
          rw [hent] at h hcases hfaults
          rcases hcases with ⟨-, hi⟩ | ⟨id, e, ht, hi, he⟩
          · cases hi
            cases h
          · cases hi
            cases h
            exact ⟨⟨rfl, rfl, rfl, rfl⟩, ⟨id, e, ht, he⟩, _, hfaults.symm⟩

/-- The entity that a declaration is made into enters the tree in its role, and nothing is linked to
it. -/
lemma make?_isNew {role : Role} {owner : Option Nat} {m : Made}
    (h : builder.make? role owner path d b = some m) :
    ∃ id e, m.entered.tree.entity? m.index = some e ∧ e.IsNew id m.role owner := by
  obtain ⟨⟨hindex, hrole, -⟩, ⟨id, e, ht, he⟩, -⟩ := make?_eq_some h
  exact ⟨id, e, by rw [ht, hindex, Tree.entity?_insert_size], hrole ▸ he⟩

lemma make?_size {role : Role} {owner : Option Nat} {m : Made}
    (h : builder.make? role owner path d b = some m) : m.entered.tree.size = m.index + 1 := by
  obtain ⟨⟨hindex, -⟩, ⟨id, e, ht, -⟩, -⟩ := make?_eq_some h
  rw [ht, Tree.size_insert, hindex]

/-- What is done below an entity that has been made stays beneath it. -/
lemma beneath_fill {role : Role} {owner : Option Nat} {m : Made}
    (h : builder.make? role owner path d b = some m) :
    Build.Beneath m.index m.entered [(m.index, m.role)]
      (builder.fill m.index m.parts m.entered) := by
  obtain ⟨⟨hindex, hrole, hpath, hd⟩, ⟨id, e, ht, he⟩, -⟩ := make?_eq_some h
  have hsize := make?_size h
  have hsteps := builder.tracks_beneath m.index m.entered (by omega)
  have hstart : Build.Beneath m.index m.entered [(m.index, m.role)] m.entered :=
    ⟨by simp, by simp, le_rfl, fun _ _ => rfl, fun _ _ => rfl, fun i x hi hx => by
      have hlt := Tree.lt_size_iff.mpr ⟨x, hx⟩
      omega, List.prefix_refl _⟩
  rw [Made.parts]
  cases m.declaration with
  | other => exact hstart
  | object own providers actions controls handlers =>
      cases hm : m.role with
      | control =>
          rw [hm] at hstart
          rw [Declaration.parts, fill_append, fill_append, fill_append, ← controlListing_eq_fill,
            ← actionListing_eq_fill, ← handlerMap_eq_fill, ← providerListing_eq_fill]
          have h1 := hsteps.providerListing m.index [] m.path providers _ hstart
          have h2 := hsteps.actionSteps.handlerMap m.index .control [] m.path handlers _ h1
          have h3 := hsteps.actionSteps.actionListing m.index .control [] m.path actions _ h2
          exact hsteps.controlListing m.index [] m.path controls _ h3
      | dataProvider | action =>
          rw [hm] at hstart
          rw [Declaration.parts, fill_append, ← actionListing_eq_fill, ← handlerMap_eq_fill]
          have h1 := hsteps.actionSteps.handlerMap m.index _ [] m.path handlers _ hstart
          exact hsteps.actionSteps.actionListing m.index _ [] m.path actions _ h1

/-! ### One element -/

/-- An element becomes an entity: it adds this one below its owner, followed by what is nested in
it, and is linked to its owner.  Everything older is as it was, but for this link. -/
structure Adds (builder : Builder) (owner : Nat) (slot : Slot) (path : String) (d : Declaration)
    (b b' : Build) (m : Made) : Prop where
  made : builder.element? owner slot path d b = some m
  index_eq : m.index = b.tree.size
  entered : ∃ id e, m.entered.tree = b.tree.insert e ∧ e.IsNew id slot.role (some owner)
  /-- All parts of the element are settled, one after the other, and then the link is made. -/
  filled : b' = (builder.fill m.index m.parts m.entered).attach owner slot (slot.triggers d).2
    m.index
  /-- An action is bound to some event. -/
  triggered : slot.role = .action → (slot.triggers d).2 ≠ []
  linked : ∃ o, b.tree.entity? owner = some o
    ∧ b'.tree.entity? owner = some (o.attach slot (slot.triggers d).2 m.index)
  older : ∀ i < b.tree.size, i ≠ owner → b'.tree.entity? i = b.tree.entity? i
  size_lt : m.index < b'.tree.size
  bare_eq : (b'.tree.entity? m.index).map Entity.bare
    = (m.entered.tree.entity? m.index).map Entity.bare
  /-- What comes after the entity belongs to it or to something below it. -/
  nested : ∀ i e, m.index < i → b'.tree.entity? i = some e → ∃ p ∈ e.parent, m.index ≤ p
  problems : b.problems <+: b'.problems

/-- An element names a provider that is there already: this provider is linked once more, and
nothing else changes.  What the element declares beside the id is reported. -/
structure Refers (builder : Builder) (owner : Nat) (slot : Slot) (path : String) (d : Declaration)
    (b b' : Build) : Prop where
  slot_eq : slot = .provider
  made : builder.element? owner slot path d b = none
  found : ∃ own providers actions controls handlers text existing e,
    d = .object own providers actions controls handlers ∧ own.lookup "id" = some (.string text)
      ∧ b.tree.find? (Text.trim text) = some existing ∧ b.tree.entity? existing = some e
      ∧ e.role = .dataProvider ∧ b'.tree = (b.linkProvider owner existing).tree
  reported : ∃ faults : List BuildFault,
    b'.problems = b.problems ++ faults.map (BuildProblem.mk path)

/-- What becomes of a part: an element adds an entity, refers to one or fails, and never two of
these; what is malformed fails. -/
def Settles (builder : Builder) (owner : Nat) (b b' : Build) : Part → Prop
  | .refused path _ _ => Build.Fails path b b'
  | .element slot path d =>
    let adds := ∃ m, builder.Adds owner slot path d b b' m
    let refers := builder.Refers owner slot path d b b'
    let fails := builder.element? owner slot path d b = none ∧ Build.Fails path b b'
    (adds ∨ refers ∨ fails) ∧ ¬(adds ∧ refers) ∧ ¬(adds ∧ fails) ∧ ¬(refers ∧ fails)

/-- What an element refers to is a provider with the id that it names. -/
lemma exists_of_referred? {slot : Slot} {t : Tree} {existing : Nat}
    (h : slot.referred? t d = some existing) : slot = .provider
      ∧ ∃ own providers actions controls handlers text e,
        d = .object own providers actions controls handlers ∧ own.lookup "id" = some (.string text)
          ∧ t.find? (Text.trim text) = some existing ∧ t.entity? existing = some e
          ∧ e.role = .dataProvider := by
  unfold Slot.referred? at h
  split at h
  · rename_i own providers actions controls handlers
    rw [Builder.referred?] at h
    split at h
    · rename_i text htext
      split at h
      · rename_i index hfind
        split at h
        · rename_i e he
          split_ifs at h with hrole
          cases h
          exact ⟨rfl, own, providers, actions, controls, handlers, text, e, rfl, htext, hfind, he,
            hrole⟩
        · cases h
      · cases h
    · cases h
  · cases h

lemma make?_of_element? {slot : Slot} {m : Made}
    (h : builder.element? owner slot path d b = some m) :
    builder.make? slot.role (some owner) path d (b.report path (slot.triggers d).1) = some m := by
  rw [element?] at h
  split_ifs at h
  exact h

/-- An element that is made into an entity adds it. -/
lemma adds_of_made (ho : owner < b.tree.size) {slot : Slot} {m : Made}
    (htriggered : ¬ slot.Untriggered d) (hreferred : slot.referred? b.tree d = none)
    (hm : builder.make? slot.role (some owner) path d (b.report path (slot.triggers d).1)
      = some m) :
    builder.Adds owner slot path d b ((builder.fill m.index m.parts m.entered).attach owner slot
      (slot.triggers d).2 m.index) m := by
  obtain ⟨⟨hindex, hrole, -⟩, ⟨id, e, ht, he⟩, hproblems⟩ := make?_eq_some hm
  rw [Build.report_tree] at hindex ht
  have hbeneath := beneath_fill hm
  have hentered : m.index < m.entered.tree.size := by
    have := make?_size hm
    omega
  have hold : ∀ i < b.tree.size, (builder.fill m.index m.parts m.entered).tree.entity? i
      = b.tree.entity? i := fun i hi => by
    rw [hbeneath.older i (hindex ▸ hi), ht, Tree.entity?_insert_of_lt _ _ hi]
  exact
    { made := by
        rw [element?, if_neg (by simp [htriggered, hreferred]), hm]
      index_eq := hindex
      entered := ⟨id, e, ht, he⟩
      filled := rfl
      triggered := fun haction hevents => htriggered ⟨haction, hevents⟩
      linked := by
        obtain ⟨o, ho'⟩ := Tree.lt_size_iff.mp ho
        refine ⟨o, ho', ?_⟩
        rw [Build.attach_entity?, if_pos rfl, hold owner ho, ho', Option.map_some]
      older := fun i hi hne => by
        rw [Build.attach_entity?, if_neg (Ne.symm hne), hold i hi]
      size_lt := by
        rw [Build.attach_size]
        exact hentered.trans_le hbeneath.size_le
      bare_eq := (Build.attach_bare _ _ _ _ _ _).trans (hbeneath.bare_eq m.index hentered)
      nested := fun i x hi hx => by
        obtain ⟨x', hx', heq⟩ := Build.exists_of_attach hx
        rw [← heq]
        exact hbeneath.nested i x' hi hx'
      problems := by
        rw [Build.attach_problems]
        exact ((List.prefix_append _ _).trans hproblems).trans hbeneath.problems }

/-- A reference links the provider that it names. -/
lemma refers_of_referred {slot : Slot} {existing : Nat}
    (hreferred : slot.referred? b.tree d = some existing) :
    builder.Refers owner slot path d b (builder.settle owner b (.element slot path d)) := by
  obtain ⟨rfl, own, providers, actions, controls, handlers, text, e, rfl, htext, hfind, he,
    hrole⟩ := exists_of_referred? hreferred
  have hsettle : builder.settle owner b (.element .provider path
        (.object own providers actions controls handlers))
      = (b.report path (referenceFaults own)).linkProvider owner existing := by
    have hexisting : Builder.referred? b.tree own = some existing := hreferred
    rw [settle, if_neg (by simp [Slot.Untriggered, Slot.role]), walk, Slot.triggers,
      Build.report_nil, Builder.provider, hexisting]
    rfl
  rw [hsettle]
  exact
    { slot_eq := rfl
      made := by rw [element?, if_pos (.inr (by rw [hreferred]; rfl))]
      found := ⟨own, providers, actions, controls, handlers, text, existing, e, rfl, htext, hfind,
        he, hrole, rfl⟩
      reported := ⟨_, rfl⟩ }

/-- **An element adds an entity, refers to one, or fails.** -/
lemma element_cases (builder : Builder) (ho : owner < b.tree.size) (slot : Slot) (path : String)
    (d : Declaration) :
    (∃ m, builder.Adds owner slot path d b (builder.settle owner b (.element slot path d)) m)
      ∨ builder.Refers owner slot path d b (builder.settle owner b (.element slot path d))
      ∨ builder.element? owner slot path d b = none
        ∧ Build.Fails path b (builder.settle owner b (.element slot path d)) := by
  by_cases htriggered : slot.Untriggered d
  · refine .inr (.inr ⟨by rw [element?, if_pos (.inl htriggered)], ?_⟩)
    rw [settle, if_pos htriggered]
    exact (Build.fails_malformed _ _ _).of_report
  cases hreferred : slot.referred? b.tree d with
  | some existing => exact .inr (.inl (refers_of_referred hreferred))
  | none =>
      rw [settle, if_neg htriggered]
      have hwalked : builder.Walked slot.role (some owner) path d
          (b.report path (slot.triggers d).1) _ := walk_walked hreferred
      obtain ⟨m, hm, hwalk⟩ | ⟨hnone, hindex, hfails⟩ := hwalked
      · rw [hwalk]
        exact .inl ⟨m, adds_of_made ho htriggered hreferred hm⟩
      · refine .inr (.inr ⟨?_, ?_⟩)
        · rw [element?, if_neg (by simp [htriggered, hreferred]), hnone]
        · cases hresult : builder.walk owner slot path d (b.report path (slot.triggers d).1) with
          | mk b' index =>
              rw [hresult] at hindex hfails
              dsimp only at hindex hfails
              rw [hindex]
              exact hfails.of_report

/-- **What becomes of a part** below an entity of the tree. -/
theorem settles (builder : Builder) (ho : owner < b.tree.size) (part : Part) :
    builder.Settles owner b (builder.settle owner b part) part := by
  cases part with
  | refused path reason lost => exact b.fails_malformed path reason
  | element slot path d =>
      refine ⟨element_cases builder ho slot path d, ?_, ?_, ?_⟩
      · rintro ⟨⟨m, hadds⟩, hrefers⟩
        exact absurd (hadds.made.symm.trans hrefers.made) (by simp)
      · rintro ⟨⟨m, hadds⟩, hnone, -⟩
        exact absurd (hadds.made.symm.trans hnone) (by simp)
      · -- A reference lists the provider once more, so that the tree is not the same.
        rintro ⟨hrefers, -, hfails⟩
        obtain ⟨_, _, _, _, _, _, existing, _, -, -, -, -, -, ht⟩ := hrefers.found
        obtain ⟨o, ho⟩ := Tree.lt_size_iff.mp ho
        have hlisted := b.tree.entity?_modify_self owner fun e =>
          { e with dataProviders := e.dataProviders ++ [existing] }
        rw [hfails.tree_eq] at ht
        rw [show b.tree.modify owner _ = b.tree from ht.symm, ho, Option.map_some] at hlisted
        simpa using congrArg (Option.map Entity.dataProviders) hlisted

/-! ### All parts of an entity -/

/-- A part that has been settled leaves all older entities in their roles. -/
lemma settle_keeps (builder : Builder) (ho : owner < b.tree.size) (part : Part) :
    b.tree.size ≤ (builder.settle owner b part).tree.size
      ∧ ∀ i < b.tree.size, (builder.settle owner b part).tree.roleAt? i = b.tree.roleAt? i := by
  cases part with
  | refused path reason lost => exact ⟨le_rfl, fun _ _ => rfl⟩
  | element slot path d =>
      rcases builder.element_cases ho slot path d with ⟨m, hadds⟩ | hrefers | ⟨-, hfails⟩
      · refine ⟨hadds.index_eq ▸ hadds.size_lt.le, fun i hi => ?_⟩
        by_cases hi' : i = owner
        · obtain ⟨o, hbefore, hafter⟩ := hadds.linked
          have hbare := congrArg Entity.role (o.bare_attach slot (slot.triggers d).2 m.index)
          rw [hi', Tree.roleAt?, hafter, Tree.roleAt?, hbefore]
          exact congrArg some hbare
        · rw [Tree.roleAt?, hadds.older i hi hi', Tree.roleAt?]
      · obtain ⟨_, _, _, _, _, _, existing, _, -, -, -, -, -, ht⟩ := hrefers.found
        have hbare := b.attach_bare owner .provider [] existing
        rw [ht]
        exact ⟨(b.linkProvider_size owner existing).ge, fun i _ =>
          Tree.map_eq_of_bare (hbare i) Entity.role fun _ => rfl⟩
      · rw [hfails.tree_eq]
        exact ⟨le_rfl, fun _ _ => rfl⟩

lemma fill_keeps (builder : Builder) (ho : owner < b.tree.size) (parts : List Part) :
    b.tree.size ≤ (builder.fill owner parts b).tree.size
      ∧ ∀ i < b.tree.size, (builder.fill owner parts b).tree.roleAt? i = b.tree.roleAt? i := by
  induction parts generalizing b with
  | nil => exact ⟨le_rfl, fun _ _ => rfl⟩
  | cons part rest ih =>
      obtain ⟨hsize, hrole⟩ := builder.settle_keeps ho part
      obtain ⟨hsize', hrole'⟩ := ih (ho.trans_le hsize)
      exact ⟨hsize.trans hsize', fun i hi => (hrole' i (hi.trans_le hsize)).trans (hrole i hi)⟩

/-! ### The entities of a document -/

/-- The root of a document as it is made. -/
def root? (builder : Builder) (document : Document) : Option Made :=
  builder.make? .control none "view" (Declaration.ofJson (.object document.rootNode))
    { tree := { app := document.app, session := document.session } }

/-- The entities that the walk through a document makes: the root, and what is made of an element
below such an entity, when the parts before the element have been settled. -/
inductive Makes (builder : Builder) (document : Document) : Made → Prop
  | root {m : Made} (made : builder.root? document = some m) : builder.Makes document m
  | nested {owner m : Made} {before after : List Part} {slot : Slot} {path : String}
      {d : Declaration} (above : builder.Makes document owner)
      (parts : owner.parts = before ++ .element slot path d :: after)
      (made : builder.element? owner.index slot path d
        (builder.fill owner.index before owner.entered) = some m) : builder.Makes document m

/-- The build of a document is what the parts of its root leave, if there is a root. -/
lemma build_eq_fill (builder : Builder) (document : Document) :
    (builder.build document).tree.size = 0 ∨ ∃ m, builder.root? document = some m ∧ m.index = 0
      ∧ (builder.build document).problems = (builder.fill m.index m.parts m.entered).problems
      ∧ (builder.build document).tree
        = { (builder.fill m.index m.parts m.entered).tree with root := some m.index } := by
  have hroot := builder.control_walked none "view"
    (Declaration.ofJson (.object document.rootNode))
    { tree := { app := document.app, session := document.session } }
  rw [build]
  dsimp only
  obtain ⟨m, hm, hresult⟩ | ⟨-, hnone, hfails⟩ := hroot
  · rw [hresult]
    exact .inr ⟨m, hm, (make?_eq_some hm).1.1, rfl, rfl⟩
  · left
    split
    · rename_i heq
      rw [heq] at hnone
      cases hnone
    · rename_i heq
      rw [heq] at hfails
      rw [hfails.tree_eq]
      rfl

variable {document : Document} {m : Made}

/-- An entity that is made is the last one when it has entered. -/
lemma Makes.size_eq (h : builder.Makes document m) : m.entered.tree.size = m.index + 1 := by
  cases h with
  | root made => exact make?_size made
  | nested above parts made => exact make?_size (make?_of_element? made)

lemma Makes.index_lt (h : builder.Makes document m) : m.index < m.entered.tree.size := by
  rw [h.size_eq]
  exact m.index.lt_succ_self

/-- An entity that is made enters the tree in its role, and nothing is linked to it. -/
lemma Makes.exists_isNew (h : builder.Makes document m) : ∃ owner id e,
    m.entered.tree.entity? m.index = some e ∧ e.IsNew id m.role owner := by
  cases h with
  | root made => exact ⟨_, make?_isNew made⟩
  | nested above parts made => exact ⟨_, make?_isNew (make?_of_element? made)⟩

lemma Makes.roleAt?_eq (h : builder.Makes document m) :
    m.entered.tree.roleAt? m.index = some m.role := by
  obtain ⟨_, _, e, he, hnew⟩ := h.exists_isNew
  rw [Tree.roleAt?, he, Option.map_some, hnew.role_eq]

end Builder

/-! ### Declarations in declarations -/

lemma Part.mem_of_mem_items {slot slot' : Slot} {path path' : String} {position : Nat}
    {ds : List Declaration} {d : Declaration}
    (h : .element slot' path' d ∈ Part.items slot path position ds) : d ∈ ds := by
  obtain ⟨item, hitem, heq⟩ := List.mem_map.mp h
  cases heq
  exact List.fst_mem_of_mem_zipIdx hitem

lemma Listing.sizeOf_lt {slot slot' : Slot} {path path' key : String} {listing : Listing}
    {d : Declaration} (h : .element slot' path' d ∈ listing.parts slot path key) :
    sizeOf d < sizeOf listing := by
  cases listing with
  | absent => simp [parts] at h
  | malformed => simp [parts] at h
  | items ds =>
      have := List.sizeOf_lt_of_mem (Part.mem_of_mem_items h)
      simp only [items.sizeOf_spec]
      omega

lemma Handlers.sizeOf_lt {slot : Slot} {path path' : String} {handlers : Handlers}
    {d : Declaration} (h : .element slot path' d ∈ handlers.parts path) :
    sizeOf d < sizeOf handlers := by
  cases handlers with
  | absent | trigger _ | malformed => simp [parts] at h
  | entries bounds =>
      obtain ⟨⟨event, bound⟩, hentry, hpart⟩ := List.mem_flatMap.mp h
      have hsize := List.sizeOf_lt_of_mem hentry
      rw [entryParts] at hpart
      split at hpart
      · simp at hpart
      · cases bound with
        | malformed => simp [Bound.parts] at hpart
        | actions ds =>
            have := List.sizeOf_lt_of_mem (Part.mem_of_mem_items hpart)
            simp only [entries.sizeOf_spec, Prod.mk.sizeOf_spec, Bound.actions.sizeOf_spec]
              at hsize ⊢
            omega

/-- An element is smaller than the declaration that it is a part of. -/
lemma Declaration.sizeOf_lt {slot : Slot} {path path' : String} {role : Role} {d d' : Declaration}
    (h : .element slot path' d' ∈ d.parts role path) : sizeOf d' < sizeOf d := by
  cases d with
  | other => simp [parts] at h
  | object own providers actions controls handlers =>
      simp only [object.sizeOf_spec]
      cases role with
      | control =>
          simp only [parts, List.mem_append] at h
          obtain ((h | h) | h) | h := h
          · have := Listing.sizeOf_lt h
            omega
          · have := Handlers.sizeOf_lt h
            omega
          · have := Listing.sizeOf_lt h
            omega
          · have := Listing.sizeOf_lt h
            omega
      | dataProvider | action =>
          simp only [parts, List.mem_append] at h
          obtain h | h := h
          · have := Handlers.sizeOf_lt h
            omega
          · have := Listing.sizeOf_lt h
            omega

namespace Builder

/-! ### Nothing else is made -/

/-- The entities of a tree from an index on are made by the walk, in the roles that they have. -/
def Covers (builder : Builder) (document : Document) (first : Nat) (t : Tree) : Prop :=
  ∀ i, first ≤ i → i < t.size →
    ∃ m, builder.Makes document m ∧ m.index = i ∧ t.roleAt? i = some m.role

variable {builder : Builder} {document : Document}

lemma Covers.trans {first : Nat} {t u : Tree} (h : builder.Covers document first t)
    (hrole : ∀ i < t.size, u.roleAt? i = t.roleAt? i) (h' : builder.Covers document t.size u) :
    builder.Covers document first u := by
  intro i hge hlt
  by_cases hi : i < t.size
  · rw [hrole i hi]
    exact h i hge hi
  · exact h' i (not_lt.mp hi) hlt

lemma covers_of_size_le {first : Nat} {t : Tree} (h : t.size ≤ first) :
    builder.Covers document first t := fun i hge hlt => by omega

/-- What is below an entity is covered together with the entity. -/
lemma covers_made {m : Made} (hm : builder.Makes document m)
    (h : builder.Covers document m.entered.tree.size
      (builder.fill m.index m.parts m.entered).tree) :
    builder.Covers document m.index (builder.fill m.index m.parts m.entered).tree := by
  have hsize := hm.size_eq
  intro i hge hlt
  by_cases hi : i = m.index
  · have hkept := (builder.fill_keeps hm.index_lt m.parts).2 m.index hm.index_lt
    exact ⟨m, hm, hi.symm, by rw [hi, hkept, hm.roleAt?_eq]⟩
  · exact h i (by omega) hlt

/-- What an element adds is made by the walk if this is so below the entity that it becomes. -/
lemma covers_settle {owner : Made} {before after : List Part} {slot : Slot} {path : String}
    {d : Declaration} (howner : builder.Makes document owner)
    (hparts : owner.parts = before ++ .element slot path d :: after) {b : Build}
    (hb : builder.fill owner.index before owner.entered = b) (ho : owner.index < b.tree.size)
    (hbelow : ∀ m, builder.Makes document m → m.declaration = d →
      builder.Covers document m.entered.tree.size
        (builder.fill m.index m.parts m.entered).tree) :
    builder.Covers document b.tree.size
      (builder.settle owner.index b (.element slot path d)).tree := by
  rcases builder.element_cases ho slot path d with ⟨m, hadds⟩ | hrefers | ⟨-, hfails⟩
  · have hm : builder.Makes document m := .nested howner hparts (hb ▸ hadds.made)
    have hdeclaration := (make?_eq_some (make?_of_element? hadds.made)).1.2.2.2
    have hcovers := covers_made hm (hbelow m hm hdeclaration)
    rw [← hadds.index_eq, hadds.filled]
    intro i hge hlt
    rw [Build.attach_size] at hlt
    obtain ⟨m', hm', hindex, hrole⟩ := hcovers i hge hlt
    refine ⟨m', hm', hindex, ?_⟩
    rw [← hrole]
    exact Tree.map_eq_of_bare (Build.attach_bare _ _ _ _ _ _) Entity.role fun _ => rfl
  · obtain ⟨_, _, _, _, _, _, existing, _, -, -, -, -, -, ht⟩ := hrefers.found
    rw [ht]
    exact covers_of_size_le (b.linkProvider_size owner.index existing).le
  · rw [hfails.tree_eq]
    exact covers_of_size_le le_rfl

/-- All that is new below an entity is made by the walk.  The induction is on the declaration, and
inside it along the parts. -/
theorem covers_fill {m : Made} (hm : builder.Makes document m) {before rest : List Part}
    (hparts : m.parts = before ++ rest) :
    builder.Covers document (builder.fill m.index before m.entered).tree.size
      (builder.fill m.index m.parts m.entered).tree := by
  induction hsize : sizeOf m.declaration using Nat.strong_induction_on
    generalizing m before rest with
  | _ size ih =>
  induction rest generalizing before with
  | nil =>
      rw [hparts, List.append_nil]
      exact covers_of_size_le le_rfl
  | cons part rest ihrest =>
      obtain ⟨b, hb⟩ : ∃ b, builder.fill m.index before m.entered = b := ⟨_, rfl⟩
      have ho : m.index < b.tree.size := by
        rw [← hb]
        exact hm.index_lt.trans_le (builder.fill_keeps hm.index_lt before).1
      have hparts' : m.parts = (before ++ [part]) ++ rest := by
        rw [hparts, List.append_assoc, List.singleton_append]
      have hlater := ihrest hparts'
      have hsettle := (builder.settle_keeps ho part).1
      rw [fill_append, fill_cons, fill_nil, hb] at hlater
      rw [hb]
      refine Covers.trans (t := (builder.settle m.index b part).tree) ?_ (fun i hi => ?_) hlater
      · cases part with
        | refused path reason lost => exact covers_of_size_le le_rfl
        | element slot path d =>
            have hd : sizeOf d < size := by
              have hmem : .element slot path d ∈ m.declaration.parts m.role m.path := by
                rw [← Made.parts, hparts]
                simp
              rw [← hsize]
              exact Declaration.sizeOf_lt hmem
            exact covers_settle hm hparts hb ho fun m' hm' hdeclaration =>
              ih (sizeOf d) hd hm' (List.nil_append m'.parts).symm (by rw [hdeclaration])
      · rw [hparts', fill_append, fill_append, fill_cons, fill_nil, hb]
        exact (builder.fill_keeps (ho.trans_le hsettle) rest).2 i hi

end Builder

/-! ### Documents -/

/-- **What becomes of every element of a document.**  Every part of every entity that the walk makes
settles: an element adds one entity of its own and is linked, or refers to a provider that is
there, or fails without a trace in the tree, whatever its siblings are.  The entities that are made
are those of the tree, and the build is what the parts of the root leave. -/
theorem Document.build_elements (document : Document) (catalog : Catalog) (evaluator : Evaluator)
    (dispatch : DispatchConfig) :
    let builder : Builder :=
      { catalog, evaluator, styles := document.styles
        defaultDelay := 1000 * dispatch.defaultDelay }
    let built := document.build catalog evaluator dispatch
    (∀ m, builder.Makes document m → ∀ before part after, m.parts = before ++ part :: after →
        builder.Settles m.index (builder.fill m.index before m.entered)
          (builder.fill m.index (before ++ [part]) m.entered) part)
      ∧ (∀ i e, built.tree.entity? i = some e →
        ∃ m, builder.Makes document m ∧ m.index = i ∧ m.role = e.role)
      ∧ (built.tree.size = 0 ∨ ∃ m, builder.root? document = some m ∧ m.index = 0
        ∧ built.problems = (builder.fill m.index m.parts m.entered).problems
        ∧ built.tree
          = { (builder.fill m.index m.parts m.entered).tree with root := some m.index }) := by
  intro builder built
  have hbuilt := builder.build_eq_fill document
  refine ⟨fun m hm before part after hparts => ?_, fun i e he => ?_, hbuilt⟩
  · rw [Builder.fill_append, Builder.fill_cons, Builder.fill_nil]
    refine builder.settles ?_ part
    exact hm.index_lt.trans_le (builder.fill_keeps hm.index_lt before).1
  · have hi : i < built.tree.size := Tree.lt_size_iff.mpr ⟨e, he⟩
    obtain hempty | ⟨m, hm, hindex, -, htree⟩ := hbuilt
    · exact absurd (show built.tree.size = 0 from hempty) (by omega)
    have htree : built.tree = _ := htree
    have hmade : builder.Makes document m := .root hm
    have hcovers := Builder.covers_made hmade <| by
      have hbelow := Builder.covers_fill hmade (List.nil_append m.parts).symm
      rwa [Builder.fill_nil] at hbelow
    rw [htree] at he hi
    obtain ⟨m', hm', hindex', hrole⟩ := hcovers i (by omega) hi
    refine ⟨m', hm', hindex', Option.some.inj (hrole.symm.trans ?_)⟩
    exact congrArg (Option.map Entity.role) he

/-- A control with a data provider, a reference to it, and a value that declares nothing. -/
def shelf : Document where
  members := [("id", .string "screen"), ("dataProviders", .array
    [.object [("id", .string "feed")], .object [("id", .string "feed")], .number (.int 5)])]

/-- The first element adds an entity, the second one refers to it, and the third one fails. -/
theorem Document.build_elements_shelf :
    let catalog : Catalog := ⟨.empty .strict⟩
    let builder : Builder :=
      { catalog, evaluator := .standard, styles := shelf.styles, defaultDelay := 0 }
    let built := shelf.build catalog .standard {}
    let part (position : Nat) (d : Declaration) : Part :=
      .element .provider (Builder.itemPath "view/dataProviders" position) d
    let named : Declaration := .object [("id", .string "feed")] .absent .absent .absent .absent
    ∃ m, builder.Makes shelf m ∧ m.parts = [part 0 named, part 1 named, part 2 .other]
      ∧ builder.Settles 0 m.entered (builder.fill 0 [part 0 named] m.entered) (part 0 named)
      ∧ builder.Settles 0 (builder.fill 0 [part 0 named] m.entered)
        (builder.fill 0 [part 0 named, part 1 named] m.entered) (part 1 named)
      ∧ builder.Settles 0 (builder.fill 0 [part 0 named, part 1 named] m.entered)
        (builder.fill 0 [part 0 named, part 1 named, part 2 .other] m.entered) (part 2 .other)
      ∧ built.tree.size = 2 ∧ (built.tree.entity? 0).map Entity.dataProviders = some [1, 1]
      ∧ built.problems = [⟨"view/dataProviders[2]",
        .malformed "data provider declarations must be objects"⟩] := by
  intro catalog builder built part named
  have hroot : (builder.root? shelf).isSome := by decide +kernel
  obtain ⟨m, hm⟩ := Option.isSome_iff_exists.mp hroot
  obtain ⟨⟨hindex, hrole, hpath, hd⟩, -⟩ := Builder.make?_eq_some hm
  have hindex : m.index = 0 := hindex
  have hparts : m.parts = [part 0 named, part 1 named, part 2 .other] := by
    rw [Made.parts, hrole, hpath, hd]
    rfl
  have hsettles := (shelf.build_elements catalog .standard {}).1 m (.root hm)
  rw [hindex] at hsettles
  refine ⟨m, .root hm, hparts, hsettles [] _ _ hparts, hsettles [part 0 named] _ _ hparts,
    hsettles [part 0 named, part 1 named] _ _ hparts, ?_⟩
  decide +kernel

/-- A data provider with a list of child controls. -/
def stray : Document where
  members := [("id", .string "screen"), ("dataProviders", .array
    [.object [("id", .string "feed"), ("controls", .array [.number (.int 5)])]])]

/-- The one child control of the provider is lost without a report. -/
theorem Document.build_elements_stray :
    let catalog : Catalog := ⟨.empty .strict⟩
    let builder : Builder :=
      { catalog, evaluator := .standard, styles := stray.styles, defaultDelay := 0 }
    let built := stray.build catalog .standard {}
    (∃ m own, builder.Makes stray m ∧ m.index = 1 ∧ m.role = .dataProvider
        ∧ m.declaration = .object own .absent .absent (.items [.other]) .absent)
      ∧ built.tree.size = 2 ∧ (built.tree.entity? 1).map Entity.controls = some []
      ∧ built.problems = [] := by
  intro catalog builder built
  have hroot : (builder.root? stray).isSome := by decide +kernel
  let own : Attributes := [("id", .string "feed"), ("controls", .array [.number (.int 5)])]
  let d : Declaration := .object own .absent .absent (.items [.other]) .absent
  have hprovider : ((builder.root? stray).bind fun root =>
      builder.element? root.index .provider "view/dataProviders[0]" d root.entered).isSome := by
    decide +kernel
  obtain ⟨m, hm⟩ := Option.isSome_iff_exists.mp hprovider
  obtain ⟨root, hroot, hm⟩ := Option.bind_eq_some_iff.mp hm
  obtain ⟨⟨hindex, hrole, hpath, hd⟩, -⟩ := Builder.make?_eq_some hroot
  obtain ⟨⟨hindex', hrole', -, hd'⟩, -⟩ := Builder.make?_eq_some (Builder.make?_of_element? hm)
  have hparts : root.parts = [] ++ .element .provider "view/dataProviders[0]" d :: [] := by
    rw [Made.parts, hrole, hpath, hd]
    rfl
  refine ⟨⟨m, own, .nested (.root hroot) hparts hm, ?_, hrole', hd'⟩, ?_⟩
  · have hzero : root.index = 0 := hindex
    rw [hindex', Build.report_tree, Builder.make?_size hroot, hzero]
  · decide +kernel

end Componentry
