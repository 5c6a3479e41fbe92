import Mathlib.Tactic
import Componentry.Proofs.Build.Elements
import Componentry.Proofs.Build.Sound
/-!
# Who has which id

A declaration that asks for an id gets it, even if another entity is addressed by it; any other
declaration gets the first free id after the last one that was generated for its role
(`Build.IsNext`).  What a build knows of ids is never taken back as the walk goes on
(`Build.Leads`).

`Builder.Traces` lists the entities that come of the parts below an owner, in the order in which
they enter the tree.  `Document.exists_traces` lists those of a document: they are the entities that
the walk makes, their indices count up from zero, and each follows all that come before it
(`Made.Follows`), so that the generated ordinals of a role go up.  `Document.build_ids` puts it
together.
-/

namespace Componentry

/-- The id that a declaration asks for; a blank one is none. -/
def Declaration.id? : Declaration → Option String
  | .other => none
  | .object own _ _ _ _ =>
    match own.lookup "id" with
    | some (.string text) => if Text.trim text = "" then none else some (Text.trim text)
    | _ => none

namespace Build

/-! ### Generated ids -/

/-- The ordinal that was generated last for a role. -/
def last (b : Build) (role : Role) : Nat := (b.ordinals.lookup role).getD 0

/-- An ordinal is the next one of a role: the first one after the last whose id is free.  It is not
further away than there are ids. -/
structure IsNext (b : Build) (role : Role) (n : Nat) : Prop where
  last_lt : b.last role < n
  le : n ≤ b.last role + 1 + b.tree.ids.length
  free : b.tree.isTaken (generatedId role n) = false
  taken : ∀ k, b.last role < k → k < n → b.tree.isTaken (generatedId role k) = true

variable {b b' c : Build}

lemma le_freeOrdinal (t : Tree) (role : Role) (taken ordinal : Nat) :
    ordinal ≤ freeOrdinal t role taken ordinal
      ∧ freeOrdinal t role taken ordinal ≤ ordinal + taken := by
  induction taken generalizing ordinal with
  | zero => exact ⟨le_rfl, le_rfl⟩
  | succ taken ih =>
      rw [freeOrdinal]
      split_ifs
      · obtain ⟨hge, hle⟩ := ih (ordinal + 1)
        exact ⟨by omega, by omega⟩
      · exact ⟨le_rfl, by omega⟩

/-- What the search passes over is taken. -/
lemma isTaken_of_lt_freeOrdinal {t : Tree} {role : Role} {taken ordinal k : Nat}
    (hge : ordinal ≤ k) (hlt : k < freeOrdinal t role taken ordinal) :
    t.isTaken (generatedId role k) = true := by
  induction taken generalizing ordinal with
  | zero => exact absurd (hge.trans_lt hlt) (lt_irrefl ordinal)
  | succ taken ih =>
      rw [freeOrdinal] at hlt
      split_ifs at hlt with hfirst
      · obtain rfl | hge := hge.eq_or_lt
        · exact hfirst
        · exact ih hge hlt
      · exact absurd (hge.trans_lt hlt) (lt_irrefl ordinal)

/-- Generation comes to an end: there is a next ordinal, and it is taken. -/
lemma generate_isNext (b : Build) (role : Role) : ∃ n, b.IsNext role n
    ∧ b.generate role
      = ({ b with ordinals := b.ordinals.insert role n }, generatedId role n) := by
  obtain ⟨hge, hle⟩ := le_freeOrdinal b.tree role b.tree.ids.length (b.last role + 1)
  refine ⟨freeOrdinal b.tree role b.tree.ids.length (b.last role + 1), ?_, rfl⟩
  exact ⟨hge, hle, freeOrdinal_free b.tree role _, fun k hk hlt => isTaken_of_lt_freeOrdinal hk hlt⟩

/-! ### Nothing is taken back -/

/-- Linking registers no id. -/
lemma attach_ids (b : Build) (owner : Nat) (slot : Slot) (events : List EventName) (index : Nat) :
    (b.attach owner slot events index).tree.ids = b.tree.ids := by
  have hbind : (b.bind owner index events).tree.ids = b.tree.ids :=
    bind_induction (P := fun c => c.tree.ids = b.tree.ids) (fun _ _ _ hc => hc) rfl
  cases slot with
  | control | provider => rfl
  | listed | bound _ => exact hbind

lemma attach_ordinals (b : Build) (owner : Nat) (slot : Slot) (events : List EventName)
    (index : Nat) : (b.attach owner slot events index).ordinals = b.ordinals := by
  cases slot <;> rfl

/-- What was known of ids in a build is known in a later one, and its ordinals do not fall. -/
structure Leads (b b' : Build) : Prop where
  size_le : b.tree.size ≤ b'.tree.size
  idAt?_eq : ∀ i < b.tree.size, b'.tree.idAt? i = b.tree.idAt? i
  roleAt?_eq : ∀ i < b.tree.size, b'.tree.roleAt? i = b.tree.roleAt? i
  find? : ∀ id i, b.tree.find? id = some i → b'.tree.find? id = some i
  last_le : ∀ role, b.last role ≤ b'.last role
  problems : b.problems ⊆ b'.problems
  sound : b.tree.Sound → b'.tree.Sound

namespace Leads

lemma refl (b : Build) : b.Leads b :=
  ⟨le_rfl, fun _ _ => rfl, fun _ _ => rfl, fun _ _ h => h, fun _ => le_rfl, List.Subset.refl _,
    fun h => h⟩

lemma trans (h : b.Leads b') (h' : b'.Leads c) : b.Leads c where
  size_le := h.size_le.trans h'.size_le
  idAt?_eq i hi := (h'.idAt?_eq i (hi.trans_le h.size_le)).trans (h.idAt?_eq i hi)
  roleAt?_eq i hi := (h'.roleAt?_eq i (hi.trans_le h.size_le)).trans (h.roleAt?_eq i hi)
  find? id i hi := h'.find? id i (h.find? id i hi)
  last_le role := (h.last_le role).trans (h'.last_le role)
  problems := List.Subset.trans h.problems h'.problems
  sound hs := h'.sound (h.sound hs)

/-- A build that differs in reports and in ordinals only. -/
lemma of_tree_eq (ht : b'.tree = b.tree) (hlast : ∀ role, b.last role ≤ b'.last role)
    (hp : b.problems ⊆ b'.problems) : b.Leads b' where
  size_le := by rw [ht]
  idAt?_eq i _ := by rw [ht]
  roleAt?_eq i _ := by rw [ht]
  find? id i hi := by rw [ht, hi]
  last_le := hlast
  problems := hp
  sound hs := by
    rw [ht]
    exact hs

lemma report (b : Build) (path : String) (faults : List BuildFault) :
    b.Leads (b.report path faults) :=
  of_tree_eq rfl (fun _ => le_rfl) (List.subset_append_left _ _)

lemma malformed (b : Build) (path reason : String) : b.Leads (b.malformed path reason) :=
  report b path _

lemma generate (b : Build) (role : Role) : b.Leads (b.generate role).1 := by
  obtain ⟨n, hn, hgenerate⟩ := b.generate_isNext role
  rw [hgenerate]
  refine of_tree_eq rfl (fun other => ?_) (List.Subset.refl _)
  rw [last, last, Keyed.lookup_insert]
  split_ifs with h
  · rw [← h]
    exact hn.last_lt.le
  · exact le_rfl

lemma claim (b : Build) (role : Role) (path : String) (own : Attributes) :
    b.Leads (b.claim role path own).1 := by
  rw [Build.claim]
  split
  · exact generate b role
  · dsimp only
    split_ifs
    · exact generate b role
    · exact report b path _
    · exact refl b
  · exact (malformed b path _).trans (generate _ role)

/-- A new entity without bindings. -/
lemma insert (b : Build) {e : Entity} (he : e.bindings = []) : b.Leads (b.insert e).1 where
  size_le := by
    rw [Build.insert, Tree.size_insert]
    exact Nat.le_succ _
  idAt?_eq i hi := by
    rw [Build.insert, Tree.idAt?_insert, if_neg hi.ne]
  roleAt?_eq i hi := by
    rw [Build.insert, Tree.roleAt?, Tree.entity?_insert_of_lt _ _ hi, Tree.roleAt?]
  find? id i hi := by
    rw [Build.insert, Tree.find?_insert, if_neg, hi]
    rintro ⟨hnone, rfl⟩
    rw [hi] at hnone
    cases hnone
  last_le _ := le_rfl
  problems := List.Subset.refl _
  sound hs := hs.insert he

/-- A declaration that is entered. -/
lemma enter (b : Build) (builder : Builder) (role : Role) (owner : Option Nat) (path : String)
    (own : Attributes) : b.Leads (builder.enter role owner path own b).1 := by
  have hclaim := claim b role path own
  rw [Builder.enter]
  dsimp only
  split
  · exact hclaim.trans (report _ path _)
  · rename_i hd
    have hnew := Builder.describe_isNew hd
    exact (hclaim.trans (report _ path _)).trans (insert _ hnew.bindings_eq)

/-- A link to an entity of the tree. -/
lemma attach (b : Build) (owner : Nat) (slot : Slot) (events : List EventName) {index : Nat}
    (h : index < b.tree.size) : b.Leads (b.attach owner slot events index) where
  size_le := (b.attach_size owner slot events index).ge
  idAt?_eq i _ :=
    Tree.map_eq_of_bare (b.attach_bare owner slot events index i) Entity.id fun _ => rfl
  roleAt?_eq i _ :=
    Tree.map_eq_of_bare (b.attach_bare owner slot events index i) Entity.role fun _ => rfl
  find? id i hi := by
    rw [Tree.find?, attach_ids]
    exact hi
  last_le role := by
    rw [last, last, attach_ordinals]
  problems := by
    rw [attach_problems]
    exact List.Subset.refl _
  sound hs := by
    cases slot with
    | control | provider => exact hs.modify owner (fun _ => rfl) fun _ _ hb => .inl hb
    | listed | bound _ =>
        refine (bind_induction (P := fun c => index < c.tree.size ∧ c.tree.Sound)
          (fun c event _ hc => ⟨?_, hc.2.bind owner hc.1⟩) ⟨h, hs⟩).2
        rw [bind_size]
        exact hc.1

end Leads

end Build

/-! ### Entities with their ids -/

/-- The ids of an entity that has just entered: the one that its declaration asks for, or else the
next generated one of its role. -/
structure Made.Named (m : Made) (b : Build) : Prop where
  index_eq : m.index = b.tree.size
  size_eq : m.entered.tree.size = m.index + 1
  leads : b.Leads m.entered
  /-- A declared id is kept; if it is taken it is reported. -/
  declared : ∀ id ∈ m.declaration.id?, m.entered.tree.idAt? m.index = some id
    ∧ (b.tree.isTaken id = true → ⟨m.path, .duplicateId id⟩ ∈ m.entered.problems)
    ∧ (b.tree.isTaken id = false → m.entered.tree.find? id = some m.index)
  generated : m.declaration.id? = none → ∃ n, b.IsNext m.role n ∧ m.entered.last m.role = n
    ∧ m.entered.tree.idAt? m.index = some (Build.generatedId m.role n)
    ∧ m.entered.tree.find? (Build.generatedId m.role n) = some m.index

/-- An entity that has entered comes after a build: nothing of the build is taken back, and if the
id of the entity was generated, its ordinal is greater than that of its role until then. -/
structure Made.Follows (m : Made) (b : Build) : Prop where
  leads : b.Leads m.entered
  last_lt : m.declaration.id? = none → b.last m.role < m.entered.last m.role

namespace Made

variable {m : Made} {b b' : Build}

lemma Follows.of_leads (h : m.Follows b') (hleads : b.Leads b') : m.Follows b :=
  ⟨hleads.trans h.leads, fun hnone => (hleads.last_le m.role).trans_lt (h.last_lt hnone)⟩

lemma Named.index_lt (h : m.Named b) : m.index < m.entered.tree.size := by
  rw [h.size_eq]
  exact m.index.lt_succ_self

lemma Named.follows (h : m.Named b) : m.Follows b := by
  refine ⟨h.leads, fun hnone => ?_⟩
  obtain ⟨n, hnext, hlast, -⟩ := h.generated hnone
  rw [hlast]
  exact hnext.last_lt

end Made

namespace Build

variable {b : Build}

lemma claim_of_id? {role : Role} {path id : String} {own : Attributes}
    {providers actions controls : Listing} {handlers : Handlers}
    (h : (Declaration.object own providers actions controls handlers).id? = some id) :
    b.claim role path own
      = (if b.tree.isTaken id then b.report path [.duplicateId id] else b, id) := by
  rw [Declaration.id?] at h
  rw [claim]
  split at h
  · rename_i text htext
    split_ifs at h with hblank
    cases h
    rw [htext]
    dsimp only
    rw [if_neg hblank]
    split_ifs <;> rfl
  · cases h

lemma claim_of_id?_none (b : Build) (role : Role) (path : String) {own : Attributes}
    {providers actions controls : Listing} {handlers : Handlers}
    (h : (Declaration.object own providers actions controls handlers).id? = none) :
    ∃ faults, b.claim role path own = (b.report path faults).generate role := by
  rw [Declaration.id?] at h
  rw [claim]
  split at h
  · rename_i text htext
    split_ifs at h with hblank
    rw [htext]
    dsimp only
    rw [if_pos hblank]
    exact ⟨[], by rw [report_nil]⟩
  · rename_i hne
    split
    · exact ⟨[], by rw [report_nil]⟩
    · rename_i text htext
      exact absurd htext (hne text)
    · exact ⟨_, rfl⟩

end Build

namespace Builder

variable {builder : Builder} {owner : Nat} {path : String} {d : Declaration} {b : Build}

/-- How an entity enters: its id is claimed, faults are reported, and it is put into the tree. -/
lemma make?_enters {role : Role} {owner : Option Nat} {m : Made}
    (h : builder.make? role owner path d b = some m) :
    ∃ own providers actions controls handlers faults e,
      d = .object own providers actions controls handlers
        ∧ e.IsNew (b.claim role path own).2 role owner
        ∧ m.entered = (((b.claim role path own).1.report path faults).insert e).1 := by
  cases d with
  | other => cases h
  | object own providers actions controls handlers =>
      rw [make?] at h
      cases hent : builder.enter role owner path own b with
      | mk entered index =>
          rw [hent] at h
          cases index with
          | none => cases h
          | some index =>
              cases h
              rw [enter] at hent
              dsimp only at hent
              split at hent
              · cases hent
              · rename_i faults e hd
                cases hent
                exact ⟨own, providers, actions, controls, handlers, faults, e, rfl,
                  describe_isNew hd, rfl⟩

/-- An entity that has entered is named. -/
lemma make?_named {role : Role} {owner : Option Nat} {m : Made}
    (h : builder.make? role owner path d b = some m) : m.Named b := by
  obtain ⟨⟨hindex, rfl, rfl, rfl⟩, -⟩ := make?_eq_some h
  obtain ⟨own, providers, actions, controls, handlers, faults, e, hd, he, hentered⟩ :=
    make?_enters h
  obtain ⟨claimed, id, hclaim⟩ : ∃ claimed id, b.claim m.role m.path own = (claimed, id) :=
    ⟨_, _, rfl⟩
  have htree := b.claim_size m.role m.path own
  have hleads := Build.Leads.claim b m.role m.path own
  rw [hclaim] at he hentered htree hleads
  have hid : m.entered.tree.idAt? m.index = some id := by
    rw [hentered, Build.insert, Build.report_tree, htree, Tree.idAt?_insert, if_pos hindex,
      he.id_eq]
  have hfind : b.tree.isTaken id = false → m.entered.tree.find? id = some m.index := by
    intro hfree
    rw [hentered, Build.insert, Build.report_tree, htree, Tree.find?_insert, he.id_eq, if_pos,
      hindex]
    simpa [Tree.isTaken, Keyed.contains, Tree.find?] using hfree
  refine ⟨hindex, make?_size h, ?_, fun given hgiven => ?_, fun hnone => ?_⟩
  · rw [hentered]
    exact (hleads.trans (Build.Leads.report _ _ _)).trans (Build.Leads.insert _ he.bindings_eq)
  · rw [hd] at hgiven
    rw [Build.claim_of_id? hgiven] at hclaim
    cases hclaim
    refine ⟨hid, fun htaken => ?_, hfind⟩
    rw [hentered, if_pos htaken]
    simp [Build.insert, Build.report]
  · rw [hd] at hnone
    obtain ⟨reported, hgenerate⟩ := b.claim_of_id?_none m.role m.path hnone
    obtain ⟨n, hnext, hn⟩ := (b.report m.path reported).generate_isNext m.role
    rw [hgenerate, hn] at hclaim
    cases hclaim
    refine ⟨n, ⟨hnext.last_lt, hnext.le, hnext.free, hnext.taken⟩, ?_, hid, hfind hnext.free⟩
    rw [hentered]
    exact congrArg (Option.getD · 0) (Keyed.lookup_insert_self _ _ _)

/-! ### The entities that come of parts -/

/-- The entity that a part is made into. -/
def made? (builder : Builder) (owner : Nat) (b : Build) : Part → Option Made
  | .refused _ _ _ => none
  | .element slot path d => builder.element? owner slot path d b

/-- An element that is not made into an entity takes nothing back. -/
lemma leads_walk_of_make?_none {slot : Slot} (hreferred : slot.referred? b.tree d = none)
    (h : builder.make? slot.role (some owner) path d b = none) :
    b.Leads (builder.walk owner slot path d b).1
      ∧ (builder.walk owner slot path d b).2 = none := by
  cases d with
  | other => cases slot <;> exact ⟨Build.Leads.malformed b path _, rfl⟩
  | object own providers actions controls handlers =>
      have hleads := Build.Leads.enter b builder slot.role (some owner) path own
      rw [make?] at h
      cases hent : builder.enter slot.role (some owner) path own b with
      | mk entered index =>
          rw [hent] at h hleads
          cases index with
          | some index => cases h
          | none =>
              rw [walk_object hreferred, hent]
              exact ⟨hleads, rfl⟩

/-- A part that no entity is made of adds none and takes nothing back. -/
lemma settle_of_made?_none (ho : owner < b.tree.size) {part : Part}
    (h : builder.made? owner b part = none) :
    b.Leads (builder.settle owner b part)
      ∧ (builder.settle owner b part).tree.size = b.tree.size := by
  cases part with
  | refused path reason lost => exact ⟨Build.Leads.malformed b path reason, rfl⟩
  | element slot path d =>
      have hnone : builder.element? owner slot path d b = none := h
      have hreport := Build.Leads.report b path (slot.triggers d).1
      refine ⟨?_, ?_⟩
      · rw [settle]
        split_ifs with htriggered
        · exact hreport.trans (Build.Leads.malformed _ _ _)
        cases hreferred : slot.referred? b.tree d with
        | some existing =>
            obtain ⟨rfl, own, _, _, _, _, text, e, rfl, -, -, he, -⟩ :=
              exists_of_referred? hreferred
            have hexisting : Builder.referred? (b.report path []).tree own = some existing :=
              hreferred
            rw [Slot.triggers, walk, Builder.provider, hexisting]
            refine (hreport.trans (Build.Leads.report _ path (referenceFaults own))).trans ?_
            exact Build.Leads.attach _ owner .provider [] (Tree.lt_size_iff.mpr ⟨e, he⟩)
        | none =>
            rw [element?, if_neg (by simp [htriggered, hreferred])] at hnone
            obtain ⟨hwalk, hindex⟩ := leads_walk_of_make?_none (by exact hreferred) hnone
            cases hresult : builder.walk owner slot path d (b.report path (slot.triggers d).1) with
            | mk b' index =>
                rw [hresult] at hwalk hindex
                dsimp only at hindex
                rw [hindex]
                exact hreport.trans hwalk
      · obtain ⟨m, hadds⟩ | hrefers | ⟨-, hfails⟩ := builder.element_cases ho slot path d
        · rw [hadds.made] at hnone
          cases hnone
        · obtain ⟨_, _, _, _, _, _, existing, _, -, -, -, -, -, ht⟩ := hrefers.found
          rw [ht, Build.linkProvider_size]
        · rw [hfails.tree_eq]

/-- A part that an entity is made of: the entity is named, its own parts are settled, and it is
linked. -/
lemma settle_of_made?_some (ho : owner < b.tree.size) {part : Part} {m : Made}
    (h : builder.made? owner b part = some m) : m.Named b
      ∧ ∃ slot events, builder.settle owner b part
        = (builder.fill m.index m.parts m.entered).attach owner slot events m.index := by
  cases part with
  | refused path reason lost => cases h
  | element slot path d =>
      have hsome : builder.element? owner slot path d b = some m := h
      obtain ⟨m', hadds⟩ | hrefers | ⟨hnone, -⟩ := builder.element_cases ho slot path d
      · cases hadds.made.symm.trans hsome
        have hnamed := make?_named (make?_of_element? hsome)
        refine ⟨⟨hnamed.index_eq, hnamed.size_eq,
          (Build.Leads.report b path _).trans hnamed.leads, hnamed.declared, fun hnone => ?_⟩,
          slot, _, hadds.filled⟩
        obtain ⟨n, hnext, hlast⟩ := hnamed.generated hnone
        exact ⟨n, ⟨hnext.last_lt, hnext.le, hnext.free, hnext.taken⟩, hlast⟩
      · cases hrefers.made.symm.trans hsome
      · cases hnone.symm.trans hsome

/-- The entities that come of parts below an owner, in the order in which they enter the tree: each
is followed by what comes of its own parts. -/
inductive Traces (builder : Builder) : Nat → List Part → Build → List Made → Prop
  | nil (owner : Nat) (b : Build) : builder.Traces owner [] b []
  | skip {owner : Nat} {b : Build} {part : Part} {rest : List Part} {later : List Made}
      (none : builder.made? owner b part = none)
      (after : builder.Traces owner rest (builder.settle owner b part) later) :
      builder.Traces owner (part :: rest) b later
  | made {owner : Nat} {b : Build} {part : Part} {rest : List Part} {m : Made}
      {below later : List Made} (some : builder.made? owner b part = some m)
      (inside : builder.Traces m.index m.parts m.entered below)
      (after : builder.Traces owner rest (builder.settle owner b part) later) :
      builder.Traces owner (part :: rest) b (m :: below ++ later)

/-- There is always such a list.  The induction is on the declarations, and inside it along the
parts. -/
lemma exists_traces (builder : Builder) (size owner : Nat) (parts : List Part) (b : Build)
    (h : ∀ slot path d, .element slot path d ∈ parts → sizeOf d < size) :
    ∃ ms, builder.Traces owner parts b ms := by
  induction size using Nat.strong_induction_on generalizing owner parts b with
  | _ size ih =>
  induction parts generalizing b with
  | nil => exact ⟨[], .nil owner b⟩
  | cons part rest ihrest =>
      obtain ⟨later, hlater⟩ := ihrest (builder.settle owner b part) fun slot path d hd =>
        h slot path d (List.mem_cons_of_mem part hd)
      cases hmade : builder.made? owner b part with
      | none => exact ⟨later, .skip hmade hlater⟩
      | some m =>
          cases part with
          | refused path reason lost => cases hmade
          | element slot path d =>
              have hd := (make?_eq_some (make?_of_element? hmade)).1.2.2.2
              obtain ⟨below, hbelow⟩ := ih (sizeOf d) (h slot path d List.mem_cons_self) m.index
                m.parts m.entered fun slot' path' d' hd' => by
                  rw [← hd]
                  exact Declaration.sizeOf_lt hd'
              exact ⟨m :: below ++ later, .made hmade hbelow hlater⟩

namespace Traces

variable {parts : List Part} {ms : List Made}

/-- A part that an entity is made of: the entity is linked at once when its own parts are settled,
and nothing is taken back. -/
lemma leads_settle (ho : owner < b.tree.size) {part : Part} {m : Made}
    (h : builder.made? owner b part = some m)
    (hinside : m.entered.Leads (builder.fill m.index m.parts m.entered)) :
    b.Leads (builder.settle owner b part)
      ∧ (builder.fill m.index m.parts m.entered).Leads (builder.settle owner b part) := by
  obtain ⟨hnamed, slot, events, hsettle⟩ := settle_of_made?_some ho h
  have hattach := Build.Leads.attach (builder.fill m.index m.parts m.entered) owner slot events
    (hnamed.index_lt.trans_le hinside.size_le)
  rw [← hsettle] at hattach
  exact ⟨hnamed.leads.trans (hinside.trans hattach), hattach⟩

/-- The walk through parts takes nothing back, neither what was known before nor what is known of an
entity that has entered meanwhile. -/
lemma leads (h : builder.Traces owner parts b ms) (ho : owner < b.tree.size) :
    b.Leads (builder.fill owner parts b)
      ∧ ∀ m ∈ ms, m.entered.Leads (builder.fill owner parts b) := by
  induction h with
  | nil owner b => exact ⟨Build.Leads.refl b, by simp⟩
  | skip hnone after ihafter =>
      obtain ⟨hsettle, hsize⟩ := settle_of_made?_none ho hnone
      obtain ⟨hall, hlater⟩ := ihafter (by rwa [hsize])
      exact ⟨hsettle.trans hall, hlater⟩
  | made hsome inside after ihinside ihafter =>
      obtain ⟨hnamed, -⟩ := settle_of_made?_some ho hsome
      obtain ⟨hinside, hbelow⟩ := ihinside hnamed.index_lt
      obtain ⟨hsettle, hattach⟩ := leads_settle ho hsome hinside
      obtain ⟨hall, hlater⟩ := ihafter (ho.trans_le hsettle.size_le)
      refine ⟨hsettle.trans hall, fun x hx => ?_⟩
      obtain hx | hx := List.mem_append.mp hx
      · obtain rfl | hx := List.mem_cons.mp hx
        · exact (hinside.trans hattach).trans hall
        · exact ((hbelow x hx).trans hattach).trans hall
      · exact hlater x hx

/-- The indices count up. -/
lemma indices (h : builder.Traces owner parts b ms) (ho : owner < b.tree.size) :
    ms.map Made.index = List.range' b.tree.size ms.length
      ∧ (builder.fill owner parts b).tree.size = b.tree.size + ms.length := by
  induction h with
  | nil owner b => exact ⟨rfl, rfl⟩
  | skip hnone after ihafter =>
      obtain ⟨-, hsize⟩ := settle_of_made?_none ho hnone
      rw [← hsize]
      exact ihafter (by rwa [hsize])
  | made hsome inside after ihinside ihafter =>
      obtain ⟨hnamed, slot, events, hsettle⟩ := settle_of_made?_some ho hsome
      obtain ⟨hbelow, hsize⟩ := ihinside hnamed.index_lt
      obtain ⟨hlater, hall⟩ := ihafter (ho.trans_le
        (leads_settle ho hsome (inside.leads hnamed.index_lt).1).1.size_le)
      rw [hsettle, Build.attach_size, hsize, hnamed.size_eq, hnamed.index_eq] at hlater
      rw [fill_cons, hall, hsettle, Build.attach_size, hsize, hnamed.size_eq, hnamed.index_eq]
      rw [hnamed.size_eq, hnamed.index_eq] at hbelow
      refine ⟨?_, by simp only [List.length_append, List.length_cons]; omega⟩
      rw [List.map_append, List.map_cons, hbelow, hlater, hnamed.index_eq, ← List.range'_succ,
        Nat.add_right_comm, Nat.add_assoc, List.range'_append_1, List.length_append,
        List.length_cons]

/-- Entities follow the build that the walk through the parts begins with, and each other. -/
lemma follows (h : builder.Traces owner parts b ms) (ho : owner < b.tree.size) :
    (∀ m ∈ ms, m.Follows b) ∧ ms.Pairwise fun m m' => m'.Follows m.entered := by
  induction h with
  | nil owner b => exact ⟨by simp, .nil⟩
  | skip hnone after ihafter =>
      obtain ⟨hsettle, hsize⟩ := settle_of_made?_none ho hnone
      obtain ⟨hlater, hpairwise⟩ := ihafter (by rwa [hsize])
      exact ⟨fun m hm => (hlater m hm).of_leads hsettle, hpairwise⟩
  | @made owner b part rest m below later hsome inside after ihinside ihafter =>
      obtain ⟨hnamed, -⟩ := settle_of_made?_some ho hsome
      obtain ⟨hinside, hbelow⟩ := inside.leads hnamed.index_lt
      obtain ⟨hsettle, hattach⟩ := leads_settle ho hsome hinside
      obtain ⟨hfollows, hpairwise⟩ := ihinside hnamed.index_lt
      obtain ⟨hlater, hpairwise'⟩ := ihafter (ho.trans_le hsettle.size_le)
      have hall : ∀ x ∈ below ++ later, x.Follows m.entered := by
        intro x hx
        obtain hx | hx := List.mem_append.mp hx
        · exact hfollows x hx
        · exact (hlater x hx).of_leads (hinside.trans hattach)
      refine ⟨fun x hx => ?_, ?_⟩
      · rw [List.cons_append] at hx
        obtain rfl | hx := List.mem_cons.mp hx
        · exact hnamed.follows
        · exact (hall x hx).of_leads hnamed.leads
      · rw [List.cons_append, List.pairwise_cons]
        refine ⟨hall, List.pairwise_append.mpr ⟨hpairwise, hpairwise', fun x hx y hy => ?_⟩⟩
        exact (hlater y hy).of_leads ((hbelow x hx).trans hattach)

/-- All of them are named. -/
lemma named (h : builder.Traces owner parts b ms) (ho : owner < b.tree.size) :
    ∀ m ∈ ms, ∃ before, m.Named before ∧ b.Leads before := by
  induction h with
  | nil owner b => simp
  | skip hnone after ihafter =>
      obtain ⟨hsettle, hsize⟩ := settle_of_made?_none ho hnone
      intro m hm
      obtain ⟨before, hnamed, hleads⟩ := ihafter (by rwa [hsize]) m hm
      exact ⟨before, hnamed, hsettle.trans hleads⟩
  | made hsome inside after ihinside ihafter =>
      obtain ⟨hnamed, -⟩ := settle_of_made?_some ho hsome
      obtain ⟨hsettle, -⟩ := leads_settle ho hsome (inside.leads hnamed.index_lt).1
      intro m hm
      obtain hm | hm := List.mem_append.mp hm
      · obtain rfl | hm := List.mem_cons.mp hm
        · exact ⟨_, hnamed, Build.Leads.refl _⟩
        · obtain ⟨before, hnamed', hleads⟩ := ihinside hnamed.index_lt m hm
          exact ⟨before, hnamed', hnamed.leads.trans hleads⟩
      · obtain ⟨before, hnamed', hleads⟩ := ihafter (ho.trans_le hsettle.size_le) m hm
        exact ⟨before, hnamed', hsettle.trans hleads⟩

/-! ### They are the entities that the walk makes -/

variable {document : Document}

/-- What comes of the parts of an entity that the walk makes is made by the walk. -/
lemma makes {top : Made} {before : List Part} (h : builder.Traces owner parts b ms)
    (htop : builder.Makes document top) (howner : owner = top.index)
    (hparts : top.parts = before ++ parts) (hb : b = builder.fill owner before top.entered) :
    ∀ m ∈ ms, builder.Makes document m := by
  induction h generalizing top before with
  | nil owner b => simp
  | @skip owner b part rest later hnone after ihafter =>
      refine @ihafter top (before ++ [part]) htop howner (by simp [hparts]) ?_
      rw [hb, fill_append, fill_cons, fill_nil]
  | @made owner b part rest m below later hsome inside after ihinside ihafter =>
      have hm : builder.Makes document m := by
        cases part with
        | refused path reason lost => cases hsome
        | element slot path d =>
            subst hb howner
            exact .nested htop hparts hsome
      intro x hx
      obtain hx | hx := List.mem_append.mp hx
      · obtain rfl | hx := List.mem_cons.mp hx
        · exact hm
        · exact ihinside hm rfl (List.nil_append _).symm rfl x hx
      · refine @ihafter top (before ++ [part]) htop howner (by simp [hparts]) ?_ x hx
        rw [hb, fill_append, fill_cons, fill_nil]

/-- What comes of the parts of an entity in the list stands in the list, too. -/
lemma exists_inside (h : builder.Traces owner parts b ms) {m : Made} (hm : m ∈ ms) :
    ∃ below, builder.Traces m.index m.parts m.entered below ∧ below ⊆ ms := by
  induction h with
  | nil owner b => cases hm
  | skip hnone after ihafter => exact ihafter hm
  | @made owner b part rest first below later hsome inside after ihinside ihafter =>
      obtain hm | hm := List.mem_append.mp hm
      · obtain rfl | hm := List.mem_cons.mp hm
        · exact ⟨below, inside, fun x hx => by simp [hx]⟩
        · obtain ⟨below', htraces, hsub⟩ := ihinside hm
          exact ⟨below', htraces, fun x hx => by simp [hsub hx]⟩
      · obtain ⟨below', htraces, hsub⟩ := ihafter hm
        exact ⟨below', htraces, fun x hx => by simp [hsub hx]⟩

/-- What a part is made into stands in the list. -/
lemma mem_of_made? {before after : List Part} {part : Part} {m : Made}
    (h : builder.Traces owner (before ++ part :: after) b ms)
    (hm : builder.made? owner (builder.fill owner before b) part = some m) : m ∈ ms := by
  induction before generalizing b ms with
  | nil =>
      cases h with
      | skip hnone _ => cases hnone.symm.trans hm
      | made hsome _ _ =>
          cases hsome.symm.trans hm
          simp
  | cons first rest ih =>
      cases h with
      | skip _ hafter => exact ih hafter hm
      | made _ _ hafter => exact List.mem_append_right _ (ih hafter hm)

end Traces

/-! ### The entities of a document -/

/-- Where there is a root, the build of a document is what its parts leave. -/
lemma build_of_root? {document : Document} {m : Made} (h : builder.root? document = some m) :
    builder.build document = { builder.fill m.index m.parts m.entered with
      tree := { (builder.fill m.index m.parts m.entered).tree with root := some m.index } } := by
  obtain ⟨m', hm', hresult⟩ | ⟨hnone, -⟩ := builder.control_walked none "view"
    (Declaration.ofJson (.object document.rootNode))
    { tree := { app := document.app, session := document.session } }
  · cases hm'.symm.trans h
    rw [build]
    dsimp only
    rw [hresult]
  · cases hnone.symm.trans h

/-- The entities of a document can be listed in the order in which they enter the tree: they are
those that the walk makes, each follows the ones before it, and nothing that is known of them is
taken back. -/
lemma exists_entered (builder : Builder) (document : Document) : ∃ ms : List Made,
    (∀ m, builder.Makes document m ↔ m ∈ ms)
      ∧ ms.map Made.index = List.range (builder.build document).tree.size
      ∧ (ms.Pairwise fun m m' => m'.Follows m.entered)
      ∧ ∀ m ∈ ms, m.entered.Leads (builder.build document)
        ∧ ∃ before : Build, m.Named before ∧ before.tree.Sound := by
  cases hroot : builder.root? document with
  | none =>
      have hnone : ∀ m, ¬ builder.Makes document m := by
        intro m hm
        induction hm with
        | root made => cases hroot.symm.trans made
        | nested _ _ _ ih => exact ih
      obtain hsize | ⟨m, hm, -⟩ := builder.build_eq_fill document
      · exact ⟨[], by simp [hnone], by rw [hsize]; rfl, .nil, by simp⟩
      · cases hroot.symm.trans hm
  | some root =>
      have hnamed : root.Named _ := make?_named hroot
      have hmakes : builder.Makes document root := .root hroot
      obtain ⟨below, hbelow⟩ := builder.exists_traces (sizeOf root.declaration) root.index
        root.parts root.entered fun _ _ _ => Declaration.sizeOf_lt
      obtain ⟨hfill, hleads⟩ := hbelow.leads hnamed.index_lt
      obtain ⟨hindices, hsize⟩ := hbelow.indices hnamed.index_lt
      obtain ⟨hfollows, hpairwise⟩ := hbelow.follows hnamed.index_lt
      have hbuilt : (builder.fill root.index root.parts root.entered).Leads
          (builder.build document) := by
        rw [build_of_root? hroot]
        exact ⟨le_rfl, fun _ _ => rfl, fun _ _ => rfl, fun _ _ h => h, fun _ => le_rfl,
          List.Subset.refl _, fun h => ⟨h.held, h.found, h.bound⟩⟩
      have hstart : Tree.Sound { app := document.app, session := document.session } := by
        constructor <;> simp [Tree.find?, Tree.idAt?, Tree.entity?]
      have hzero : root.index = 0 := hnamed.index_eq
      refine ⟨root :: below, fun m => ⟨fun hm => ?_, fun hm => ?_⟩, ?_, ?_, fun m hm => ?_⟩
      · induction hm with
        | root made =>
            cases hroot.symm.trans made
            exact List.mem_cons_self
        | nested above parts made ih =>
            obtain hm | hm := List.mem_cons.mp ih
            · subst hm
              rw [parts] at hbelow
              exact List.mem_cons_of_mem _ (hbelow.mem_of_made? made)
            · obtain ⟨inside, hinside, hsub⟩ := hbelow.exists_inside hm
              rw [parts] at hinside
              exact List.mem_cons_of_mem _ (hsub (hinside.mem_of_made? made))
      · obtain rfl | hm := List.mem_cons.mp hm
        · exact hmakes
        · exact hbelow.makes hmakes rfl (List.nil_append _).symm rfl m hm
      · have hsize : (builder.build document).tree.size = root.index + 1 + below.length := by
          rw [build_of_root? hroot, ← hnamed.size_eq]
          exact hsize
        rw [List.map_cons, hindices, hnamed.size_eq, hsize, hzero, List.range_eq_range',
          Nat.zero_add, Nat.add_comm 1]
        rfl
      · exact List.pairwise_cons.mpr ⟨hfollows, hpairwise⟩
      · obtain rfl | hm := List.mem_cons.mp hm
        · exact ⟨hfill.trans hbuilt, _, hnamed, hstart⟩
        · obtain ⟨before, hbefore, hlater⟩ := hbelow.named hnamed.index_lt m hm
          exact ⟨(hleads m hm).trans hbuilt, before, hbefore,
            hlater.sound (hnamed.leads.sound hstart)⟩

end Builder

/-- How an entity that was made stands with its id in a build. -/
structure Made.Answers (m : Made) (built : Build) (id : String) : Prop where
  carries : built.tree.idAt? m.index = some id
  /-- A declared id is kept. -/
  declared : ∀ given ∈ m.declaration.id?, id = given
  /-- A generated id says the role, addresses the entity and is not shared with an earlier one. -/
  generated : m.declaration.id? = none → (∃ n, id = Build.generatedId m.role n)
    ∧ built.tree.find? id = some m.index ∧ ∀ j < m.index, built.tree.idAt? j ≠ some id
  /-- The id does not address the entity exactly if it was declared and an entity had it already. -/
  lost : built.tree.find? id ≠ some m.index ↔
    m.declaration.id? = some id ∧ ∃ j < m.index, m.entered.tree.idAt? j = some id
  reported : built.tree.find? id ≠ some m.index → ⟨m.path, .duplicateId id⟩ ∈ built.problems

namespace Made

variable {m : Made} {before built : Build}

/-- An id is taken exactly if an entity that has entered before has it. -/
lemma Named.isTaken_iff (h : m.Named before) (hs : before.tree.Sound) (id : String) :
    before.tree.isTaken id = true ↔ ∃ j < m.index, m.entered.tree.idAt? j = some id := by
  rw [Tree.isTaken, Keyed.contains, Option.isSome_iff_exists]
  constructor
  · rintro ⟨j, hj⟩
    have hid := hs.held id j hj
    have hlt := Tree.lt_size_of_idAt? hid
    exact ⟨j, hlt.trans_eq h.index_eq.symm, by rw [h.leads.idAt?_eq j hlt, hid]⟩
  · rintro ⟨j, hlt, hj⟩
    rw [h.leads.idAt?_eq j (hlt.trans_eq h.index_eq)] at hj
    obtain ⟨first, hfirst, -⟩ := hs.found j id hj
    exact ⟨first, hfirst⟩

/-- An id that is taken leads to an entity that has entered before. -/
lemma Named.find?_ne (h : m.Named before) (hs : before.tree.Sound) {id : String}
    (hbuilt : before.Leads built) (htaken : before.tree.isTaken id = true) :
    built.tree.find? id ≠ some m.index := by
  obtain ⟨j, hj⟩ := Option.isSome_iff_exists.mp htaken
  have hlt := Tree.lt_size_of_idAt? (hs.held id j hj)
  rw [hbuilt.find? id j hj, h.index_eq]
  simpa using hlt.ne

/-- An entity that is named stands with its id as it should in every later build. -/
lemma Named.answers (h : m.Named before) (hs : before.tree.Sound)
    (hbuilt : m.entered.Leads built) : ∃ id, m.Answers built id := by
  have hidAt : ∀ j ≤ m.index, built.tree.idAt? j = m.entered.tree.idAt? j := fun j hj =>
    hbuilt.idAt?_eq j (hj.trans_lt h.index_lt)
  cases hdeclared : m.declaration.id? with
  | some id =>
      obtain ⟨hid, hreported, hfree⟩ := h.declared id hdeclared
      have hlost : built.tree.find? id ≠ some m.index ↔ before.tree.isTaken id = true := by
        refine ⟨fun hne => ?_, h.find?_ne hs (h.leads.trans hbuilt)⟩
        by_contra hfalse
        exact hne (hbuilt.find? id m.index (hfree (by simpa using hfalse)))
      refine ⟨id, (hidAt _ le_rfl).trans hid, fun given hgiven => ?_, fun hnone => ?_, ?_,
        fun hne => hbuilt.problems (hreported (hlost.mp hne))⟩
      · exact Option.some.inj (hdeclared.symm.trans hgiven)
      · cases hdeclared.symm.trans hnone
      · rw [hlost, h.isTaken_iff hs]
        simp [hdeclared]
  | none =>
      obtain ⟨n, hnext, -, hid, hfind⟩ := h.generated hdeclared
      have haddressed := hbuilt.find? _ _ hfind
      refine ⟨Build.generatedId m.role n, (hidAt _ le_rfl).trans hid, fun given hgiven => ?_,
        fun _ => ⟨⟨n, rfl⟩, haddressed, fun j hj hshared => ?_⟩, ?_,
        fun hne => (hne haddressed).elim⟩
      · cases hdeclared.symm.trans hgiven
      · -- An earlier entity with the id would make it taken when it is generated.
        rw [hidAt j hj.le] at hshared
        have htaken := (h.isTaken_iff hs _).mpr ⟨j, hj, hshared⟩
        rw [hnext.free] at htaken
        cases htaken
      · simp [haddressed, hdeclared]

/-- In a list of entities whose indices count up an entity stands at its index. -/
lemma getElem_index {ms : List Made} {size : Nat} (h : ms.map index = List.range size)
    {i : Nat} (hi : i < ms.length) : ms[i].index = i := by
  have hlength : ms.length = size := by simpa using congrArg List.length h
  have hget := congrArg (·[i]?) h
  simp only [List.getElem?_map, List.getElem?_eq_getElem hi, Option.map_some] at hget
  rw [List.getElem?_range (hi.trans_eq hlength)] at hget
  exact Option.some.inj hget

end Made

/-- An id addresses the first entity that has it. -/
lemma Tree.Sound.find?_eq_some_iff {t : Tree} (h : t.Sound) (id : String) (index : Nat) :
    t.find? id = some index ↔ t.idAt? index = some id ∧ ∀ j < index, t.idAt? j ≠ some id := by
  constructor
  · intro hfind
    refine ⟨h.held id index hfind, fun j hj hid => ?_⟩
    obtain ⟨first, hfirst, hle⟩ := h.found j id hid
    cases hfirst.symm.trans hfind
    exact absurd hj (not_lt.mpr hle)
  · rintro ⟨hid, hleast⟩
    obtain ⟨first, hfirst, hle⟩ := h.found index id hid
    obtain rfl | hlt := hle.eq_or_lt
    · exact hfirst
    · exact absurd (h.held id first hfirst) (hleast first hlt)

/-! ### Documents -/

/-- **Who has which id.**  An id addresses the first entity that has it, and every id of an entity
addresses one.  Every entity was made of one declaration; it has the id that the declaration asks
for, or else a generated one, which addresses it and which no earlier entity has.  An entity is not
addressed by its id exactly if its declaration asks for an id that an earlier entity had when it was
made, and this is reported.  The ordinals of generated ids go up for each role, and there always is
a next one. -/
theorem Document.build_ids (document : Document) (catalog : Catalog) (evaluator : Evaluator)
    (dispatch : DispatchConfig) :
    let builder : Builder :=
      { catalog, evaluator, styles := document.styles
        defaultDelay := 1000 * dispatch.defaultDelay }
    let built := document.build catalog evaluator dispatch
    (∀ id index, built.tree.find? id = some index ↔
        built.tree.idAt? index = some id ∧ ∀ j < index, built.tree.idAt? j ≠ some id)
      ∧ (∀ index id, built.tree.idAt? index = some id →
        ∃ first ≤ index, built.tree.find? id = some first)
      ∧ (∀ index e, built.tree.entity? index = some e → ∃ m, builder.Makes document m
        ∧ m.index = index ∧ m.role = e.role
        ∧ ∀ m', builder.Makes document m' → m'.index = index → m' = m)
      ∧ (∀ m, builder.Makes document m → ∃ id, m.Answers built id)
      ∧ (∀ m m', builder.Makes document m → builder.Makes document m' →
        m.declaration.id? = none → m'.declaration.id? = none → m.role = m'.role →
        m.index < m'.index → ∃ n n', n < n'
          ∧ built.tree.idAt? m.index = some (Build.generatedId m.role n)
          ∧ built.tree.idAt? m'.index = some (Build.generatedId m'.role n'))
      ∧ (∀ (b : Build) role, ∃ n, b.IsNext role n ∧ b.generate role
        = ({ b with ordinals := b.ordinals.insert role n }, Build.generatedId role n)) := by
  intro builder built
  have hsound : built.tree.Sound := document.build_sound catalog evaluator dispatch
  obtain ⟨ms, hmakes, hindices, hpairwise, hentered⟩ := builder.exists_entered document
  refine ⟨hsound.find?_eq_some_iff, ?_, ?_, ?_, ?_, Build.generate_isNext⟩
  · intro index id hid
    obtain ⟨first, hfirst, hle⟩ := hsound.found index id hid
    exact ⟨first, hle, hfirst⟩
  · intro index e he
    have hindex : index ∈ ms.map Made.index := by
      rw [hindices]
      exact List.mem_range.mpr (Tree.lt_size_iff.mpr ⟨e, he⟩)
    obtain ⟨m, hm, rfl⟩ := List.mem_map.mp hindex
    have hmade := (hmakes m).mpr hm
    have hrole : built.tree.roleAt? m.index = _ :=
      (hentered m hm).1.roleAt?_eq m.index hmade.index_lt
    rw [hmade.roleAt?_eq, Tree.roleAt?, he] at hrole
    refine ⟨m, hmade, rfl, (Option.some.inj hrole).symm, fun m' hm' heq => ?_⟩
    have hnodup : (ms.map Made.index).Nodup := hindices ▸ List.nodup_range
    exact List.inj_on_of_nodup_map hnodup ((hmakes m').mp hm') hm heq
  · intro m hm
    obtain ⟨hbuilt, before, hnamed, hbefore⟩ := hentered m ((hmakes m).mp hm)
    exact hnamed.answers hbefore hbuilt
  · intro m m' hm hm' hnone hnone' hrole hlt
    obtain ⟨hbuilt, before, hnamed, -⟩ := hentered m ((hmakes m).mp hm)
    obtain ⟨hbuilt', before', hnamed', -⟩ := hentered m' ((hmakes m').mp hm')
    obtain ⟨n, -, hlast, hid, -⟩ := hnamed.generated hnone
    obtain ⟨n', -, hlast', hid', -⟩ := hnamed'.generated hnone'
    have hfollows : m'.Follows m.entered := by
      obtain ⟨i, hi, rfl⟩ := List.getElem_of_mem ((hmakes m).mp hm)
      obtain ⟨j, hj, rfl⟩ := List.getElem_of_mem ((hmakes m').mp hm')
      rw [Made.getElem_index hindices hi, Made.getElem_index hindices hj] at hlt
      exact List.pairwise_iff_getElem.mp hpairwise i j hi hj hlt
    refine ⟨n, n', ?_, ?_, ?_⟩
    · rw [← hlast, ← hlast', hrole]
      exact hfollows.last_lt hnone'
    · exact (hbuilt.idAt?_eq _ hnamed.index_lt).trans hid
    · exact (hbuilt'.idAt?_eq _ hnamed'.index_lt).trans hid'

/-- Four actions: the first one asks for an id that looks generated, the third one for that of the
screen, and the others for none. -/
def namesakes : Document where
  members := [("id", .string "screen"), ("actions", .array
    [.object [("id", .string "action-1"), ("on", .string "success")],
      .object [("on", .string "success")],
      .object [("id", .string " screen "), ("on", .string "success")],
      .object [("on", .string "success")]])]

/-- The generated ids pass over the one that is there, and the third action is not addressed. -/
theorem Document.build_ids_namesakes :
    let catalog : Catalog := ⟨.empty .strict⟩
    let builder : Builder :=
      { catalog, evaluator := .standard, styles := namesakes.styles, defaultDelay := 0 }
    let built := namesakes.build catalog .standard {}
    (∃ m m', builder.Makes namesakes m ∧ builder.Makes namesakes m' ∧ m.index = 2 ∧ m'.index = 4
        ∧ m.declaration.id? = none ∧ m'.declaration.id? = none ∧ m.role = m'.role
        ∧ ∃ n n', n < n' ∧ built.tree.idAt? 2 = some (Build.generatedId m.role n)
          ∧ built.tree.idAt? 4 = some (Build.generatedId m'.role n'))
      ∧ (∃ m, builder.Makes namesakes m ∧ m.index = 3 ∧ m.Answers built "screen"
        ∧ m.declaration.id? = some "screen" ∧ ⟨m.path, .duplicateId "screen"⟩ ∈ built.problems)
      ∧ (List.range 5).map built.tree.idAt?
        = ["screen", "action-1", "action-2", "screen", "action-3"].map some
      ∧ ["screen", "action-1", "action-2", "action-3"].map built.tree.find?
        = [0, 1, 2, 4].map some := by
  intro catalog builder built
  obtain ⟨-, -, hmade, hanswers, hincrease, -⟩ := namesakes.build_ids catalog .standard {}
  have hids : (List.range 5).map built.tree.idAt?
      = ["screen", "action-1", "action-2", "screen", "action-3"].map some := by decide +kernel
  have hfinds : ["screen", "action-1", "action-2", "action-3"].map built.tree.find?
      = [0, 1, 2, 4].map some := by decide +kernel
  obtain ⟨root, hroot⟩ := Option.isSome_iff_exists.mp
    (by decide +kernel : (builder.root? namesakes).isSome)
  obtain ⟨⟨hindex, hrole, hpath, hd⟩, -⟩ := Builder.make?_eq_some hroot
  let part (position : Nat) (own : Attributes) : Part :=
    .element .listed (Builder.itemPath "view/actions" position)
      (.object own .absent .absent .absent (.trigger "success"))
  let silent : Attributes := [("on", .string "success")]
  let named (id : String) : Attributes := ("id", .string id) :: silent
  have hparts : root.parts
      = [part 0 (named "action-1"), part 1 silent, part 2 (named " screen "), part 3 silent] := by
    rw [Made.parts, hrole, hpath, hd]
    rfl
  -- An action that asks for no id is made, and it is known at which index.
  have hsilent : ∀ position before after, root.parts = before ++ part position silent :: after →
      ∀ index, (builder.made? root.index (builder.fill root.index before root.entered)
          (part position silent)).map Made.index = some index →
        ∃ m, builder.Makes namesakes m ∧ m.index = index ∧ m.declaration.id? = none
          ∧ m.role = .action := by
    intro position before after hsplit index hsome
    obtain ⟨m, hm, rfl⟩ := Option.map_eq_some_iff.mp hsome
    obtain ⟨-, hrole, -, hdeclaration⟩ := (Builder.make?_eq_some (Builder.make?_of_element? hm)).1
    exact ⟨m, .nested (.root hroot) hsplit hm, rfl, by rw [hdeclaration]; rfl, hrole⟩
  have hindices : (builder.root? namesakes).map (fun root =>
      ((builder.made? root.index (builder.fill root.index [part 0 (named "action-1")] root.entered)
          (part 1 silent)).map Made.index,
        (builder.made? root.index (builder.fill root.index
          [part 0 (named "action-1"), part 1 silent, part 2 (named " screen ")] root.entered)
          (part 3 silent)).map Made.index)) = some (some 2, some 4) := by
    decide +kernel
  rw [hroot, Option.map_some, Option.some.injEq, Prod.mk.injEq] at hindices
  obtain ⟨m, hm, htwo, hnone, hrole⟩ := hsilent 1 _ _ hparts 2 hindices.1
  obtain ⟨m', hm', hfour, hnone', hrole'⟩ :=
    hsilent 3 [part 0 _, part 1 silent, part 2 _] [] hparts 4 hindices.2
  obtain ⟨n, n', hlt, hn, hn'⟩ := hincrease m m' hm hm' hnone hnone' (hrole.trans hrole'.symm)
    (by omega)
  rw [htwo] at hn
  rw [hfour] at hn'
  refine ⟨⟨m, m', hm, hm', htwo, hfour, hnone, hnone', hrole.trans hrole'.symm, n, n', hlt, hn,
    hn'⟩, ?_, hids, hfinds⟩
  obtain ⟨e, he⟩ := Tree.lt_size_iff.mp (by decide +kernel : 3 < built.tree.size)
  obtain ⟨third, hthird, hthree, -⟩ := hmade 3 e he
  obtain ⟨id, hanswer⟩ := hanswers third hthird
  have hid : built.tree.idAt? 3 = some "screen" := by decide +kernel
  have hcarries := hanswer.carries
  rw [hthree] at hcarries
  cases hcarries.symm.trans hid
  have hlost : built.tree.find? "screen" ≠ some third.index := by
    rw [hthree]
    decide +kernel
  exact ⟨third, hthird, hthree, hanswer, (hanswer.lost.mp hlost).1, hanswer.reported hlost⟩

end Componentry
