import Mathlib.Tactic
import Componentry.Tree.Basic
/-!
# The structure of a tree

Deliveries and loads change the attributes, the state and the payload of entities, and the two
stores.  Everything else is the *structure* of a tree, which stays as the build has left it:
`Entity.frame` is the part of an entity that belongs to it, and `Tree.SameStructure` relates two
trees that have it in common.

* `SameStructure.modify` and `SameStructure.merge`: the changes of a session keep the structure.
* `SameStructure.find?_eq`, `SameStructure.idAt?_eq`, `SameStructure.boundActions_eq`: what is read
  off the structure is the same in both trees.
* `Tree.Sound`: ids and bindings lead to entities of the tree.  It depends on the structure only
  (`SameStructure.sound`).
-/

namespace Componentry

/-- The part of an entity that no delivery and no load changes. -/
def Entity.frame (e : Entity) : Entity :=
  { e with attributes := [], state := .idle, payload := none }

namespace Tree

/-- The id of the entity at an index. -/
def idAt? (tree : Tree) (index : Nat) : Option String := (tree.entity? index).map Entity.id

/-- The role of the entity at an index. -/
def roleAt? (tree : Tree) (index : Nat) : Option Role := (tree.entity? index).map Entity.role

@[simp] lemma size_bind (tree : Tree) (owner : Nat) (binding : Binding) :
    (tree.bind owner binding).size = tree.size := by
  simp [bind, modify, size]

lemma entity?_insert (tree : Tree) (entity : Entity) (index : Nat) :
    (tree.insert entity).entity? index
      = if index = tree.size then some entity else tree.entity? index := by
  split_ifs with h
  · rw [h, entity?_insert_size]
  · simp only [entity?, insert, size] at h ⊢
    rcases Nat.lt_or_gt_of_ne h with hlt | hgt
    · rw [List.getElem?_append_left hlt]
    · rw [List.getElem?_eq_none (by simp; omega), List.getElem?_eq_none (by omega)]

lemma entity?_modify (tree : Tree) (index : Nat) (f : Entity → Entity) (other : Nat) :
    (tree.modify index f).entity? other
      = if index = other then (tree.entity? other).map f else tree.entity? other := by
  split_ifs with h
  · rw [h, entity?_modify_self]
  · exact entity?_modify_of_ne tree f h

/-- What all entities have is had by all after a change that keeps it. -/
lemma forall_modify {t : Tree} {Q : Entity → Prop} (h : ∀ i e, t.entity? i = some e → Q e)
    (index : Nat) {f : Entity → Entity} (hf : ∀ e, Q e → Q (f e)) :
    ∀ i e, (t.modify index f).entity? i = some e → Q e := by
  intro i e he
  rw [entity?_modify] at he
  split_ifs at he
  · obtain ⟨x, hx, rfl⟩ := Option.map_eq_some_iff.mp he
    exact hf x (h i x hx)
  · exact h i e he

/-- Two trees that differ in attributes, states, payloads and stores only. -/
structure SameStructure (t u : Tree) : Prop where
  frames : u.entities.map Entity.frame = t.entities.map Entity.frame
  ids : u.ids = t.ids
  root : u.root = t.root
  declared : u.declared = t.declared

namespace SameStructure

variable {t u w : Tree}

lemma refl (t : Tree) : t.SameStructure t := ⟨rfl, rfl, rfl, rfl⟩

lemma symm (h : t.SameStructure u) : u.SameStructure t :=
  ⟨h.frames.symm, h.ids.symm, h.root.symm, h.declared.symm⟩

lemma trans (h : t.SameStructure u) (h' : u.SameStructure w) : t.SameStructure w :=
  ⟨h'.frames.trans h.frames, h'.ids.trans h.ids, h'.root.trans h.root,
    h'.declared.trans h.declared⟩

/-! ### Changes that keep the structure -/

/-- A change of one entity that keeps its frame keeps the structure. -/
lemma modify (t : Tree) (index : Nat) {f : Entity → Entity} (hf : ∀ e, (f e).frame = e.frame) :
    t.SameStructure (t.modify index f) := by
  refine ⟨?_, rfl, rfl, rfl⟩
  apply List.ext_getElem?
  intro i
  simp only [Tree.modify, List.getElem?_map, List.getElem?_modify]
  cases t.entities[i]? with
  | none => rfl
  | some e => by_cases h : index = i <;> simp [h, hf]

/-- Merging changes into a place keeps the structure. -/
lemma merge (t : Tree) (place : Place) (changes : Attributes) :
    t.SameStructure (t.merge place changes) := by
  cases place with
  | app => exact ⟨rfl, rfl, rfl, rfl⟩
  | session => exact ⟨rfl, rfl, rfl, rfl⟩
  | entity index => exact modify t index fun _ => rfl

/-! ### What is read off the structure -/

lemma size_eq (h : t.SameStructure u) : u.size = t.size := by
  simpa [size] using congrArg List.length h.frames

lemma find?_eq (h : t.SameStructure u) (id : String) : u.find? id = t.find? id := by
  rw [find?, find?, h.ids]

lemma frame_eq (h : t.SameStructure u) (index : Nat) :
    (u.entity? index).map Entity.frame = (t.entity? index).map Entity.frame := by
  simpa [entity?] using congrArg (·[index]?) h.frames

/-- An entity of the one tree has a counterpart with the same frame in the other. -/
lemma exists_entity (h : t.SameStructure u) {index : Nat} {e : Entity}
    (he : t.entity? index = some e) : ∃ e', u.entity? index = some e' ∧ e'.frame = e.frame := by
  have hf := h.frame_eq index
  rw [he, Option.map_some, Option.map_eq_some_iff] at hf
  exact hf

/-- What depends on the frame of an entity only is the same in both trees. -/
lemma map_eq {α : Type} (h : t.SameStructure u) (index : Nat) (f : Entity → α)
    (hf : ∀ e : Entity, f e.frame = f e) :
    (u.entity? index).map f = (t.entity? index).map f := by
  have hm := congrArg (Option.map f) (h.frame_eq index)
  simpa [Option.map_map, Function.comp_def, hf] using hm

lemma idAt?_eq (h : t.SameStructure u) (index : Nat) : u.idAt? index = t.idAt? index :=
  h.map_eq index Entity.id fun _ => rfl

lemma roleAt?_eq (h : t.SameStructure u) (index : Nat) : u.roleAt? index = t.roleAt? index :=
  h.map_eq index Entity.role fun _ => rfl

lemma boundActions_eq (h : t.SameStructure u) (owner : Nat) (event : EventName) :
    u.boundActions owner event = t.boundActions owner event := by
  have hb := h.map_eq owner Entity.bindings fun _ => rfl
  unfold boundActions
  cases hu : u.entity? owner <;> cases ht : t.entity? owner <;> simp_all

end SameStructure

/-! ### Sound trees -/

/-- A tree whose ids and bindings lead to entities of its own. -/
structure Sound (t : Tree) : Prop where
  /-- An id addresses an entity that carries it. -/
  held : ∀ id index, t.find? id = some index → t.idAt? index = some id
  /-- The id of an entity addresses some entity. -/
  found : ∀ index id, t.idAt? index = some id → ∃ first, t.find? id = some first ∧ first ≤ index
  /-- A bound action is an entity. -/
  bound : ∀ index e, t.entity? index = some e → ∀ b ∈ e.bindings, b.action < t.size

lemma idAt?_eq_some {t : Tree} {index : Nat} {id : String} :
    t.idAt? index = some id ↔ ∃ e, t.entity? index = some e ∧ e.id = id := by
  simp [idAt?]

lemma idAt?_of_entity? {t : Tree} {index : Nat} {e : Entity} (h : t.entity? index = some e) :
    t.idAt? index = some e.id := by
  simp [idAt?, h]

lemma lt_size_iff {t : Tree} {index : Nat} : index < t.size ↔ ∃ e, t.entity? index = some e := by
  simp [size, entity?, ← Option.isSome_iff_exists]

lemma lt_size_of_idAt? {t : Tree} {index : Nat} {id : String} (h : t.idAt? index = some id) :
    index < t.size := by
  obtain ⟨e, he, _⟩ := idAt?_eq_some.mp h
  exact lt_size_iff.mpr ⟨e, he⟩

/-- Every action that a sound tree binds to an event is an entity. -/
lemma Sound.lt_size_of_mem_boundActions {t : Tree} (h : t.Sound) {owner : Nat} {event : EventName}
    {action : Nat} (ha : action ∈ t.boundActions owner event) : action < t.size := by
  rw [boundActions] at ha
  cases he : t.entity? owner with
  | none => simp [he] at ha
  | some e =>
      simp only [he, List.mem_map, List.mem_filter] at ha
      obtain ⟨b, ⟨hb, _⟩, rfl⟩ := ha
      exact h.bound owner e he b hb

/-- Whether a tree is sound depends on its structure only. -/
lemma SameStructure.sound {t u : Tree} (h : t.SameStructure u) (ht : t.Sound) : u.Sound where
  held id index hf := by
    rw [h.find?_eq] at hf
    rw [h.idAt?_eq]
    exact ht.held id index hf
  found index id hid := by
    rw [h.idAt?_eq] at hid
    obtain ⟨first, hf, hle⟩ := ht.found index id hid
    exact ⟨first, by rw [h.find?_eq, hf], hle⟩
  bound index e he b hb := by
    obtain ⟨e', he', hframe⟩ := h.symm.exists_entity he
    have hb' : b ∈ e'.bindings := by
      have hbs : e'.frame.bindings = e.frame.bindings := by rw [hframe]
      rwa [show e'.bindings = e.bindings from hbs]
    rw [h.size_eq]
    exact ht.bound index e' he' b hb'

end Tree

end Componentry
