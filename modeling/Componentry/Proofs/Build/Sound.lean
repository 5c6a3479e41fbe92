import Mathlib.Tactic
import Componentry.Proofs.Build.Walk
import Componentry.Proofs.Keyed
/-!
# Built trees are sound

Every tree that a document is built into is sound: its ids and its bindings lead to entities
(`Document.build_sound`).  An entity whose declared id is taken keeps the id without being addressed
by it, and the build reports a `duplicateId`; `Document.build_addressable` says that without such a
report every entity is the one that its id addresses.

Both come from the walk.  A new entity binds nothing (`Entity.IsNew`), and its id is free or
reported (`Build.claim_free_or_reported`).  That a generated id is free is a pigeonhole argument
(`Build.freeOrdinal_free`): there are more candidates than ids.
-/

namespace Componentry

/-! ### Free ids -/

namespace Build

lemma generatedId_injective (role : Role) : Function.Injective (generatedId role) := by
  intro m n h
  have hr : toString m = toString n := (String.append_right_inj _).mp h
  have hd : Nat.toDigits 10 m = Nat.toDigits 10 n := by
    simpa [Nat.repr] using congrArg String.toList hr
  have hv := congrArg (Nat.ofDigitChars 10 · 0) hd
  simpa using hv

/-- If the search ends at an id that is taken, every candidate it has passed is taken. -/
lemma isTaken_of_freeOrdinal {t : Tree} {role : Role} :
    ∀ (taken ordinal : Nat),
      t.isTaken (generatedId role (freeOrdinal t role taken ordinal)) = true →
        ∀ k ≤ taken, t.isTaken (generatedId role (ordinal + k)) = true := by
  intro taken
  induction taken with
  | zero =>
      intro ordinal h k hk
      rw [Nat.le_zero.mp hk]
      exact h
  | succ taken ih =>
      intro ordinal h k hk
      rw [freeOrdinal] at h
      split_ifs at h with hfirst
      · cases k with
        | zero => exact hfirst
        | succ k =>
            have := ih (ordinal + 1) h k (by omega)
            rwa [show ordinal + 1 + k = ordinal + (k + 1) by omega] at this
      · exact absurd h hfirst

/-- The id that the search ends at is free: of more candidates than there are ids one is free. -/
lemma freeOrdinal_free (t : Tree) (role : Role) (ordinal : Nat) :
    t.isTaken (generatedId role (freeOrdinal t role t.ids.length ordinal)) = false := by
  by_contra hne
  have hall := isTaken_of_freeOrdinal t.ids.length ordinal (by simpa using hne)
  set candidates := (List.range (t.ids.length + 1)).map fun k => generatedId role (ordinal + k)
  have hnodup : candidates.Nodup :=
    (List.nodup_range).map fun i j h => by
      have := generatedId_injective role h
      omega
  have hsub : candidates ⊆ t.ids.keys := by
    intro id hid
    obtain ⟨k, hk, rfl⟩ := List.mem_map.mp hid
    exact Keyed.mem_keys_of_contains (hall k (by simpa [Nat.lt_succ_iff] using hk))
  have hle := (List.subperm_of_subset hnodup hsub).length_le
  simp [candidates, Keyed.keys] at hle

/-- A claimed id is free, or the build reports that it is taken. -/
lemma claim_free_or_reported (b : Build) (role : Role) (path : String) (own : Attributes) :
    b.tree.find? (b.claim role path own).2 = none
      ∨ ∃ p ∈ (b.claim role path own).1.problems,
        p.fault = .duplicateId (b.claim role path own).2 := by
  have hgen : ∀ b' : Build, b'.tree = b.tree →
      b.tree.find? (b'.generate role).2 = none := by
    intro b' ht
    have hfree := freeOrdinal_free b'.tree role ((b'.ordinals.lookup role).getD 0 + 1)
    rw [← ht]
    simpa [Tree.isTaken, Keyed.contains, Tree.find?, generate] using hfree
  rw [claim]
  split
  · exact .inl (hgen b rfl)
  · rename_i text htext
    dsimp only
    by_cases hblank : Text.trim text = ""
    · rw [if_pos hblank]
      exact .inl (hgen b rfl)
    · rw [if_neg hblank]
      by_cases htaken : b.tree.isTaken (Text.trim text) = true
      · rw [if_pos htaken]
        exact .inr ⟨⟨path, .duplicateId (Text.trim text)⟩, by simp [report], rfl⟩
      · rw [if_neg htaken]
        exact .inl (by simpa [Tree.isTaken, Keyed.contains, Tree.find?] using htaken)
  · exact .inl (hgen _ rfl)

lemma claim_problems (b : Build) (role : Role) (path : String) (own : Attributes) :
    b.problems ⊆ (b.claim role path own).1.problems := by
  rw [claim]
  split
  · exact List.Subset.refl _
  · dsimp only
    split_ifs
    · exact List.Subset.refl _
    · exact List.subset_append_left _ _
    · exact List.Subset.refl _
  · exact List.subset_append_left _ _

end Build

/-! ### Soundness along the walk -/

namespace Tree

variable {t : Tree}

lemma find?_insert (t : Tree) (e : Entity) (id : String) :
    (t.insert e).find? id = if t.find? e.id = none ∧ e.id = id then some t.size else t.find? id :=
  Keyed.lookup_insertNew t.ids e.id id t.size

lemma idAt?_insert (t : Tree) (e : Entity) (index : Nat) :
    (t.insert e).idAt? index = if index = t.size then some e.id else t.idAt? index := by
  rw [idAt?, entity?_insert]
  split_ifs <;> rfl

/-- A new entity without bindings keeps a tree sound. -/
lemma Sound.insert (h : t.Sound) {e : Entity} (he : e.bindings = []) : (t.insert e).Sound where
  held id index hf := by
    rw [find?_insert] at hf
    rw [idAt?_insert]
    split_ifs at hf with hnew
    · rw [← Option.some.inj hf, if_pos rfl, hnew.2]
    · have hid := h.held id index hf
      rw [if_neg (lt_size_of_idAt? hid).ne, hid]
  found index id hid := by
    rw [idAt?_insert] at hid
    rw [find?_insert]
    split_ifs at hid with hlast
    · rw [← Option.some.inj hid]
      cases hf : t.find? e.id with
      | none => exact ⟨t.size, by simp, hlast.ge⟩
      | some first =>
          have := lt_size_of_idAt? (h.held e.id first hf)
          exact ⟨first, by simp, by omega⟩
    · obtain ⟨first, hf, hle⟩ := h.found index id hid
      refine ⟨first, ?_, hle⟩
      rw [if_neg, hf]
      rintro ⟨hnone, heq⟩
      rw [heq, hf] at hnone
      exact absurd hnone (by simp)
  bound index e' he' b hb := by
    rw [size_insert]
    rw [entity?_insert] at he'
    split_ifs at he'
    · rw [← Option.some.inj he', he] at hb
      exact absurd hb (by simp)
    · exact (h.bound index e' he' b hb).trans (Nat.lt_succ_self _)

lemma idAt?_modify (t : Tree) (index other : Nat) {f : Entity → Entity}
    (hf : ∀ e, (f e).id = e.id) : (t.modify index f).idAt? other = t.idAt? other := by
  rw [idAt?, entity?_modify]
  split_ifs
  · rw [Option.map_map, show Entity.id ∘ f = Entity.id from funext hf, idAt?]
  · rfl

/-- A change of an entity that keeps its id and binds it to entities only keeps a tree sound. -/
lemma Sound.modify (h : t.Sound) (index : Nat) {f : Entity → Entity}
    (hid : ∀ e, (f e).id = e.id)
    (hb : ∀ e, ∀ b ∈ (f e).bindings, b ∈ e.bindings ∨ b.action < t.size) :
    (t.modify index f).Sound where
  held id i hf := by
    rw [idAt?_modify t index i hid]
    exact h.held id i hf
  found i id hi := by
    rw [idAt?_modify t index i hid] at hi
    exact h.found i id hi
  bound i e he b hbe := by
    rw [size_modify]
    rw [entity?_modify] at he
    split_ifs at he
    · obtain ⟨e', he', rfl⟩ := Option.map_eq_some_iff.mp he
      rcases hb e' b hbe with hold | hlt
      · exact h.bound i e' he' b hold
      · exact hlt
    · exact h.bound i e he b hbe

lemma Sound.bind (h : t.Sound) (owner : Nat) {binding : Binding} (ha : binding.action < t.size) :
    (t.bind owner binding).Sound := by
  have hm := h.modify owner (f := fun e => { e with bindings := e.bindings ++ [binding] })
    (fun _ => rfl) fun e b hb => by
      rcases List.mem_append.mp hb with hold | hnew
      · exact .inl hold
      · exact .inr (List.mem_singleton.mp hnew ▸ ha)
  exact ⟨hm.held, hm.found, hm.bound⟩

end Tree

/-- The property that the walk keeps: the tree is sound, and unless an id was reported as taken
every entity is the one that its id addresses. -/
structure Build.Accurate (b : Build) : Prop where
  sound : b.tree.Sound
  addressable : (∀ p ∈ b.problems, ∀ id, p.fault ≠ .duplicateId id) →
    ∀ index id, b.tree.idAt? index = some id → b.tree.find? id = some index

namespace Build.Accurate

variable {b b' : Build}

/-- Changes that keep ids and reports keep the second half. -/
lemma of_eq (h : b.Accurate) (hs : b'.tree.Sound) (hp : b.problems ⊆ b'.problems)
    (hi : ∀ index, b'.tree.idAt? index = b.tree.idAt? index)
    (hf : ∀ id, b'.tree.find? id = b.tree.find? id) : b'.Accurate :=
  ⟨hs, fun hfree index id hid => by
    rw [hi] at hid
    rw [hf]
    exact h.addressable (fun p hp' => hfree p (hp hp')) index id hid⟩

lemma report (h : b.Accurate) (path : String) (faults : List BuildFault) :
    (b.report path faults).Accurate :=
  h.of_eq h.sound (List.subset_append_left _ _) (fun _ => rfl) fun _ => rfl

/-- An entity that enters under a claimed id. -/
lemma insert (h : b.Accurate) {e : Entity} (he : e.bindings = [])
    (hid : b.tree.find? e.id = none ∨ ∃ p ∈ b.problems, p.fault = .duplicateId e.id) :
    (b.insert e).1.Accurate where
  sound := h.sound.insert he
  addressable hfree index id hi := by
    have hnone : b.tree.find? e.id = none := by
      rcases hid with hnone | ⟨p, hp, hdup⟩
      · exact hnone
      · exact absurd hdup (hfree p hp e.id)
    show (b.tree.insert e).find? id = some index
    have hi' : (b.tree.insert e).idAt? index = some id := hi
    rw [Tree.idAt?_insert] at hi'
    rw [Tree.find?_insert]
    split_ifs at hi' with hlast
    · rw [if_pos ⟨hnone, Option.some.inj hi'⟩, hlast]
    · have hold := h.addressable hfree index id hi'
      rw [if_neg, hold]
      rintro ⟨-, heq⟩
      rw [heq, hold] at hnone
      exact absurd hnone (by simp)

lemma claim (h : b.Accurate) (role : Role) (path : String) (own : Attributes) :
    (b.claim role path own).1.Accurate := by
  have ht := claim_size b role path own
  exact h.of_eq (by rw [ht]; exact h.sound) (claim_problems b role path own)
    (fun _ => by rw [ht]) fun _ => by rw [ht]

lemma enter (h : b.Accurate) (builder : Builder) (role : Role) (owner : Option Nat)
    (path : String) (own : Attributes) : (builder.enter role owner path own b).1.Accurate := by
  have hc := h.claim role path own
  have hid := claim_free_or_reported b role path own
  rw [Builder.enter]
  dsimp only
  cases hd : builder.describe (b.claim role path own).1.tree role owner (b.claim role path own).2
      own with
  | mk faults entity =>
      cases entity with
      | none => exact hc.report path faults
      | some e =>
          have hnew := Builder.describe_isNew hd
          refine (hc.report path faults).insert hnew.bindings_eq ?_
          rw [hnew.id_eq, report_tree, claim_size]
          rcases hid with hfree | ⟨p, hp, hdup⟩
          · exact .inl hfree
          · exact .inr ⟨p, List.mem_append_left _ hp, hdup⟩

lemma link (h : b.Accurate) (owner : Nat) {f : Entity → Entity} (hid : ∀ e, (f e).id = e.id)
    (hb : ∀ e, (f e).bindings = e.bindings) :
    { b with tree := b.tree.modify owner f : Build }.Accurate :=
  h.of_eq (h.sound.modify owner hid fun e _ hx => .inl (hb e ▸ hx)) (List.Subset.refl _)
    (fun i => b.tree.idAt?_modify owner i hid) fun _ => rfl

lemma bind (h : b.Accurate) (owner action : Nat) (events : List EventName)
    (ha : action < b.tree.size) : (b.bind owner action events).Accurate := by
  have hboth : action < b.tree.size ∧ b.Accurate := ⟨ha, h⟩
  refine (bind_induction (P := fun c => action < c.tree.size ∧ c.Accurate) (fun c event _ hc => ?_)
    hboth).2
  have hone : (c.bind owner action [event]).Accurate :=
    hc.2.of_eq (hc.2.sound.bind owner hc.1) (List.Subset.refl _)
      (fun i => c.tree.idAt?_modify owner i fun _ => rfl) fun _ => rfl
  exact ⟨by rw [bind_size]; exact hc.1, hone⟩

end Build.Accurate

/-- Every step of the walk keeps a build accurate. -/
lemma Builder.keeps_accurate (builder : Builder) : builder.Keeps Build.Accurate where
  report _ path faults h := h.report path faults
  enter _ role owner path own h := h.enter builder role owner path own
  linkControl _ owner _ _ _ h := h.link owner (fun _ => rfl) fun _ => rfl
  linkProvider _ owner _ _ _ h := h.link owner (fun _ => rfl) fun _ => rfl
  bind _ owner action events _ ha _ h := h.bind owner action events ha

theorem Document.build_accurate (document : Document) (catalog : Catalog) (evaluator : Evaluator)
    (dispatch : DispatchConfig) : (document.build catalog evaluator dispatch).Accurate := by
  refine (Builder.keeps_accurate _).build (fun b root h => ?_) document ?_
  · exact ⟨⟨h.sound.held, h.sound.found, h.sound.bound⟩, h.addressable⟩
  · refine ⟨⟨?_, ?_, ?_⟩, ?_⟩ <;> simp [Tree.find?, Tree.idAt?, Tree.entity?]

/-- **Built trees are sound**: ids and bindings lead to entities. -/
theorem Document.build_sound (document : Document) (catalog : Catalog) (evaluator : Evaluator)
    (dispatch : DispatchConfig) : (document.build catalog evaluator dispatch).tree.Sound :=
  (document.build_accurate catalog evaluator dispatch).sound

/-- **Without a contested id every entity is addressable**: it is the one that its id leads to. -/
theorem Document.build_addressable (document : Document) (catalog : Catalog)
    (evaluator : Evaluator) (dispatch : DispatchConfig)
    (h : ∀ p ∈ (document.build catalog evaluator dispatch).problems, ∀ id,
      p.fault ≠ .duplicateId id) (index : Nat) (id : String)
    (hid : (document.build catalog evaluator dispatch).tree.idAt? index = some id) :
    (document.build catalog evaluator dispatch).tree.find? id = some index :=
  (document.build_accurate catalog evaluator dispatch).addressable h index id hid

end Componentry
