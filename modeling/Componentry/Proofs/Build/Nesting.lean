import Mathlib.Tactic
import Componentry.Proofs.Build.Ids
import Componentry.Proofs.Build.WellFormed
/-!
# What is nested follows

Settling parts below an owner links entities to the owner and puts new ones behind all others, and
these belong to the owner or to each other (`Build.Grows`).  What comes of the parts of an entity
therefore stands directly behind it, up to the index where the entity is finished
(`Builder.finish`); as the walk goes on it changes nothing of this block (`Makes.entity?_eq`) and
puts nothing below it (`Makes.parent_outside`).

In the tree of a document an entity is thus followed by all that is below it, and by nothing else
before it ends: `Makes.occupies`.
-/

namespace Componentry

/-- Whether an entity is the parent of another one. -/
def Tree.IsParent (t : Tree) (p i : Nat) : Prop := ∃ e, t.entity? i = some e ∧ e.parent = some p

/-- All that is below an entity follows it directly, up to an index where it ends. -/
structure Tree.Occupies (t : Tree) (first stop : Nat) : Prop where
  lt : first < stop
  below_iff : ∀ i, Relation.TransGen t.IsParent first i ↔ first < i ∧ i < stop

/-- What is done below an owner: everything older but the owner is left alone, and what is new
belongs to the owner or to something that is new, too. -/
structure Build.Grows (owner : Nat) (b b' : Build) : Prop where
  owner_lt : owner < b.tree.size
  size_le : b.tree.size ≤ b'.tree.size
  older : ∀ i < b.tree.size, i ≠ owner → b'.tree.entity? i = b.tree.entity? i
  newer : ∀ i e, b.tree.size ≤ i → b'.tree.entity? i = some e →
    ∃ p ∈ e.parent, p = owner ∨ b.tree.size ≤ p

namespace Build.Grows

variable {owner : Nat} {b b' c : Build}

/-- The tree has not grown, and nothing has changed beside the owner. -/
lemma of_size_eq (ho : owner < b.tree.size) (hsize : b'.tree.size = b.tree.size)
    (hother : ∀ i, i ≠ owner → b'.tree.entity? i = b.tree.entity? i) : Grows owner b b' where
  owner_lt := ho
  size_le := hsize.ge
  older i _ := hother i
  newer i e hi he := by
    have := Tree.lt_size_iff.mpr ⟨e, he⟩
    omega

lemma trans (h : Grows owner b b') (h' : Grows owner b' c) : Grows owner b c where
  owner_lt := h.owner_lt
  size_le := h.size_le.trans h'.size_le
  older i hi hne := (h'.older i (hi.trans_le h.size_le) hne).trans (h.older i hi hne)
  newer i e hi he := by
    by_cases hlt : i < b'.tree.size
    · have hne : i ≠ owner := (h.owner_lt.trans_le hi).ne'
      rw [h'.older i hlt hne] at he
      exact h.newer i e hi he
    · obtain ⟨p, hp, hp'⟩ := h'.newer i e (not_lt.mp hlt) he
      exact ⟨p, hp, hp'.imp_right h.size_le.trans⟩

end Build.Grows

namespace Builder

variable {builder : Builder} {owner : Nat} {b : Build}

lemma settle_grows (builder : Builder) (ho : owner < b.tree.size) (part : Part) :
    Build.Grows owner b (builder.settle owner b part) := by
  cases part with
  | refused path reason lost => exact .of_size_eq ho rfl fun _ _ => rfl
  | element slot path d =>
      rcases builder.element_cases ho slot path d with ⟨m, hadds⟩ | hrefers | ⟨-, hfails⟩
      · refine ⟨ho, (hadds.index_eq.ge.trans_lt hadds.size_lt).le, hadds.older, fun i e hi he => ?_⟩
        obtain rfl | hi := (hadds.index_eq.trans_le hi).eq_or_lt
        · -- The entity itself belongs to the owner.
          obtain ⟨id, x, ht, hx⟩ := hadds.entered
          have hparent := Tree.map_eq_of_bare hadds.bare_eq Entity.parent fun _ => rfl
          rw [he, ht, hadds.index_eq, Tree.entity?_insert_size, Option.map_some, Option.map_some,
            hx.parent_eq, Option.some.injEq] at hparent
          exact ⟨owner, hparent, .inl rfl⟩
        · obtain ⟨p, hp, hle⟩ := hadds.nested i e hi he
          exact ⟨p, hp, .inr (hadds.index_eq.ge.trans hle)⟩
      · obtain ⟨_, _, _, _, _, _, existing, _, -, -, -, -, -, ht⟩ := hrefers.found
        refine .of_size_eq ho (by rw [ht, Build.linkProvider_size]) fun i hi => ?_
        rw [ht]
        exact (b.attach_entity? owner .provider [] existing i).trans (if_neg (Ne.symm hi))
      · exact .of_size_eq ho (by rw [hfails.tree_eq]) fun i _ => by rw [hfails.tree_eq]

lemma fill_grows (builder : Builder) (ho : owner < b.tree.size) (parts : List Part) :
    Build.Grows owner b (builder.fill owner parts b) := by
  induction parts generalizing b with
  | nil => exact .of_size_eq ho rfl fun _ _ => rfl
  | cons part rest ih =>
      have hsettle := builder.settle_grows ho part
      exact hsettle.trans (ih (ho.trans_le hsettle.size_le))

/-! ### The block of an entity -/

/-- The index behind an entity and all that comes of its parts. -/
def finish (builder : Builder) (m : Made) : Nat :=
  (builder.fill m.index m.parts m.entered).tree.size

variable {document : Document} {m : Made}

lemma Makes.grows (h : builder.Makes document m) :
    Build.Grows m.index m.entered (builder.fill m.index m.parts m.entered) :=
  builder.fill_grows h.index_lt m.parts

lemma Makes.index_lt_finish (h : builder.Makes document m) : m.index < builder.finish m :=
  h.index_lt.trans_le h.grows.size_le

/-- Settling a part that an entity is made of: the parts of the entity are settled behind all
others, and only the owner is changed. -/
lemma entity?_settle_of_made {slot : Slot} {path : String} {d : Declaration}
    (ho : owner < b.tree.size) (h : builder.element? owner slot path d b = some m) :
    m.index = b.tree.size
      ∧ (builder.settle owner b (.element slot path d)).tree.size = builder.finish m
      ∧ ∀ i, i ≠ owner → (builder.settle owner b (.element slot path d)).tree.entity? i
        = (builder.fill m.index m.parts m.entered).tree.entity? i := by
  rcases builder.element_cases ho slot path d with ⟨m', hadds⟩ | hrefers | ⟨hnone, -⟩
  · cases hadds.made.symm.trans h
    refine ⟨hadds.index_eq, by rw [hadds.filled, Build.attach_size, finish], fun i hi => ?_⟩
    rw [hadds.filled, Build.attach_entity?, if_neg (Ne.symm hi)]
  · cases hrefers.made.symm.trans h
  · cases hnone.symm.trans h

/-- How an entity that comes of an element stands to its owner: it is behind it, its block lies in
that of the owner, and what the later parts of the owner do is done behind the block. -/
lemma Makes.later {above : Made} {before after : List Part} {slot : Slot} {path : String}
    {d : Declaration} (h : builder.Makes document above)
    (hparts : above.parts = before ++ .element slot path d :: after)
    (hm : builder.element? above.index slot path d
      (builder.fill above.index before above.entered) = some m) :
    above.index < m.index ∧ builder.finish m ≤ builder.finish above ∧ ∃ b : Build,
      b.tree.size = builder.finish m
        ∧ (∀ i, i ≠ above.index → b.tree.entity? i
          = (builder.fill m.index m.parts m.entered).tree.entity? i)
        ∧ Build.Grows above.index b (builder.fill above.index above.parts above.entered) := by
  have hbefore := builder.fill_grows h.index_lt before
  have ho := h.index_lt.trans_le hbefore.size_le
  obtain ⟨hindex, hsize, hentity⟩ := entity?_settle_of_made ho hm
  have hsettle := builder.settle_grows ho (.element slot path d)
  have hafter := builder.fill_grows (ho.trans_le hsettle.size_le) after
  rw [← fill_cons, ← fill_append, ← hparts] at hafter
  refine ⟨ho.trans_eq hindex.symm, ?_, _, hsize, hentity, hafter⟩
  rw [← hsize]
  exact hafter.size_le

/-- **The block of an entity stays** as the walk has left it when it was finished. -/
lemma Makes.entity?_eq (h : builder.Makes document m) :
    ∀ i, m.index ≤ i → i < builder.finish m → (builder.build document).tree.entity? i
      = (builder.fill m.index m.parts m.entered).tree.entity? i := by
  induction h with
  | root made =>
      intro i _ _
      rw [build_of_root? made]
      rfl
  | @nested above m before after slot path d habove hparts hm ih =>
      intro i hge hlt
      obtain ⟨hindex, hfinish, b, hsize, hentity, hafter⟩ := habove.later hparts hm
      have hne : i ≠ above.index := (hindex.trans_le hge).ne'
      rw [ih i (hindex.le.trans hge) (hlt.trans_le hfinish),
        hafter.older i (hlt.trans_eq hsize.symm) hne, hentity i hne]

/-- What comes behind the block of an entity does not belong to the block. -/
lemma Makes.parent_outside (h : builder.Makes document m) :
    ∀ i e, builder.finish m ≤ i → (builder.build document).tree.entity? i = some e →
      ∀ p ∈ e.parent, p < m.index ∨ builder.finish m ≤ p := by
  induction h with
  | root made =>
      intro i e hi he
      rw [build_of_root? made] at he
      have hlt : i < builder.finish _ := Tree.lt_size_iff.mpr ⟨e, he⟩
      exact absurd hi (not_le.mpr hlt)
  | @nested above m before after slot path d habove hparts hm ih =>
      intro i e hi he p hp
      obtain ⟨hindex, hfinish, b, hsize, hentity, hafter⟩ := habove.later hparts hm
      have hlast := (Makes.nested habove hparts hm).index_lt_finish
      by_cases hlt : i < builder.finish above
      · rw [habove.entity?_eq i (by omega) hlt] at he
        obtain ⟨q, hq, hq'⟩ := hafter.newer i e (hsize.trans_le hi) he
        cases Option.mem_unique hp hq
        omega
      · have := ih i e (not_lt.mp hlt) he p hp
        omega

/-- **An entity of a document is followed by what is below it**, and by nothing else until it is
finished. -/
theorem Makes.occupies (h : builder.Makes document m) :
    (builder.build document).tree.Occupies m.index (builder.finish m) := by
  have hbuilt := builder.build_built document
  refine ⟨h.index_lt_finish, fun i => ⟨fun hbelow => ?_, ?_⟩⟩
  · have hstep : ∀ p i, (builder.build document).tree.IsParent p i → m.index ≤ p →
        p < builder.finish m → m.index < i ∧ i < builder.finish m := by
      rintro p i ⟨e, he, hp⟩ hge hlt
      have hparent := hbuilt.linked.parent_lt i e he p hp
      refine ⟨hge.trans_lt hparent, ?_⟩
      by_contra hi
      have := h.parent_outside i e (not_lt.mp hi) he p hp
      omega
    induction hbelow with
    | single hparent => exact hstep _ _ hparent le_rfl h.index_lt_finish
    | tail _ hparent ih => exact hstep _ _ hparent ih.1.le ih.2
  · rintro ⟨hgt, hlt⟩
    induction i using Nat.strong_induction_on with
    | _ i ih =>
    obtain ⟨e, he⟩ := Tree.lt_size_iff.mp hlt
    have hsize := h.size_eq
    obtain ⟨p, hp, hp'⟩ := h.grows.newer i e (by omega) he
    rw [← h.entity?_eq i hgt.le hlt] at he
    have hparent := hbuilt.linked.parent_lt i e he p hp
    obtain rfl | hp' := hp'
    · exact .single ⟨e, he, hp⟩
    · exact .tail (ih p hparent (by omega) (hparent.trans hlt)) ⟨e, he, hp⟩

end Builder

end Componentry
