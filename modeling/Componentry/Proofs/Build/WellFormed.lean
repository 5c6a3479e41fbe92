import Mathlib.Tactic
import Componentry.Proofs.Build.Walk
import Componentry.Proofs.Keyed
/-!
# Built trees are well formed

`Tree.WellFormed` says how the entities of a tree hang together: every entity but the root is listed
by its parent, which comes before it, and by nobody else unless it is a data provider, which may be
shared.  `Document.build_wellFormed` says that every document is built into such a tree, whatever is
wrong with its declarations.

In the middle of the walk an entity may have no place in its owner yet.  The invariant therefore has
three parts: `Tree.Linked`, that whatever is listed belongs there; `Tree.Opens`, that only the open
entities are not listed; and `Tree.Registered`, that the ids and the declared events agree with the
entities.  A new entity is on top of the stack (`Tree.Opens.insert`), and linking it to its owner
takes it off (`Tree.Opens.close`).

`Document.build_built` is what the walk ends with, and `Document.build_idle` says that nothing has
run in a built tree.
-/

namespace Componentry

namespace Entity

/-- What an entity lists in a role: its child controls, its data providers, or the actions that it
binds, once for every binding. -/
def listed (e : Entity) : Role → List Nat
  | .control => e.controls
  | .dataProvider => e.dataProviders
  | .action => e.bindings.map Binding.action

/-- All indices that an entity holds. -/
def links (e : Entity) : List Nat :=
  e.parent.toList ++ e.controls ++ e.dataProviders ++ e.bindings.map Binding.action

end Entity

/-- How the entities of a tree hang together. -/
structure Tree.WellFormed (t : Tree) : Prop where
  /-- Every index that an entity holds leads to an entity. -/
  links_lt : ∀ i e, t.entity? i = some e → ∀ j ∈ e.links, j < t.size
  /-- Every id addresses an entity. -/
  ids_lt : ∀ entry ∈ t.ids, entry.2 < t.size
  /-- There is a root as soon as there is an entity. -/
  root_isSome_iff : t.root.isSome ↔ t.size ≠ 0
  /-- The root is the first entity, and a control. -/
  root_eq : ∀ root, t.root = some root →
    root = 0 ∧ ∃ e, t.entity? root = some e ∧ e.role = .control
  /-- The root alone has no parent. -/
  orphan_iff : ∀ i e, t.entity? i = some e → (e.parent = none ↔ t.root = some i)
  /-- Parents come first. -/
  parent_lt : ∀ i e, t.entity? i = some e → ∀ p ∈ e.parent, p < i
  /-- A control other than the root is listed once by its parent, and by nobody else. -/
  count_control : ∀ i e, t.entity? i = some e → e.role = .control → t.root ≠ some i →
    ∀ j o, t.entity? j = some o → o.controls.count i = if e.parent = some j then 1 else 0
  /-- Child controls are listed in the order of the tree. -/
  controls_sorted : ∀ i e, t.entity? i = some e → e.controls.Pairwise (· < ·)
  /-- An action is bound by its parent, and by nobody else. -/
  bound_iff : ∀ i e, t.entity? i = some e → e.role = .action →
    ∀ j o, t.entity? j = some o → (i ∈ o.bindings.map Binding.action ↔ e.parent = some j)
  /-- A data provider is listed by its parent. -/
  provider_mem : ∀ i e, t.entity? i = some e → e.role = .dataProvider →
    ∃ p o, e.parent = some p ∧ t.entity? p = some o ∧ i ∈ o.dataProviders
  /-- What is listed as a data provider is one. -/
  provider_role : ∀ j o, t.entity? j = some o → ∀ i ∈ o.dataProviders,
    ∃ e, t.entity? i = some e ∧ e.role = .dataProvider
  /-- Only controls list controls and data providers. -/
  owner_role : ∀ i e, t.entity? i = some e → e.controls ≠ [] ∨ e.dataProviders ≠ [] →
    e.role = .control
  /-- The declared events are those that some entity binds. -/
  declares_iff : ∀ event, t.declares event = true ↔
    ∃ i e, t.entity? i = some e ∧ ∃ b ∈ e.bindings, b.event = event

namespace Tree

variable {t : Tree}

/-! ### Links -/

/-- Whatever is listed belongs where it is listed. -/
structure Linked (t : Tree) : Prop where
  parent_lt : ∀ i e, t.entity? i = some e → ∀ p ∈ e.parent, p < i
  orphan_iff : ∀ i e, t.entity? i = some e → (e.parent = none ↔ i = 0)
  /-- What is listed in a role has the role, and it has the entity as its parent unless it is a data
  provider. -/
  listed : ∀ j o, t.entity? j = some o → ∀ role, ∀ i ∈ o.listed role,
    ∃ e, t.entity? i = some e ∧ e.role = role ∧ (role ≠ .dataProvider → e.parent = some j)
  sorted : ∀ i e, t.entity? i = some e → e.controls.Pairwise (· < ·)
  owner : ∀ i e, t.entity? i = some e → ∀ role, role ≠ .action → e.listed role ≠ [] →
    e.role = .control

lemma Linked.listed_lt (h : t.Linked) {j : Nat} {o : Entity} (ho : t.entity? j = some o)
    {role : Role} {i : Nat} (hi : i ∈ o.listed role) : i < t.size := by
  obtain ⟨e, he, -⟩ := h.listed j o ho role i hi
  exact lt_size_iff.mpr ⟨e, he⟩

/-- Only the parent lists an entity, unless it is listed as a data provider. -/
lemma Linked.parent_eq (h : t.Linked) {i j : Nat} {e o : Entity} (he : t.entity? i = some e)
    (ho : t.entity? j = some o) {role : Role} (hi : i ∈ o.listed role)
    (hrole : role ≠ .dataProvider) : e.parent = some j := by
  obtain ⟨e', he', -, hparent⟩ := h.listed j o ho role i hi
  obtain rfl : e = e' := Option.some.inj (he.symm.trans he')
  exact hparent hrole

/-- What is bound to an event is an action. -/
lemma Linked.roleAt?_of_mem_boundActions (h : t.Linked) {owner : Nat} {event : EventName}
    {action : Nat} (ha : action ∈ t.boundActions owner event) :
    t.roleAt? action = some .action := by
  rw [boundActions] at ha
  split at ha
  · simp at ha
  · rename_i o ho
    obtain ⟨b, hb, rfl⟩ := List.mem_map.mp ha
    have hlisted : b.action ∈ o.listed .action := List.mem_map_of_mem (List.mem_of_mem_filter hb)
    obtain ⟨e, he, hrole, -⟩ := h.listed owner o ho .action b.action hlisted
    rw [roleAt?, he, Option.map_some, hrole]

lemma Linked.empty (h : t.size = 0) : t.Linked := by
  have hnone : ∀ i e, t.entity? i ≠ some e := fun i e he => by
    have := lt_size_iff.mpr ⟨e, he⟩
    omega
  exact ⟨fun i e he => absurd he (hnone i e), fun i e he => absurd he (hnone i e),
    fun i e he => absurd he (hnone i e), fun i e he => absurd he (hnone i e),
    fun i e he => absurd he (hnone i e)⟩

/-- A new entity lists nothing; it is the first one exactly if it has no owner. -/
lemma Linked.insert (h : t.Linked) {e : Entity} {id : String} {role : Role} {owner : Option Nat}
    (he : e.IsNew id role owner) (hlt : ∀ p ∈ owner, p < t.size)
    (hfirst : owner = none ↔ t.size = 0) : (t.insert e).Linked := by
  have hlisted : ∀ role, e.listed role = [] := by
    intro role
    cases role <;> simp [Entity.listed, he.controls_eq, he.dataProviders_eq, he.bindings_eq]
  refine ⟨fun i x hx => ?_, fun i x hx => ?_, fun j o ho role i hi => ?_, fun i x hx => ?_,
    fun i x hx role hrole hne => ?_⟩
  · rw [entity?_insert] at hx
    split_ifs at hx with hi
    · cases hx
      rw [he.parent_eq, hi]
      exact hlt
    · exact h.parent_lt i x hx
  · rw [entity?_insert] at hx
    split_ifs at hx with hi
    · cases hx
      rw [he.parent_eq, hi]
      exact hfirst
    · exact h.orphan_iff i x hx
  · rw [entity?_insert] at ho
    split_ifs at ho with hj
    · cases ho
      rw [hlisted] at hi
      exact absurd hi (by simp)
    · obtain ⟨x, hx, hx'⟩ := h.listed j o ho role i hi
      have hi' : i ≠ t.size := (lt_size_iff.mpr ⟨x, hx⟩).ne
      exact ⟨x, by rw [entity?_insert, if_neg hi', hx], hx'⟩
  · rw [entity?_insert] at hx
    split_ifs at hx with hi
    · cases hx
      rw [he.controls_eq]
      exact .nil
    · exact h.sorted i x hx
  · rw [entity?_insert] at hx
    split_ifs at hx with hi
    · cases hx
      exact absurd (hlisted role) hne
    · exact h.owner i x hx role hrole hne

/-! ### Listing more -/

/-- A tree in which one entity lists more than before in a role. -/
structure Lists (t : Tree) (owner : Nat) (role : Role) (added : List Nat) (u : Tree) : Prop where
  size_eq : u.size = t.size
  other : ∀ i, i ≠ owner → u.entity? i = t.entity? i
  own : ∀ o, t.entity? owner = some o → ∃ o', u.entity? owner = some o' ∧ o'.role = o.role
    ∧ o'.parent = o.parent ∧ ∀ r, o'.listed r = o.listed r ++ if r = role then added else []

/-- A change of the one entity that adds to what it lists. -/
lemma Lists.of_modify {owner : Nat} {role : Role} {added : List Nat} {f : Entity → Entity}
    (hrole : ∀ e, (f e).role = e.role) (hparent : ∀ e, (f e).parent = e.parent)
    (hlisted : ∀ e r, (f e).listed r = e.listed r ++ if r = role then added else []) :
    t.Lists owner role added (t.modify owner f) where
  size_eq := t.size_modify owner f
  other i hi := t.entity?_modify_of_ne f (Ne.symm hi)
  own o ho := ⟨f o, by rw [entity?_modify_self, ho, Option.map_some], hrole o, hparent o,
    hlisted o⟩

namespace Lists

variable {u w : Tree} {owner : Nat} {role : Role} {added more : List Nat}

lemma refl (t : Tree) (owner : Nat) (role : Role) : t.Lists owner role [] t :=
  ⟨rfl, fun _ _ => rfl, fun o ho => ⟨o, ho, rfl, rfl, by simp⟩⟩

lemma trans (h : t.Lists owner role added u) (h' : u.Lists owner role more w) :
    t.Lists owner role (added ++ more) w where
  size_eq := h'.size_eq.trans h.size_eq
  other i hi := (h'.other i hi).trans (h.other i hi)
  own o ho := by
    obtain ⟨o', ho', hrole, hparent, hlisted⟩ := h.own o ho
    obtain ⟨o'', ho'', hrole', hparent', hlisted'⟩ := h'.own o' ho'
    refine ⟨o'', ho'', hrole'.trans hrole, hparent'.trans hparent, fun r => ?_⟩
    rw [hlisted', hlisted]
    split_ifs <;> simp

/-- Every entity is still there, with its role, its parent and what it has listed. -/
lemma exists_entity (h : t.Lists owner role added u) {i : Nat} {e : Entity}
    (he : t.entity? i = some e) : ∃ e', u.entity? i = some e' ∧ e'.role = e.role
      ∧ e'.parent = e.parent ∧ ∀ r, e.listed r ⊆ e'.listed r := by
  by_cases hi : i = owner
  · subst hi
    obtain ⟨e', he', hrole, hparent, hlisted⟩ := h.own e he
    exact ⟨e', he', hrole, hparent, fun r => by rw [hlisted]; exact List.subset_append_left _ _⟩
  · exact ⟨e, by rw [h.other i hi, he], rfl, rfl, fun _ => List.Subset.refl _⟩

/-- Every entity was there before, with its role and its parent, and with what it lists but for
what the one entity has been given. -/
lemma exists_before (h : t.Lists owner role added u) {i : Nat} {e' : Entity}
    (he' : u.entity? i = some e') : ∃ e, t.entity? i = some e ∧ e'.role = e.role
      ∧ e'.parent = e.parent
      ∧ ∀ r, e'.listed r = e.listed r ++ if i = owner ∧ r = role then added else [] := by
  have hlt : i < t.size := by
    rw [← h.size_eq]
    exact lt_size_iff.mpr ⟨e', he'⟩
  obtain ⟨e, he⟩ := lt_size_iff.mp hlt
  refine ⟨e, he, ?_⟩
  by_cases hi : i = owner
  · subst hi
    obtain ⟨o', ho', hrole, hparent, hlisted⟩ := h.own e he
    rw [he', Option.some.injEq] at ho'
    subst ho'
    exact ⟨hrole, hparent, fun r => by simp [hlisted]⟩
  · rw [h.other i hi, he, Option.some.injEq] at he'
    subst he'
    exact ⟨rfl, rfl, fun r => by simp [hi]⟩

end Lists

/-- Listing entities where they belong keeps a tree linked. -/
lemma Linked.link {u : Tree} {owner : Nat} {role : Role} {added : List Nat} (h : t.Linked)
    (hu : t.Lists owner role added u)
    (hadded : ∀ i ∈ added, ∃ e, t.entity? i = some e ∧ e.role = role
      ∧ (role ≠ .dataProvider → e.parent = some owner))
    (howner : role ≠ .action → ∀ o, t.entity? owner = some o → o.role = .control)
    (hsorted : role = .control → ∀ o, t.entity? owner = some o →
      (o.controls ++ added).Pairwise (· < ·)) : u.Linked := by
  refine ⟨fun i x hx => ?_, fun i x hx => ?_, fun j o ho r i hi => ?_, fun i x hx => ?_,
    fun i x hx r hr hne => ?_⟩
  · obtain ⟨e, he, -, hparent, -⟩ := hu.exists_before hx
    rw [hparent]
    exact h.parent_lt i e he
  · obtain ⟨e, he, -, hparent, -⟩ := hu.exists_before hx
    rw [hparent]
    exact h.orphan_iff i e he
  · obtain ⟨o₀, ho₀, -, -, hlisted⟩ := hu.exists_before ho
    rw [hlisted, List.mem_append] at hi
    obtain ⟨e, he, hrole, hparent⟩ : ∃ e, t.entity? i = some e ∧ e.role = r
        ∧ (r ≠ .dataProvider → e.parent = some j) := by
      rcases hi with hi | hi
      · exact h.listed j o₀ ho₀ r i hi
      · split_ifs at hi with hj
        · rw [hj.1, hj.2]
          exact hadded i hi
        · exact absurd hi (by simp)
    obtain ⟨e', he', hrole', hparent', -⟩ := hu.exists_entity he
    exact ⟨e', he', hrole'.trans hrole, fun hr => hparent'.trans (hparent hr)⟩
  · obtain ⟨e, he, -, -, hlisted⟩ := hu.exists_before hx
    have hcontrols : x.controls = e.controls ++ if i = owner ∧ .control = role then added else [] :=
      hlisted .control
    rw [hcontrols]
    split_ifs with hi
    · exact hsorted hi.2.symm e (hi.1 ▸ he)
    · rw [List.append_nil]
      exact h.sorted i e he
  · obtain ⟨e, he, hrole, -, hlisted⟩ := hu.exists_before hx
    rw [hrole]
    rw [hlisted] at hne
    split_ifs at hne with hi
    · exact howner (hi.2 ▸ hr) e (hi.1 ▸ he)
    · rw [List.append_nil] at hne
      exact h.owner i e he r hr hne

/-! ### Open entities -/

/-- Every entity is listed by its parent but the open ones, which stand on the stack, each above its
parent. -/
structure Opens (t : Tree) (stack : List (Nat × Role)) : Prop where
  empty : stack = [] → t.size = 0
  found : ∀ entry ∈ stack, ∃ e, t.entity? entry.1 = some e ∧ e.role = entry.2
  order : stack.Pairwise fun above below => below.1 < above.1
  chain : stack.IsChain fun above below =>
    ∀ e, t.entity? above.1 = some e → e.parent = some below.1
  /-- What the parent of an open entity has listed is older than the entity. -/
  newest : ∀ entry ∈ stack, ∀ e, t.entity? entry.1 = some e → ∀ p ∈ e.parent,
    ∀ o, t.entity? p = some o → ∀ i ∈ o.controls, i < entry.1
  closed : ∀ i e, t.entity? i = some e → i ∉ stack.map Prod.fst →
    ∃ p o, e.parent = some p ∧ t.entity? p = some o ∧ i ∈ o.listed e.role

lemma Opens.lt_size {stack : List (Nat × Role)} (h : t.Opens stack) {entry : Nat × Role}
    (hentry : entry ∈ stack) : entry.1 < t.size := by
  obtain ⟨e, he, _⟩ := h.found entry hentry
  exact lt_size_iff.mpr ⟨e, he⟩

/-- The owner of what enters next is on top of the stack; there is none for the first entity. -/
lemma Opens.ownerOf_lt {stack : List (Nat × Role)} (h : t.Opens stack) :
    ∀ p ∈ Builder.ownerOf stack, p < t.size := by
  intro p hp
  cases stack with
  | nil => simp [Builder.ownerOf] at hp
  | cons top below =>
      simp only [Builder.ownerOf, List.head?_cons, Option.map_some, Option.mem_some_iff] at hp
      exact hp ▸ h.lt_size List.mem_cons_self

lemma Opens.ownerOf_eq_none_iff {stack : List (Nat × Role)} (h : t.Opens stack) :
    Builder.ownerOf stack = none ↔ t.size = 0 := by
  cases stack with
  | nil => simpa [Builder.ownerOf] using h.empty rfl
  | cons top below =>
      have hlt : top.1 < t.size := h.lt_size List.mem_cons_self
      simp only [Builder.ownerOf, List.head?_cons, Option.map_some, reduceCtorEq, false_iff]
      omega

/-- A new entity is open. -/
lemma Opens.insert {stack : List (Nat × Role)} (h : t.Opens stack) (hl : t.Linked) {e : Entity}
    {id : String} {role : Role} (he : e.IsNew id role (Builder.ownerOf stack)) :
    (t.insert e).Opens ((t.size, role) :: stack) := by
  have hold : ∀ i, i < t.size → (t.insert e).entity? i = t.entity? i := fun i hi =>
    entity?_insert_of_lt t e hi
  refine ⟨by simp, fun entry hentry => ?_, ?_, ?_, fun entry hentry x hx p hp o ho i hi => ?_,
    fun i x hx hi => ?_⟩
  · obtain rfl | hentry := List.mem_cons.mp hentry
    · exact ⟨e, entity?_insert_size t e, he.role_eq⟩
    · rw [hold _ (h.lt_size hentry)]
      exact h.found entry hentry
  · exact List.pairwise_cons.mpr ⟨fun entry hentry => h.lt_size hentry, h.order⟩
  · refine List.isChain_cons.mpr ⟨fun below hbelow x hx => ?_, ?_⟩
    · rw [entity?_insert_size, Option.some.injEq] at hx
      rw [← hx, he.parent_eq, Builder.ownerOf, hbelow, Option.map_some]
    · refine h.chain.imp_of_mem_imp fun above below habove _ hchain x hx => ?_
      rw [hold _ (h.lt_size habove)] at hx
      exact hchain x hx
  · have hp' : p < t.size := by
      obtain rfl | hentry := List.mem_cons.mp hentry
      · rw [entity?_insert_size, Option.some.injEq] at hx
        rw [← hx, he.parent_eq] at hp
        exact h.ownerOf_lt p hp
      · rw [hold _ (h.lt_size hentry)] at hx
        exact (hl.parent_lt _ x hx p hp).trans (h.lt_size hentry)
    rw [hold _ hp'] at ho
    obtain rfl | hentry := List.mem_cons.mp hentry
    · obtain ⟨c, hc, _⟩ := hl.listed p o ho .control i hi
      exact lt_size_iff.mpr ⟨c, hc⟩
    · rw [hold _ (h.lt_size hentry)] at hx
      exact h.newest entry hentry x hx p hp o ho i hi
  · rw [List.map_cons, List.mem_cons, not_or] at hi
    rw [entity?_insert, if_neg hi.1] at hx
    obtain ⟨p, o, hp, ho, hlisted⟩ := h.closed i x hx hi.2
    exact ⟨p, o, hp, by rw [hold _ (lt_size_iff.mpr ⟨o, ho⟩), ho], hlisted⟩

/-- What an open entity lists anew is closed. -/
lemma Opens.link {u : Tree} {top stack : List (Nat × Role)} {owner : Nat} {r role : Role}
    {added : List Nat} (h : t.Opens (top ++ (owner, r) :: stack)) (hl : t.Linked)
    (hu : t.Lists owner role added u)
    (htop : ∀ entry ∈ top, entry.1 ∈ added ∧ entry.2 = role
      ∧ ∀ e, t.entity? entry.1 = some e → e.parent = some owner) :
    u.Opens ((owner, r) :: stack) := by
  have hmem : ∀ entry ∈ (owner, r) :: stack, entry ∈ top ++ (owner, r) :: stack :=
    fun entry hentry => List.mem_append_right _ hentry
  have horder : ((owner, r) :: stack).Pairwise fun above below => below.1 < above.1 :=
    (List.pairwise_append.mp h.order).2.1
  refine ⟨by simp, fun entry hentry => ?_, horder, ?_,
    fun entry hentry x hx p hp o ho i hi => ?_, fun i x hx hi => ?_⟩
  · obtain ⟨e, he, hrole⟩ := h.found entry (hmem entry hentry)
    obtain ⟨e', he', hrole', -⟩ := hu.exists_entity he
    exact ⟨e', he', hrole'.trans hrole⟩
  · refine (List.isChain_append.mp h.chain).2.1.imp fun above below hchain x hx => ?_
    obtain ⟨e, he, -, hparent, -⟩ := hu.exists_before hx
    rw [hparent]
    exact hchain e he
  · -- The parent of an open entity is below the owner, which alone lists more than before.
    obtain ⟨e, he, -, hparent, -⟩ := hu.exists_before hx
    rw [hparent] at hp
    have hle : entry.1 ≤ owner := by
      obtain rfl | hentry := List.mem_cons.mp hentry
      · exact le_rfl
      · exact (List.rel_of_pairwise_cons horder hentry).le
    have hne : p ≠ owner := ((hl.parent_lt _ e he p hp).trans_le hle).ne
    rw [hu.other p hne] at ho
    exact h.newest entry (hmem entry hentry) e he p hp o ho i hi
  · obtain ⟨e, he, hrole, hparent, -⟩ := hu.exists_before hx
    rw [hrole, hparent]
    by_cases hin : i ∈ (top ++ (owner, r) :: stack).map Prod.fst
    · -- The entity has just been taken off the stack.
      rw [List.map_append, List.mem_append] at hin
      obtain ⟨entry, hentry, rfl⟩ := List.mem_map.mp (hin.resolve_right hi)
      obtain ⟨hadd, hr, hown⟩ := htop entry hentry
      obtain ⟨e₀, he₀, hrole₀⟩ := h.found entry (List.mem_append_left _ hentry)
      rw [he, Option.some.injEq] at he₀
      subst he₀
      obtain ⟨o, ho, -⟩ := h.found (owner, r) (hmem _ List.mem_cons_self)
      obtain ⟨o', ho', -, -, hlisted⟩ := hu.own o ho
      refine ⟨owner, o', hown e he, ho', ?_⟩
      rw [hlisted, hrole₀, hr, if_pos rfl]
      exact List.mem_append_right _ hadd
    · obtain ⟨p, o, hp, ho, hlisted⟩ := h.closed i e he hin
      obtain ⟨o', ho', -, -, hsub⟩ := hu.exists_entity ho
      exact ⟨p, o', hp, ho', hsub _ hlisted⟩

/-- The entity on top of the stack belongs to the one below it. -/
lemma Opens.parent_eq {top owner : Nat × Role} {stack : List (Nat × Role)}
    (h : t.Opens (top :: owner :: stack)) {e : Entity} (he : t.entity? top.1 = some e) :
    e.parent = some owner.1 :=
  (List.isChain_cons_cons.mp h.chain).1 e he

/-- Linking the open entity on top of the stack to the one below it. -/
lemma Opens.close {u : Tree} {i owner : Nat} {role r : Role} {stack : List (Nat × Role)}
    {added : List Nat} (h : t.Opens ((i, role) :: (owner, r) :: stack)) (hl : t.Linked)
    (hu : t.Lists owner role added u) (hmem : i ∈ added) (hall : ∀ j ∈ added, j = i)
    (hrole : role ≠ .action → r = .control) (hone : role = .control → added = [i]) :
    u.Linked ∧ u.Opens ((owner, r) :: stack) := by
  obtain ⟨e, he, herole⟩ := h.found (i, role) List.mem_cons_self
  obtain ⟨o, ho, horole⟩ := h.found (owner, r) (by simp)
  have hparent : e.parent = some owner := h.parent_eq he
  have htop : t.Opens ([(i, role)] ++ (owner, r) :: stack) := h
  refine ⟨hl.link hu (fun j hj => ?_) (fun hr x hx => ?_) (fun hr x hx => ?_),
    htop.link hl hu fun entry hentry => ?_⟩
  · rw [hall j hj]
    exact ⟨e, he, herole, fun _ => hparent⟩
  · rw [ho, Option.some.injEq] at hx
    rw [← hx, horole, hrole hr]
  · rw [hone hr]
    refine List.pairwise_append.mpr ⟨hl.sorted owner x hx, List.pairwise_singleton _ _,
      fun c hc j hj => ?_⟩
    rw [List.mem_singleton.mp hj]
    exact h.newest (i, role) List.mem_cons_self e he owner hparent x hx c hc
  · rw [List.mem_singleton.mp hentry]
    exact ⟨hmem, rfl, fun x hx => h.parent_eq hx⟩

/-! ### Ids and declared events -/

/-- The ids and the declared events agree with the entities. -/
structure Registered (t : Tree) : Prop where
  ids_lt : ∀ entry ∈ t.ids, entry.2 < t.size
  declared_iff : ∀ event, event ∈ t.declared ↔
    ∃ i e, t.entity? i = some e ∧ ∃ b ∈ e.bindings, b.event = event

/-- A new entity binds nothing. -/
lemma Registered.insert (h : t.Registered) {e : Entity} (he : e.bindings = []) :
    (t.insert e).Registered where
  ids_lt entry hentry := by
    rw [size_insert]
    obtain hold | hnew := Keyed.mem_insertNew hentry
    · exact (h.ids_lt entry hold).trans (Nat.lt_succ_self _)
    · rw [hnew]
      exact Nat.lt_succ_self _
  declared_iff event := by
    rw [show (t.insert e).declared = t.declared from rfl, h.declared_iff]
    constructor
    · rintro ⟨i, x, hx, hb⟩
      exact ⟨i, x, by rw [entity?_insert_of_lt t e (lt_size_iff.mpr ⟨x, hx⟩), hx], hb⟩
    · rintro ⟨i, x, hx, b, hb, hevent⟩
      rw [entity?_insert] at hx
      split_ifs at hx
      · cases hx
        rw [he] at hb
        exact absurd hb (by simp)
      · exact ⟨i, x, hx, b, hb, hevent⟩

/-- A change of an entity that keeps its bindings. -/
lemma Registered.modify (h : t.Registered) (index : Nat) {f : Entity → Entity}
    (hf : ∀ e, (f e).bindings = e.bindings) : (t.modify index f).Registered where
  ids_lt entry hentry := by
    rw [size_modify]
    exact h.ids_lt entry hentry
  declared_iff event := by
    rw [show (t.modify index f).declared = t.declared from rfl, h.declared_iff]
    constructor
    · rintro ⟨i, x, hx, hb⟩
      by_cases hi : index = i
      · exact ⟨i, f x, by rw [entity?_modify, if_pos hi, hx, Option.map_some], by rwa [hf]⟩
      · exact ⟨i, x, by rw [entity?_modify, if_neg hi, hx], hb⟩
    · rintro ⟨i, x, hx, hb⟩
      rw [entity?_modify] at hx
      split_ifs at hx
      · obtain ⟨y, hy, rfl⟩ := Option.map_eq_some_iff.mp hx
        exact ⟨i, y, hy, by rwa [hf] at hb⟩
      · exact ⟨i, x, hx, hb⟩

/-- A binding declares its event. -/
lemma Registered.bind (h : t.Registered) {owner : Nat} (ho : owner < t.size) (binding : Binding) :
    (t.bind owner binding).Registered where
  ids_lt entry hentry := by
    rw [size_bind]
    exact h.ids_lt entry hentry
  declared_iff event := by
    have hdeclared : event ∈ (t.bind owner binding).declared
        ↔ event ∈ t.declared ∨ event = binding.event := by
      simp only [Tree.bind]
      split_ifs with hmem
      · exact ⟨.inl, fun hor => hor.elim id fun heq => heq ▸ hmem⟩
      · simp
    have hentity : ∀ i, (t.bind owner binding).entity? i = if owner = i then
        (t.entity? i).map fun e => { e with bindings := e.bindings ++ [binding] }
        else t.entity? i := fun i => t.entity?_modify owner _ i
    rw [hdeclared, h.declared_iff]
    constructor
    · rintro (⟨i, x, hx, b, hb, hevent⟩ | rfl)
      · by_cases hi : owner = i
        · exact ⟨i, _, by rw [hentity, if_pos hi, hx, Option.map_some], b,
            List.mem_append_left _ hb, hevent⟩
        · exact ⟨i, x, by rw [hentity, if_neg hi, hx], b, hb, hevent⟩
      · obtain ⟨o, ho⟩ := lt_size_iff.mp ho
        exact ⟨owner, _, by rw [hentity, if_pos rfl, ho, Option.map_some], binding, by simp, rfl⟩
    · rintro ⟨i, x, hx, b, hb, hevent⟩
      rw [hentity] at hx
      split_ifs at hx
      · obtain ⟨y, hy, rfl⟩ := Option.map_eq_some_iff.mp hx
        obtain hold | hnew := List.mem_append.mp hb
        · exact .inl ⟨i, y, hy, b, hold, hevent⟩
        · exact .inr (by rw [← hevent, List.mem_singleton.mp hnew])
      · exact .inl ⟨i, x, hx, b, hb, hevent⟩

end Tree

/-! ### Along the walk -/

namespace Builder

lemma linkProvider_lists (b : Build) (owner provider : Nat) :
    b.tree.Lists owner .dataProvider [provider] (b.linkProvider owner provider).tree :=
  .of_modify (fun _ => rfl) (fun _ => rfl) fun e r => by cases r <;> simp [Entity.listed]

/-- Binding events to an action lists it once for every event. -/
lemma bind_lists (b : Build) (owner action : Nat) (events : List EventName) :
    b.tree.Lists owner .action (List.replicate events.length action)
      (b.bind owner action events).tree := by
  induction events generalizing b with
  | nil => exact .refl _ _ _
  | cons event rest ih =>
      have hfirst : b.tree.Lists owner .action [action] (b.bind owner action [event]).tree := by
        have hm : b.tree.Lists owner .action [action] (b.tree.modify owner fun e =>
            { e with bindings := e.bindings ++ [⟨event, action⟩] }) :=
          .of_modify (fun _ => rfl) (fun _ => rfl) fun e r => by cases r <;> simp [Entity.listed]
        exact ⟨hm.size_eq, hm.other, hm.own⟩
      exact hfirst.trans (ih (b.bind owner action [event]))

@[simp] lemma bind_root (b : Build) (owner action : Nat) (events : List EventName) :
    (b.bind owner action events).tree.root = b.tree.root :=
  Build.bind_induction (P := fun c => c.tree.root = b.tree.root) (fun _ _ _ hc => hc) rfl

/-- A build on the way: whatever is listed belongs there, the entities on the stack are open, and
the root has not been named yet. -/
structure Pending (stack : List (Nat × Role)) (b : Build) : Prop where
  linked : b.tree.Linked
  opens : b.tree.Opens stack
  root : b.tree.root = none

/-- Every step of the walk keeps what is listed and what is open. -/
lemma tracks_pending (builder : Builder) : builder.Tracks Pending where
  report _ _ _ _ h := ⟨h.linked, h.opens, h.root⟩
  enter stack b role path own _ h := by
    have hcases := builder.enter_cases role (ownerOf stack) path own b
    cases hent : builder.enter role (ownerOf stack) path own b with
    | mk b' index =>
        rw [hent] at hcases
        rcases hcases with ⟨ht, hi⟩ | ⟨id, e, ht, hi, he⟩
        · cases hi
          exact ⟨ht ▸ h.linked, ht ▸ h.opens, ht ▸ h.root⟩
        · cases hi
          refine ⟨?_, ?_, ?_⟩ <;> rw [ht]
          · exact h.linked.insert he h.opens.ownerOf_lt h.opens.ownerOf_eq_none_iff
          · exact h.opens.insert h.linked he
          · exact h.root
  linkControl stack b owner child h := by
    have hu : b.tree.Lists owner .control [child] (b.linkControl owner child).tree :=
      .of_modify (fun _ => rfl) (fun _ => rfl) fun e r => by cases r <;> simp [Entity.listed]
    obtain ⟨hl, ho⟩ := h.opens.close h.linked hu (by simp) (by simp) (fun _ => rfl) fun _ => rfl
    exact ⟨hl, ho, h.root⟩
  linkProvider stack b owner provider h := by
    obtain ⟨hl, ho⟩ := h.opens.close h.linked (linkProvider_lists b owner provider) (by simp)
      (by simp) (fun _ => rfl) (by simp)
    exact ⟨hl, ho, h.root⟩
  share stack b owner provider hp h := by
    have hu := linkProvider_lists b owner provider
    obtain ⟨e, he, hrole⟩ := hp
    obtain ⟨o, ho, horole⟩ := h.opens.found (owner, .control) (by simp)
    have hopens : b.tree.Opens ([] ++ (owner, .control) :: stack) := h.opens
    refine ⟨h.linked.link hu (fun i hi => ?_) (fun _ x hx => ?_) (by simp),
      hopens.link h.linked hu (by simp), h.root⟩
    · rw [List.mem_singleton.mp hi]
      exact ⟨e, he, hrole, fun hne => absurd rfl hne⟩
    · rw [ho, Option.some.injEq] at hx
      rw [← hx, horole]
  bind stack b owner role action events hne _ h := by
    have hmem : action ∈ List.replicate events.length action :=
      List.mem_replicate.mpr ⟨by simpa using hne, rfl⟩
    obtain ⟨hl, ho⟩ := h.opens.close h.linked (bind_lists b owner action events) hmem
      (fun j hj => (List.mem_replicate.mp hj).2) (by simp) (by simp)
    exact ⟨hl, ho, by rw [bind_root, h.root]⟩

/-- Every step of the walk keeps the ids and the declared events. -/
lemma keeps_registered (builder : Builder) : builder.Keeps fun b => b.tree.Registered where
  report _ _ _ h := h
  enter b role owner path own h := by
    rcases builder.enter_cases role owner path own b with ⟨ht, -⟩ | ⟨id, e, ht, -, he⟩
    · rw [ht]
      exact h
    · rw [ht]
      exact h.insert he.bindings_eq
  linkControl _ owner _ _ _ h := h.modify owner fun _ => rfl
  linkProvider _ owner _ _ _ h := h.modify owner fun _ => rfl
  bind b owner action events ho _ _ h := by
    have hboth : owner < b.tree.size ∧ b.tree.Registered := ⟨ho, h⟩
    exact (Build.bind_induction (P := fun c => owner < c.tree.size ∧ c.tree.Registered)
      (fun c event _ hc => ⟨by rw [Build.bind_size]; exact hc.1, hc.2.bind hc.1 _⟩) hboth).2

/-- Every step of the walk keeps it that all declared events have names in normal form. -/
lemma keeps_normal (builder : Builder) :
    builder.Keeps fun b => ∀ event ∈ b.tree.declared, event.IsNormal where
  report _ _ _ h := h
  enter b role owner path own h := by
    rcases builder.enter_cases role owner path own b with ⟨ht, -⟩ | ⟨id, e, ht, -, -⟩
    · rw [ht]
      exact h
    · rw [ht]
      exact h
  linkControl _ _ _ _ _ h := h
  linkProvider _ _ _ _ _ h := h
  bind _ _ _ _ _ _ hnormal h := by
    refine Build.bind_induction (P := fun c => ∀ event ∈ c.tree.declared, event.IsNormal)
      (fun c event hevent hc other hother => ?_) h
    have hcases : other ∈ c.tree.declared ∨ other = event := by
      simp only [Build.bind, List.foldl_cons, List.foldl_nil, Tree.bind] at hother
      split_ifs at hother
      · exact .inl hother
      · simpa using hother
    obtain hold | rfl := hcases
    · exact hc other hold
    · exact hnormal other hevent

end Builder

/-- No entity of the tree has run or loaded anything yet. -/
def Tree.Idle (t : Tree) : Prop :=
  ∀ i e, t.entity? i = some e → e.state = .idle ∧ e.payload = none

/-- Nothing has run or loaded in a built tree. -/
lemma Document.build_idle (document : Document) (catalog : Catalog) (evaluator : Evaluator)
    (dispatch : DispatchConfig) : (document.build catalog evaluator dispatch).tree.Idle :=
  Builder.forall_build (fun hd => ⟨(Builder.describe_isNew hd).state_eq,
    (Builder.describe_isNew hd).payload_eq⟩) (fun _ _ _ _ h => h) document

/-! ### Behaviours -/

/-- The behaviour of an entity, if it has one, is one of its role. -/
def Entity.Fits (e : Entity) : Prop :=
  match e.behaviour with
  | .none => True
  | .control _ => e.role = .control
  | .dataProvider _ => e.role = .dataProvider
  | .action _ => e.role = .action

lemma Entity.Fits.role_eq {e : Entity} (h : e.Fits) (hp : e.behaviour.dataProvider?.isSome) :
    e.role = .dataProvider := by
  unfold Entity.Fits at h
  cases hb : e.behaviour with
  | dataProvider provider => rwa [hb] at h
  | _ => simp [hb, Behaviour.dataProvider?] at hp

lemma Builder.typed_fits {builder : Builder} {role : Role} {id : String} {own : Attributes}
    {e : Entity} {faults : List BuildFault} (h : builder.typed role id own = (faults, some e)) :
    e.Fits := by
  have hrole := (typed_isNew h).role_eq
  rcases typed_cases h with ⟨-, hnone⟩ | ⟨typeName, attributes, -, -, hb⟩
  · simp [Entity.Fits, hnone]
  · rw [← hrole] at hb
    cases he : e.role <;> rw [he] at hb <;>
      simp only [Builder.behaviour, bind, Except.bind, pure, Except.pure] at hb <;>
      split at hb <;> simp only [Except.ok.injEq, Prod.mk.injEq, reduceCtorEq] at hb <;>
      simp [Entity.Fits, ← hb.1, he]

lemma Builder.describe_fits {builder : Builder} {t : Tree} {role : Role} {owner : Option Nat}
    {id : String} {own : Attributes} {e : Entity} {faults : List BuildFault}
    (h : builder.describe t role owner id own = (faults, some e)) : e.Fits := by
  obtain ⟨faults', e', ht, rfl⟩ := describe_eq h
  have hfits := typed_fits ht
  rw [completed]
  dsimp only
  split <;> exact hfits

/-- Every entity of the tree behaves as one of its role. -/
def Tree.Fitting (t : Tree) : Prop := ∀ i e, t.entity? i = some e → e.Fits

/-- Every entity of a built tree behaves as one of its role. -/
lemma Document.build_fitting (document : Document) (catalog : Catalog) (evaluator : Evaluator)
    (dispatch : DispatchConfig) : (document.build catalog evaluator dispatch).tree.Fitting :=
  Builder.forall_build Builder.describe_fits (fun _ _ _ _ h => h) document

/-- Every event that a built tree declares has a name in normal form. -/
lemma Document.build_normal (document : Document) (catalog : Catalog) (evaluator : Evaluator)
    (dispatch : DispatchConfig) {event : EventName}
    (h : (document.build catalog evaluator dispatch).tree.declares event = true) :
    event.IsNormal :=
  (Builder.keeps_normal _).build (fun _ _ h => h) document (by simp) event (of_decide_eq_true h)

/-- A built tree: whatever is listed belongs there, everything but the root is listed, and ids and
declared events agree with the entities. -/
structure Tree.Built (t : Tree) : Prop where
  linked : t.Linked
  registered : t.Registered
  rooted : (t.root = none ∧ t.Opens []) ∨ ∃ root, t.root = some root ∧ t.Opens [(root, .control)]

/-- Naming the root changes nothing else. -/
lemma Tree.Opens.congr {t u : Tree} {stack : List (Nat × Role)} (h : t.Opens stack)
    (he : u.entities = t.entities) : u.Opens stack := by
  have hentity : ∀ i, u.entity? i = t.entity? i := fun i => by rw [entity?, he, entity?]
  have hsize : u.size = t.size := by rw [size, he, size]
  obtain ⟨hempty, hfound, horder, hchain, hnewest, hclosed⟩ := h
  refine ⟨by rwa [hsize], ?_, horder, ?_, ?_, ?_⟩ <;> simpa only [hentity]

lemma Builder.build_built (builder : Builder) (document : Document) :
    (builder.build document).tree.Built := by
  have hnone : ∀ i, ({ app := document.app, session := document.session } : Tree).entity? i
      = none := fun _ => rfl
  have hregistered : (builder.build document).tree.Registered :=
    builder.keeps_registered.build (fun _ _ h => ⟨h.ids_lt, h.declared_iff⟩) document
      ⟨by simp, by simp [hnone]⟩
  have hstart : Pending [] { tree := { app := document.app, session := document.session } } :=
    ⟨.empty rfl, ⟨fun _ => rfl, by simp, .nil, .nil, by simp, by simp [hnone]⟩, rfl⟩
  rcases builder.tracks_pending.build document hstart with h | ⟨b, root, h, heq⟩
  · exact ⟨h.linked, hregistered, .inl ⟨h.root, h.opens⟩⟩
  · rw [heq] at hregistered ⊢
    exact ⟨⟨h.linked.parent_lt, h.linked.orphan_iff, h.linked.listed, h.linked.sorted,
      h.linked.owner⟩, hregistered, .inr ⟨root, rfl, h.opens.congr rfl⟩⟩

lemma Document.build_built (document : Document) (catalog : Catalog) (evaluator : Evaluator)
    (dispatch : DispatchConfig) : (document.build catalog evaluator dispatch).tree.Built :=
  Builder.build_built _ document

namespace Tree.Built

variable {t : Tree}

/-- The root is the first entity. -/
lemma root_eq (h : t.Built) {root : Nat} (hr : t.root = some root) :
    root = 0 ∧ ∃ e, t.entity? root = some e ∧ e.role = .control := by
  rcases h.rooted with ⟨hnone, -⟩ | ⟨r, hsome, ho⟩
  · rw [hnone] at hr
    exact absurd hr (by simp)
  · obtain rfl : r = root := by rwa [hsome, Option.some.injEq] at hr
    obtain ⟨e, he, hrole⟩ := ho.found (r, .control) (by simp)
    refine ⟨?_, e, he, hrole⟩
    -- The first entity has no parent, so it is on the stack, where the root is alone.
    have hpos : 0 < t.size := (Nat.zero_le r).trans_lt (ho.lt_size List.mem_cons_self)
    obtain ⟨first, hfirst⟩ := lt_size_iff.mp hpos
    have horphan : first.parent = none := (h.linked.orphan_iff 0 first hfirst).mpr rfl
    by_contra hne
    obtain ⟨p, o, hp, -⟩ := ho.closed 0 first hfirst (by simpa using Ne.symm hne)
    rw [horphan] at hp
    exact absurd hp (by simp)

/-- There is a root as soon as there is an entity. -/
lemma root_isSome_iff (h : t.Built) : t.root.isSome ↔ t.size ≠ 0 := by
  rcases h.rooted with ⟨hnone, ho⟩ | ⟨r, hsome, ho⟩
  · simp [hnone, ho.empty rfl]
  · have hlt : r < t.size := ho.lt_size List.mem_cons_self
    simpa [hsome] using (Nat.zero_le r |>.trans_lt hlt).ne'

/-- The root alone has no parent. -/
lemma orphan_iff (h : t.Built) {i : Nat} {e : Entity} (he : t.entity? i = some e) :
    e.parent = none ↔ t.root = some i := by
  rw [h.linked.orphan_iff i e he]
  constructor
  · intro hi
    have hpos : t.size ≠ 0 := (Nat.zero_le i |>.trans_lt (lt_size_iff.mpr ⟨e, he⟩)).ne'
    obtain ⟨r, hr⟩ := Option.isSome_iff_exists.mp (h.root_isSome_iff.mpr hpos)
    rw [hr, (h.root_eq hr).1, hi]
  · exact fun hr => (h.root_eq hr).1

/-- Every entity but the root is listed by its parent. -/
lemma exists_parent (h : t.Built) {i : Nat} {e : Entity} (he : t.entity? i = some e)
    (hi : t.root ≠ some i) :
    ∃ p o, e.parent = some p ∧ t.entity? p = some o ∧ i ∈ o.listed e.role := by
  rcases h.rooted with ⟨-, ho⟩ | ⟨r, hsome, ho⟩
  · exact ho.closed i e he (by simp)
  · refine ho.closed i e he ?_
    rw [hsome, ne_eq, Option.some.injEq] at hi
    simpa using Ne.symm hi

/-- A control other than the root is listed once, by its parent. -/
lemma count_control (h : t.Built) {i : Nat} {e : Entity} (he : t.entity? i = some e)
    (hrole : e.role = .control) (hi : t.root ≠ some i) {j : Nat} {o : Entity}
    (ho : t.entity? j = some o) : o.controls.count i = if e.parent = some j then 1 else 0 := by
  obtain ⟨p, q, hp, hq, hmem⟩ := h.exists_parent he hi
  rw [hrole] at hmem
  split_ifs with hj
  · obtain rfl : p = j := Option.some.inj (hp.symm.trans hj)
    obtain rfl : o = q := Option.some.inj (ho.symm.trans hq)
    exact List.count_eq_one_of_mem (h.linked.sorted p o ho).nodup hmem
  · refine List.count_eq_zero.mpr fun hmem' => hj ?_
    have hlisted : i ∈ o.listed .control := hmem'
    exact h.linked.parent_eq he ho hlisted (by simp)

/-- An action is bound by its parent, and by nobody else. -/
lemma bound_iff (h : t.Built) {i : Nat} {e : Entity} (he : t.entity? i = some e)
    (hrole : e.role = .action) {j : Nat} {o : Entity} (ho : t.entity? j = some o) :
    i ∈ o.bindings.map Binding.action ↔ e.parent = some j := by
  constructor
  · intro hmem
    have hlisted : i ∈ o.listed .action := hmem
    exact h.linked.parent_eq he ho hlisted (by simp)
  · intro hj
    have hi : t.root ≠ some i := fun hr => by
      rw [(h.orphan_iff he).mpr hr] at hj
      exact absurd hj (by simp)
    obtain ⟨p, q, hp, hq, hmem⟩ := h.exists_parent he hi
    obtain rfl : p = j := Option.some.inj (hp.symm.trans hj)
    obtain rfl : o = q := Option.some.inj (ho.symm.trans hq)
    rwa [hrole] at hmem

/-- A data provider is listed by its parent. -/
lemma provider_mem (h : t.Built) {i : Nat} {e : Entity} (he : t.entity? i = some e)
    (hrole : e.role = .dataProvider) :
    ∃ p o, e.parent = some p ∧ t.entity? p = some o ∧ i ∈ o.dataProviders := by
  have hi : t.root ≠ some i := fun hr => by
    obtain ⟨-, r, hr', hcontrol⟩ := h.root_eq hr
    obtain rfl : e = r := Option.some.inj (he.symm.trans hr')
    rw [hrole] at hcontrol
    exact absurd hcontrol (by simp)
  obtain ⟨p, o, hp, ho, hmem⟩ := h.exists_parent he hi
  rw [hrole] at hmem
  exact ⟨p, o, hp, ho, hmem⟩

lemma links_lt (h : t.Built) {i : Nat} {e : Entity} (he : t.entity? i = some e) :
    ∀ j ∈ e.links, j < t.size := by
  intro j hj
  have hlisted : ∀ role, j ∈ e.listed role → j < t.size := fun _ => h.linked.listed_lt he
  simp only [Entity.links, List.mem_append, Option.mem_toList] at hj
  obtain ((hp | hc) | hd) | hb := hj
  · exact (h.linked.parent_lt i e he j hp).trans (lt_size_iff.mpr ⟨e, he⟩)
  · exact hlisted .control hc
  · exact hlisted .dataProvider hd
  · exact hlisted .action hb

/-- Only controls list controls and data providers. -/
lemma owner_role (h : t.Built) {i : Nat} {e : Entity} (he : t.entity? i = some e)
    (hne : e.controls ≠ [] ∨ e.dataProviders ≠ []) : e.role = .control := by
  obtain hc | hd := hne
  · exact h.linked.owner i e he .control (by simp) hc
  · exact h.linked.owner i e he .dataProvider (by simp) hd

lemma declares_iff (h : t.Built) (event : EventName) : t.declares event = true ↔
    ∃ i e, t.entity? i = some e ∧ ∃ b ∈ e.bindings, b.event = event := by
  rw [declares, decide_eq_true_eq, h.registered.declared_iff]

end Tree.Built

/-- **Every built tree is well formed**, whatever the declarations of the document are. -/
theorem Document.build_wellFormed (document : Document) (catalog : Catalog) (evaluator : Evaluator)
    (dispatch : DispatchConfig) :
    (document.build catalog evaluator dispatch).tree.WellFormed := by
  have h := document.build_built catalog evaluator dispatch
  exact
    { links_lt := fun _ _ => h.links_lt
      ids_lt := h.registered.ids_lt
      root_isSome_iff := h.root_isSome_iff
      root_eq := fun _ => h.root_eq
      orphan_iff := fun _ _ => h.orphan_iff
      parent_lt := h.linked.parent_lt
      count_control := fun _ _ he hrole hi _ _ => h.count_control he hrole hi
      controls_sorted := h.linked.sorted
      bound_iff := fun _ _ he hrole _ _ => h.bound_iff he hrole
      provider_mem := fun _ _ => h.provider_mem
      provider_role := fun j o ho i hi => by
        obtain ⟨e, he, hrole, -⟩ := h.linked.listed j o ho .dataProvider i hi
        exact ⟨e, he, hrole⟩
      owner_role := fun _ _ => h.owner_role
      declares_iff := h.declares_iff }

end Componentry

