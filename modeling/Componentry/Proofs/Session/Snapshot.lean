import Mathlib.Tactic
import Componentry.Proofs.Session.Normal
import Componentry.Proofs.Tree.Snapshot
/-!
# Snapshots of a running session

Every entity has a snapshot in every state of a session, and writing it and reading it back gives
the snapshot without its null payloads.  So what a provider has loaded comes back unless it is null:
then the provider shows no payload afterwards (`Session.run_roundTrip`).

Attributes are maps, and no key is in them twice: the build collects them key by key
(`Declared.nodup_keys_collected`), actions merge into them key by key, and the controls of a host
are taken to hand out a map if they are given one (`Catalog.KeepsKeys`), as the built-in ones do
(`Catalog.keepsKeys_withBuiltins`).  `Entity.Distinct` is the invariant.
-/

namespace Componentry

/-! ### Attributes without repeated keys -/

/-- A control that configures attributes without repeated keys to such attributes. -/
def Control.KeepsKeys (control : Control) : Prop :=
  ∀ attributes : Attributes, attributes.keys.Nodup → (control.configure attributes).keys.Nodup

/-- A catalog all of whose controls do so. -/
def Catalog.KeepsKeys (catalog : Catalog) : Prop :=
  ∀ typeName make blueprint control, catalog.resolveControl typeName = .ok make →
    make blueprint = .ok control → control.KeepsKeys

lemma Control.keepsKeys_of_mem_builtins {name : String} {control : Control}
    (h : (name, control) ∈ Control.builtins) : control.KeepsKeys := by
  intro attributes hattributes
  simp only [builtins, List.mem_cons, Prod.mk.injEq, List.not_mem_nil, or_false] at h
  rcases h with ⟨-, rfl⟩ | ⟨-, rfl⟩ | ⟨-, rfl⟩ | ⟨-, rfl⟩ | ⟨-, rfl⟩
  case inl => exact Keyed.nodup_keys_insert hattributes _ _
  case inr.inl => exact Keyed.nodup_keys_insertNew hattributes _ _
  case inr.inr.inl => exact hattributes
  case inr.inr.inr.inl => exact Keyed.nodup_keys_insert hattributes _ _
  case inr.inr.inr.inr => exact Keyed.nodup_keys_insertNew hattributes _ _

lemma Catalog.keepsKeys_withBuiltins {config : RegistryConfig} {catalog : Catalog}
    (h : Catalog.withBuiltins config = .ok catalog) : catalog.KeepsKeys := by
  intro typeName make blueprint control hmake hcontrol
  obtain ⟨name, known, hknown, rfl, -⟩ := Catalog.resolveControl_withBuiltins h hmake
  obtain rfl := Except.ok.inj hcontrol
  exact Control.keepsKeys_of_mem_builtins hknown

lemma Declared.nodup_keys_collected (styles : Keyed String Attributes) (extraKeys : List String)
    (own : Attributes) : (collected styles extraKeys own).keys.Nodup := by
  have hfold : ∀ (layers : List Attributes) (start : Attributes), start.keys.Nodup →
      (layers.foldl Keyed.extend start).keys.Nodup := by
    intro layers
    induction layers with
    | nil => exact fun _ hstart => hstart
    | cons layer rest ih => exact fun _ hstart => ih _ (Keyed.nodup_keys_extend hstart layer)
  exact hfold _ [] List.nodup_nil

/-- An entity without repeated attributes, whose control keeps it so. -/
structure Entity.Distinct (e : Entity) : Prop where
  attributes : e.attributes.keys.Nodup
  control : ∀ control, e.behaviour.control? = some control → control.KeepsKeys

namespace Builder

variable {builder : Builder} {t : Tree} {role : Role} {owner : Option Nat} {id : String}
  {own : Attributes} {e : Entity} {faults : List BuildFault}

lemma behaviour_attributes (hrole : role ≠ .control) {b : Blueprint} {behaviour : Behaviour}
    {attributes : Attributes} (h : builder.behaviour role b = .ok (behaviour, attributes)) :
    attributes = b.attributes := by
  cases role with
  | control => exact absurd rfl hrole
  | dataProvider | action =>
      simp only [Builder.behaviour, bind, Except.bind, pure, Except.pure] at h
      split at h
      · cases h
      · cases h
        rfl

lemma typed_distinct (hkeys : builder.catalog.KeepsKeys)
    (h : builder.typed role id own = (faults, some e)) : e.Distinct := by
  have hcollected := Declared.nodup_keys_collected builder.styles (extraKeys role) own
  rw [typed] at h
  split at h
  · cases h
  · dsimp only at h
    split at h
    · cases h
      exact ⟨hcollected, fun control hc => by simp [Behaviour.control?] at hc⟩
    · split at h
      · cases h
      · rename_i hb
        cases h
        by_cases hrole : role = .control
        · subst hrole
          obtain ⟨make, control, hmake, hcontrol, rfl, rfl⟩ := behaviour_control hb
          have hkept := hkeys _ make _ control hmake hcontrol
          refine ⟨hkept _ hcollected, fun other hc => ?_⟩
          rw [Behaviour.control?, Option.some.injEq] at hc
          exact hc ▸ hkept
        · refine ⟨?_, fun control hc => by simp [behaviour_of_ne hrole hb] at hc⟩
          rw [behaviour_attributes hrole hb]
          exact hcollected

lemma describe_distinct (hkeys : builder.catalog.KeepsKeys)
    (h : builder.describe t role owner id own = (faults, some e)) : e.Distinct := by
  obtain ⟨faults', e', ht, rfl⟩ := describe_eq h
  have hdistinct := typed_distinct hkeys ht
  rw [completed]
  dsimp only
  split <;> exact ⟨hdistinct.attributes, hdistinct.control⟩

end Builder

/-- What a session does keeps it that no entity has an attribute twice. -/
lemma Tree.kept_distinct : Tree.Kept fun t => ∀ i e, t.entity? i = some e → e.Distinct where
  merge t place changes h := by
    cases place with
    | app | session => exact h
    | entity index =>
        refine Tree.forall_modify h index fun e he => ⟨?_, he.control⟩
        have hmerged := Keyed.nodup_keys_extend he.attributes changes
        dsimp only
        split
        · rename_i control hc
          exact he.control control hc _ hmerged
        · exact hmerged
  settle t index f hf h := by
    refine Tree.forall_modify h index fun e he => ?_
    have hbehaviour : (f e).behaviour = e.behaviour := by
      have hframe : (f e).frame.behaviour = e.frame.behaviour := by rw [(hf e).1]
      exact hframe
    exact ⟨(hf e).2 ▸ he.attributes, hbehaviour ▸ he.control⟩

namespace Session

/-- **Snapshots come back without their null payloads**, in every state that a session of any
document reaches, and otherwise as they were, in the order of their attributes and lists.  So the
snapshot of an entity comes back exactly if nothing that it contains has loaded null. -/
theorem run_roundTrip (host : Host) (hkeys : host.catalog.KeepsKeys) (document : Document)
    (moves : List Move) :
    let t := ((ofDocument host document).run moves).tree
    ∀ i e, t.entity? i = some e → ∃ s, t.snapshot? i = some s
      ∧ Snapshot.ofJson? s.toJson = some s.denulled
      ∧ (Snapshot.ofJson? s.toJson = some s ↔ ∀ x, s.Contains x → x.payload ≠ some .null) := by
  intro t i e he
  have hlinked : t.Linked := ((ofDocument host document).sameStructure_run moves).linked
    (document.build_built host.catalog host.evaluator host.dispatch).linked
  have hdistinct : ∀ i e, t.entity? i = some e → e.Distinct :=
    Tree.kept_distinct.run (s := ofDocument host document) (Builder.forall_build
      (Builder.describe_distinct hkeys) (fun _ _ _ _ h => ⟨h.1, h.2⟩) document) moves
  obtain ⟨s, hs⟩ := hlinked.exists_snapshot? he
  have hread : Snapshot.ofJson? s.toJson = some s.denulled := by
    refine Snapshot.ofJson?_toJson fun x hx => ?_
    obtain ⟨j, x', hx', hattributes, -⟩ := Tree.exists_entity_of_contains hs hx
    rw [hattributes]
    exact (hdistinct j x' hx').attributes
  refine ⟨s, hs, hread, ?_⟩
  rw [hread, Option.some.injEq]
  exact s.denulled_eq_self_iff

/-- A provider that has loaded null comes back without a payload. -/
theorem run_roundTrip_feed :
    let host := Host.answering 0 (.ok .null)
    let moves : List Move := [.load "feed", .advance (.load 0), .advance (.load 0)]
    let t := ((ofDocument host feed).run moves).tree
    host.catalog.KeepsKeys
      ∧ (t.entity? 1).map (fun e => (e.role, e.payload)) = some (.dataProvider, some .null)
      ∧ ∃ s, t.snapshot? 1 = some s ∧ s.payload = some .null
        ∧ Snapshot.ofJson? s.toJson = some s.denulled ∧ Snapshot.ofJson? s.toJson ≠ some s := by
  intro host moves t
  have hkeys : host.catalog.KeepsKeys :=
    Catalog.keepsKeys_withBuiltins (withBuiltins_answering 0 (.ok .null))
  have hloaded : (t.entity? 1).map (fun e => (e.role, e.payload))
      = some (.dataProvider, some .null) := by decide +kernel
  obtain ⟨e, he, hfields⟩ := Option.map_eq_some_iff.mp hloaded
  obtain ⟨s, hs, hread, hiff⟩ := run_roundTrip host hkeys feed moves 1 e he
  obtain ⟨e', he', -, hpayload, -⟩ := Tree.snapshotWithin_eq_some hs
  obtain rfl : e = e' := Option.some.inj (he.symm.trans he')
  have hnull : s.payload = some .null := hpayload.trans (Prod.mk.inj hfields).2
  exact ⟨hkeys, hloaded, s, hs, hnull, hread, fun h => hiff.mp h s (.self s) hnull⟩

end Session

end Componentry
