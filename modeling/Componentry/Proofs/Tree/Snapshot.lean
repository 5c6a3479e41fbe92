import Mathlib.Tactic
import Componentry.Proofs.Build.WellFormed
import Componentry.Proofs.Json.Decode
import Componentry.Tree.Snapshot
/-!
# Snapshots as values

Writing a snapshot and reading it back gives the snapshot with its null payloads left out
(`Snapshot.ofJson?_toJson`): a payload that is null is written as null, and null is read as no
payload.  Everything else comes back as it was, in its order, provided that no attribute is there
twice.  So a snapshot survives exactly if it contains no null payload
(`Snapshot.denulled_eq_self_iff`).

The induction is `Snapshot.ind`, from the snapshots directly below.  What is written are the fields
of a record of which those that are absent or empty are left out (`Snapshot.record`).

`Tree.Linked.exists_snapshot?` says that every entity of a tree has a snapshot: below an entity come
data providers, which list actions only, and what was built later.
-/

namespace Componentry

namespace Snapshot

/-! ### What a snapshot contains -/

/-- The attributes of the entity. -/
def attributes : Snapshot → Attributes
  | mk _ _ _ _ attributes .. => attributes

/-- What the entity loaded last. -/
def payload : Snapshot → Option Json
  | mk _ _ _ _ _ _ _ _ payload .. => payload

/-- The snapshots directly below. -/
def children : Snapshot → List Snapshot
  | mk _ _ _ _ _ _ _ _ _ dataProviders bindings controls =>
    dataProviders ++ bindings.map Prod.snd ++ controls

lemma sizeOf_lt_of_mem_children {s x : Snapshot} (h : x ∈ s.children) : sizeOf x < sizeOf s := by
  cases s with
  | mk id role typeName className attributes suppressed state target payload providers bindings
      controls =>
      simp only [children, List.mem_append, List.mem_map] at h
      simp only [mk.sizeOf_spec]
      obtain (h | ⟨⟨event, action⟩, hb, rfl⟩) | h := h
      · have := List.sizeOf_lt_of_mem h
        omega
      · have := List.sizeOf_lt_of_mem hb
        simp only [Prod.mk.sizeOf_spec] at this ⊢
        omega
      · have := List.sizeOf_lt_of_mem h
        omega

/-- A property holds of every snapshot once it is inherited from those directly below. -/
@[elab_as_elim]
theorem ind {P : Snapshot → Prop} (h : ∀ s : Snapshot, (∀ x ∈ s.children, P x) → P s)
    (s : Snapshot) : P s :=
  h s fun x _ => ind h x
  termination_by s
  decreasing_by exact sizeOf_lt_of_mem_children ‹_›

/-- The snapshots that a snapshot contains, itself included. -/
inductive Contains : Snapshot → Snapshot → Prop
  | self (s : Snapshot) : Contains s s
  | nested {s child x : Snapshot} (mem : child ∈ s.children) (within : Contains child x) :
    Contains s x

/-! ### Null payloads -/

mutual

/-- The snapshot without its null payloads. -/
def denulled : Snapshot → Snapshot
  | mk id role typeName className attributes suppressed state target payload dataProviders
      bindings controls =>
    mk id role typeName className attributes suppressed state target (payload.filter (· ≠ .null))
      (denulledList dataProviders) (denulledBindings bindings) (denulledList controls)

/-- Several snapshots without their null payloads. -/
def denulledList : List Snapshot → List Snapshot
  | [] => []
  | s :: rest => denulled s :: denulledList rest

/-- Bindings without their null payloads. -/
def denulledBindings : List (String × Snapshot) → List (String × Snapshot)
  | [] => []
  | (event, action) :: rest => (event, denulled action) :: denulledBindings rest

end

lemma map_eq_self_iff {α : Type} {f : α → α} {l : List α} : l.map f = l ↔ ∀ x ∈ l, f x = x := by
  simpa using List.map_inj_left (l := l) (f := f) (g := fun x => x)

lemma denulledList_eq_map (l : List Snapshot) : denulledList l = l.map denulled := by
  induction l with
  | nil => rfl
  | cons s rest ih => rw [denulledList, ih, List.map_cons]

lemma denulledBindings_eq_map (l : List (String × Snapshot)) :
    denulledBindings l = l.map fun b => (b.1, b.2.denulled) := by
  induction l with
  | nil => rfl
  | cons b rest ih => rw [denulledBindings, ih, List.map_cons]

/-- **A snapshot is as it was without its null payloads** exactly if it contains none. -/
lemma denulled_eq_self_iff (s : Snapshot) :
    s.denulled = s ↔ ∀ x, s.Contains x → x.payload ≠ some .null := by
  induction s using ind with
  | h s ih =>
  have hcontains : (∀ x, s.Contains x → x.payload ≠ some .null)
      ↔ s.payload ≠ some .null ∧ ∀ x ∈ s.children, x.denulled = x := by
    constructor
    · intro h
      exact ⟨h s (.self s), fun x hx => (ih x hx).mpr fun y hy => h y (.nested hx hy)⟩
    · rintro ⟨hs, hchildren⟩ x hx
      cases hx with
      | self => exact hs
      | nested mem within => exact (ih _ mem).mp (hchildren _ mem) x within
  rw [hcontains]
  cases s with
  | mk id role typeName className attributes suppressed state target payload providers bindings
      controls =>
      have hpayload : payload.filter (· ≠ .null) = payload ↔ payload ≠ some .null := by
        cases payload <;> simp [Option.filter]
      simp only [denulled, denulledList_eq_map, denulledBindings_eq_map, mk.injEq, true_and,
        hpayload, map_eq_self_iff, Prod.ext_iff, Snapshot.payload, children, List.forall_mem_append,
        List.forall_mem_map, and_assoc]

/-! ### What is written -/

lemma listToJson_eq_map (l : List Snapshot) : listToJson l = l.map toJson := by
  induction l with
  | nil => rfl
  | cons s rest ih => rw [listToJson, ih, List.map_cons]

/-- The JSON form of a binding. -/
def bindingToJson (b : String × Snapshot) : Json :=
  .object [("event", .string b.1), ("action", toJson b.2)]

lemma bindingsToJson_eq_map (l : List (String × Snapshot)) :
    bindingsToJson l = l.map bindingToJson := by
  induction l with
  | nil => rfl
  | cons b rest ih =>
      rw [bindingsToJson, ih, List.map_cons]
      rfl

/-- The fields of a snapshot in order, with what is written for each. -/
def record : Snapshot → Keyed String (Option Json)
  | mk id role typeName className attributes suppressed state target payload dataProviders
      bindings controls =>
    [("id", some (.string id)), ("role", some (.string role.name)), ("type", typeName.map .string),
      ("class_name", some (.string className)), ("attributes", some (.object attributes)),
      ("suppressed", if suppressed then some (.bool true) else none),
      ("state", some (.string state.name)), ("target", target.map .string), ("payload", payload),
      ("data_providers", nonempty (dataProviders.map toJson)),
      ("bindings", nonempty (bindings.map bindingToJson)),
      ("controls", nonempty (controls.map toJson))]

/-- The members of an object that has the fields with something to write. -/
def members (fields : Keyed String (Option Json)) : Attributes :=
  fields.flatMap fun field => present field.1 field.2

lemma toJson_eq (s : Snapshot) : s.toJson = .object (members s.record) := by
  cases s
  simp [toJson, record, members, present, listToJson_eq_map, bindingsToJson_eq_map]

lemma record_keys (s : Snapshot) : s.record.keys = fieldNames := by
  cases s
  rfl

lemma keys_members_sublist (fields : Keyed String (Option Json)) :
    (members fields).keys.Sublist fields.keys := by
  induction fields with
  | nil => exact .slnil
  | cons field rest ih =>
      obtain ⟨key, v⟩ := field
      cases v with
      | none => exact ih.cons key
      | some v => exact ih.cons_cons key

/-- A field that is left out is not found, and any other one is. -/
lemma lookup_members {fields : Keyed String (Option Json)} (h : fields.keys.Nodup) (key : String) :
    (members fields).lookup key = (fields.lookup key).join := by
  induction fields with
  | nil => rfl
  | cons field rest ih =>
      obtain ⟨name, v⟩ := field
      obtain ⟨hname, hrest⟩ := List.nodup_cons.mp h
      have hmembers : members ((name, v) :: rest) = present name v ++ members rest := rfl
      rw [hmembers, Keyed.lookup]
      cases v with
      | none =>
          rw [present, List.nil_append, ih hrest]
          split_ifs with hkey
          · rw [← hkey, (Keyed.lookup_eq_none_iff rest name).mpr hname]
            rfl
          · rfl
      | some v =>
          rw [present, List.singleton_append, Keyed.lookup, ih hrest]
          split_ifs <;> rfl

/-! ### Reading it back -/

section

variable {α β : Type} {r : Keyed String Json} {key : String}

/-- A list that is left out where it is empty is read back. -/
lemma optional_nonempty {decode : Decoder β} {write : α → Json} {g : α → β} {items : List α}
    (hr : r.lookup key = nonempty (items.map write))
    (h : ∀ x ∈ items, decode (write x) = some (g x)) :
    Decoder.optional r key (Decoder.list decode) [] = some (items.map g) := by
  rw [Decoder.optional, hr]
  cases items with
  | nil => rfl
  | cons x rest =>
      have hmap : ((x :: rest).map write).mapM decode = some ((x :: rest).map g) := by
        rw [List.mapM_map]
        exact Decoder.mapM_eq_some h
      exact hmap

/-- A text that is left out where there is none is read back. -/
lemma optional_string {o : Option String} (hr : r.lookup key = o.map .string) :
    Decoder.optional r key (Decoder.nullable Decoder.string) none = some o := by
  rw [Decoder.optional, hr]
  cases o <;> rfl

/-- A value that is null is read as none. -/
lemma optional_any {o : Option Json} (hr : r.lookup key = o) :
    Decoder.optional r key (Decoder.nullable Decoder.any) none = some (o.filter (· ≠ .null)) := by
  rw [Decoder.optional, hr]
  cases o with
  | none => rfl
  | some v => cases v <;> simp [Decoder.nullable, Decoder.any, Option.filter]

end

/-! ### Depth -/

lemma depth_le_of_mem_items {v : Json} {items : List Json} (h : v ∈ items) :
    v.depth ≤ Json.depthOfItems items := by
  induction items with
  | nil => simp at h
  | cons first rest ih =>
      rw [Json.depthOfItems]
      obtain rfl | h := List.mem_cons.mp h
      · exact le_max_left _ _
      · exact (ih h).trans (le_max_right _ _)

lemma depth_le_of_mem_members {entry : String × Json} {l : List (String × Json)} (h : entry ∈ l) :
    entry.2.depth ≤ Json.depthOfMembers l := by
  induction l with
  | nil => simp at h
  | cons first rest ih =>
      rw [Json.depthOfMembers]
      obtain rfl | h := List.mem_cons.mp h
      · exact le_max_left _ _
      · exact (ih h).trans (le_max_right _ _)

/-- What is written below a snapshot is nested less deep. -/
lemma depth_lt_of_mem_children {s x : Snapshot} (h : x ∈ s.children) :
    x.toJson.depth < s.toJson.depth := by
  have hitem : ∀ key (items : List Json), (key, some (.array items)) ∈ s.record → ∀ v ∈ items,
      v.depth < s.toJson.depth := by
    intro key items hrecord v hv
    have hmember : (key, Json.array items) ∈ members s.record :=
      List.mem_flatMap.mpr ⟨_, hrecord, by simp [present]⟩
    have harray : (Json.array items).depth ≤ _ := depth_le_of_mem_members hmember
    have hinner := depth_le_of_mem_items hv
    rw [toJson_eq, Json.depth]
    rw [Json.depth] at harray
    omega
  have hwritten : ∀ items : List Json, items ≠ [] → nonempty items = some (.array items) := by
    intro items hne
    rw [nonempty, if_neg (by simpa using hne)]
  cases s with
  | mk id role typeName className attributes suppressed state target payload providers bindings
      controls =>
      simp only [children, List.mem_append, List.mem_map] at h
      obtain (h | ⟨b, hb, rfl⟩) | h := h
      · refine hitem "data_providers" (providers.map toJson) ?_ _ (List.mem_map_of_mem h)
        rw [record, hwritten _ (List.ne_nil_of_mem (List.mem_map_of_mem h))]
        simp
      · have hbinding := hitem "bindings" (bindings.map bindingToJson) (by
          rw [record, hwritten _ (List.ne_nil_of_mem (List.mem_map_of_mem hb))]
          simp) _ (List.mem_map_of_mem hb)
        refine lt_of_le_of_lt ?_ hbinding
        rw [bindingToJson, Json.depth]
        have hmem : ("action", b.2.toJson) ∈ [("event", Json.string b.1), ("action", b.2.toJson)] :=
          by simp
        have haction : b.2.toJson.depth ≤ _ := depth_le_of_mem_members hmem
        omega
      · refine hitem "controls" (controls.map toJson) ?_ _ (List.mem_map_of_mem h)
        rw [record, hwritten _ (List.ne_nil_of_mem (List.mem_map_of_mem h))]
        simp

/-- A binding is read back if its action is. -/
lemma decode_bindingToJson {decode : Decoder Snapshot} {b : String × Snapshot}
    (h : decode b.2.toJson = some b.2.denulled) : (do
      let r ← Decoder.fields ["event", "action"] (bindingToJson b)
      return (← Decoder.required r "event" Decoder.string,
        ← Decoder.required r "action" decode)) = some (b.1, b.2.denulled) := by
  have hfields : Decoder.fields ["event", "action"] (bindingToJson b)
      = some [("event", .string b.1), ("action", b.2.toJson)] := rfl
  have hevent : Decoder.required [("event", .string b.1), ("action", b.2.toJson)] "event"
      Decoder.string = some b.1 := rfl
  have haction : Decoder.required [("event", .string b.1), ("action", b.2.toJson)] "action" decode
      = some b.2.denulled := Decoder.required_eq_some rfl h
  simp only [hfields, hevent, haction, Option.bind_eq_bind, Option.bind_some, Option.pure_def]

/-- A record in which every field of a snapshot is found is read as the snapshot, if those directly
below are read back. -/
lemma decode_of_lookup {s : Snapshot} {depth : Nat} {v : Json} {r : Keyed String Json}
    (hfields : Decoder.fields fieldNames v = some r)
    (hlookup : ∀ key, r.lookup key = (s.record.lookup key).join) (hkeys : s.attributes.keys.Nodup)
    (hchild : ∀ x ∈ s.children, decode depth x.toJson = some x.denulled) :
    decode (depth + 1) v = some s.denulled := by
  have hattributes := Decoder.attributes_object s.attributes
  rw [Keyed.ofList_eq_self hkeys] at hattributes
  rw [decode, hfields]
  clear hfields
  cases s with
  | mk id role typeName className attributes suppressed state target payload providers bindings
      controls =>
      simp only [children, List.mem_append, List.mem_map] at hchild
      have hid : Decoder.required r "id" Decoder.string = some id :=
        Decoder.required_eq_some ((hlookup _).trans rfl) rfl
      have hrole : Decoder.required r "role" (Decoder.name Role.ofName?) = some role :=
        Decoder.required_eq_some ((hlookup _).trans rfl) (by cases role <;> rfl)
      have htype : Decoder.optional r "type" (Decoder.nullable Decoder.string) none
          = some typeName := optional_string ((hlookup _).trans rfl)
      have hclass : Decoder.required r "class_name" Decoder.string = some className :=
        Decoder.required_eq_some ((hlookup _).trans rfl) rfl
      have hattributes : Decoder.optional r "attributes" Decoder.attributes []
          = some attributes := by
        rw [Decoder.optional, (hlookup _).trans rfl]
        exact hattributes
      have hsuppressed : Decoder.optional r "suppressed" Decoder.bool false = some suppressed := by
        rw [Decoder.optional, (hlookup _).trans rfl]
        cases suppressed <;> rfl
      have hstate : Decoder.optional r "state" (Decoder.name LifecycleState.ofName?) .idle
          = some state := by
        rw [Decoder.optional, (hlookup _).trans rfl]
        cases state <;> rfl
      have htarget : Decoder.optional r "target" (Decoder.nullable Decoder.string) none
          = some target := optional_string ((hlookup _).trans rfl)
      have hpayload : Decoder.optional r "payload" (Decoder.nullable Decoder.any) none
          = some (payload.filter (· ≠ .null)) := optional_any ((hlookup _).trans rfl)
      have hproviders : Decoder.optional r "data_providers" (Decoder.list (decode depth)) []
          = some (providers.map denulled) :=
        optional_nonempty ((hlookup _).trans rfl) fun x hx => hchild x (.inl (.inl hx))
      have hcontrols : Decoder.optional r "controls" (Decoder.list (decode depth)) []
          = some (controls.map denulled) :=
        optional_nonempty ((hlookup _).trans rfl) fun x hx => hchild x (.inr hx)
      have hbindings : Decoder.optional r "bindings" (Decoder.list fun v => do
            let r ← Decoder.fields ["event", "action"] v
            return (← Decoder.required r "event" Decoder.string,
              ← Decoder.required r "action" (decode depth))) []
          = some (bindings.map fun b => (b.1, b.2.denulled)) :=
        optional_nonempty ((hlookup _).trans rfl) fun b hb =>
          decode_bindingToJson (hchild b.2 (.inl (.inr ⟨b, hb, rfl⟩)))
      simp only [Option.bind_eq_bind, Option.pure_def] at hbindings
      simp only [hid, hrole, htype, hclass, hattributes, hsuppressed, hstate, htarget, hpayload,
        hproviders, hbindings, hcontrols, Option.bind_eq_bind, Option.bind_some, Option.pure_def,
        denulled, denulledList_eq_map, denulledBindings_eq_map]

/-- **Reading back what was written** leaves the null payloads out, and nothing else, if no
attribute is there twice and the decoder goes deep enough. -/
theorem decode_toJson {s : Snapshot} {depth : Nat} (hdepth : s.toJson.depth ≤ depth)
    (hkeys : ∀ x, s.Contains x → x.attributes.keys.Nodup) :
    decode depth s.toJson = some s.denulled := by
  induction s using ind generalizing depth with
  | h s ih =>
  obtain ⟨depth, rfl⟩ : ∃ d, depth = d + 1 := by
    refine ⟨depth - 1, ?_⟩
    rw [toJson_eq, Json.depth] at hdepth
    omega
  have hchild : ∀ x ∈ s.children, decode depth x.toJson = some x.denulled := by
    intro x hx
    have hlt := depth_lt_of_mem_children hx
    exact ih x hx (by omega) fun y hy => hkeys y (.nested hx hy)
  have hnodup : s.record.keys.Nodup := by
    rw [record_keys]
    decide
  have hfields := Decoder.fields_object fieldNames (hnodup.sublist (keys_members_sublist s.record))
  rw [toJson_eq]
  exact decode_of_lookup hfields (lookup_members hnodup) (hkeys s (.self s)) hchild

theorem ofJson?_toJson {s : Snapshot} (h : ∀ x, s.Contains x → x.attributes.keys.Nodup) :
    ofJson? s.toJson = some s.denulled := decode_toJson le_rfl h

end Snapshot

namespace Tree

variable {t : Tree}

/-! ### Snapshots of trees -/

lemma exists_mapM {α β : Type} {f : α → Option β} {l : List α} (h : ∀ x ∈ l, ∃ y, f x = some y) :
    ∃ ys, l.mapM f = some ys := by
  induction l with
  | nil => exact ⟨[], rfl⟩
  | cons x rest ih =>
      obtain ⟨y, hy⟩ := h x List.mem_cons_self
      obtain ⟨ys, hys⟩ := ih fun z hz => h z (List.mem_cons_of_mem x hz)
      exact ⟨y :: ys, by rw [List.mapM_cons, hy, hys]; rfl⟩

lemma mem_of_mapM {α β : Type} {f : α → Option β} {l : List α} {ys : List β}
    (h : l.mapM f = some ys) {y : β} (hy : y ∈ ys) : ∃ x ∈ l, f x = some y := by
  induction l generalizing ys with
  | nil =>
      cases h
      simp at hy
  | cons x rest ih =>
      rw [List.mapM_cons] at h
      obtain ⟨first, hfirst, h⟩ := Option.bind_eq_some_iff.mp h
      obtain ⟨others, hothers, h⟩ := Option.bind_eq_some_iff.mp h
      cases h
      obtain rfl | hy := List.mem_cons.mp hy
      · exact ⟨x, List.mem_cons_self, hfirst⟩
      · obtain ⟨z, hz, hfz⟩ := ih hothers hy
        exact ⟨z, List.mem_cons_of_mem x hz, hfz⟩

/-- What the snapshot of an entity consists of. -/
lemma snapshotWithin_eq_some {depth index : Nat} {s : Snapshot}
    (h : t.snapshotWithin (depth + 1) index = some s) : ∃ e, t.entity? index = some e
      ∧ s.attributes = e.attributes ∧ s.payload = e.payload
      ∧ ∀ x ∈ s.children, ∃ child, t.snapshotWithin depth child = some x := by
  rw [snapshotWithin] at h
  simp only [Option.bind_eq_bind, Option.bind_eq_some_iff, Option.pure_def, Option.some.injEq] at h
  obtain ⟨e, he, providers, hproviders, bindings, hbindings, controls, hcontrols, rfl⟩ := h
  refine ⟨e, he, rfl, rfl, fun x hx => ?_⟩
  simp only [Snapshot.children, List.mem_append, List.mem_map] at hx
  obtain (hx | ⟨b, hb, rfl⟩) | hx := hx
  · obtain ⟨child, -, hchild⟩ := mem_of_mapM hproviders hx
    exact ⟨child, hchild⟩
  · obtain ⟨binding, -, hbinding⟩ := mem_of_mapM hbindings hb
    obtain ⟨x, hx, heq⟩ := Option.bind_eq_some_iff.mp hbinding
    obtain rfl := Option.some.inj heq
    exact ⟨binding.action, hx⟩
  · obtain ⟨child, -, hchild⟩ := mem_of_mapM hcontrols hx
    exact ⟨child, hchild⟩

/-- Every snapshot that a snapshot contains shows an entity of the tree. -/
lemma exists_entity_of_contains {depth index : Nat} {s x : Snapshot}
    (h : t.snapshotWithin depth index = some s) (hx : s.Contains x) :
    ∃ i e, t.entity? i = some e ∧ x.attributes = e.attributes ∧ x.payload = e.payload := by
  induction depth generalizing index s with
  | zero => cases h
  | succ depth ih =>
      obtain ⟨e, he, hattributes, hpayload, hchildren⟩ := snapshotWithin_eq_some h
      cases hx with
      | self => exact ⟨index, e, he, hattributes, hpayload⟩
      | nested mem within =>
          obtain ⟨child, hchild⟩ := hchildren _ mem
          exact ih hchild within

/-- Whether a tree is linked depends on its structure only. -/
lemma SameStructure.linked {u : Tree} (h : t.SameStructure u) (ht : t.Linked) : u.Linked := by
  have hbefore : ∀ {i e}, u.entity? i = some e → ∃ e', t.entity? i = some e' ∧ e'.role = e.role
      ∧ e'.parent = e.parent ∧ ∀ role, e'.listed role = e.listed role := by
    intro i e he
    obtain ⟨e', he', hframe⟩ := h.symm.exists_entity he
    have hrole : e'.frame.role = e.frame.role := by rw [hframe]
    have hparent : e'.frame.parent = e.frame.parent := by rw [hframe]
    refine ⟨e', he', hrole, hparent, fun role => ?_⟩
    have hlisted : e'.frame.listed role = e.frame.listed role := by rw [hframe]
    cases role <;> exact hlisted
  have hafter : ∀ {i e'}, t.entity? i = some e' → ∃ e, u.entity? i = some e ∧ e.role = e'.role
      ∧ e.parent = e'.parent := by
    intro i e' he'
    obtain ⟨e, he, hframe⟩ := h.exists_entity he'
    have hrole : e.frame.role = e'.frame.role := by rw [hframe]
    have hparent : e.frame.parent = e'.frame.parent := by rw [hframe]
    exact ⟨e, he, hrole, hparent⟩
  refine ⟨fun i e he => ?_, fun i e he => ?_, fun j o ho role i hi => ?_, fun i e he => ?_,
    fun i e he role hrole hne => ?_⟩
  · obtain ⟨e', he', -, hparent, -⟩ := hbefore he
    exact hparent ▸ ht.parent_lt i e' he'
  · obtain ⟨e', he', -, hparent, -⟩ := hbefore he
    exact hparent ▸ ht.orphan_iff i e' he'
  · obtain ⟨o', ho', -, -, hlisted⟩ := hbefore ho
    obtain ⟨e', he', hrole, hparent⟩ := ht.listed j o' ho' role i (hlisted role ▸ hi)
    obtain ⟨e, he, hrole', hparent'⟩ := hafter he'
    exact ⟨e, he, hrole'.trans hrole, fun hne => hparent'.trans (hparent hne)⟩
  · obtain ⟨e', he', -, -, hlisted⟩ := hbefore he
    have hsorted := ht.sorted i e' he'
    rwa [show e'.controls = e.controls from hlisted .control] at hsorted
  · obtain ⟨e', he', hrole', -, hlisted⟩ := hbefore he
    exact hrole' ▸ ht.owner i e' he' role hrole (hlisted role ▸ hne)

/-- How deep the snapshot of an entity of a role goes at most: a control lists controls that come
later and data providers anywhere, and these list actions that come later, as actions do. -/
def depthBound (t : Tree) (role : Role) (index : Nat) : Nat :=
  if role = .control then 2 * t.size - index else t.size - index

lemma depthBound_pos (role : Role) {index : Nat} (h : index < t.size) :
    0 < t.depthBound role index := by
  rw [depthBound]
  split_ifs <;> omega

/-- The snapshot of what an entity lists is less deep: what is listed as no data provider comes
later, and what lists a data provider is a control. -/
lemma Linked.depthBound_lt (h : t.Linked) {index i : Nat} {e : Entity} {role : Role}
    (he : t.entity? index = some e) (hi : i ∈ e.listed role) :
    ∃ x, t.entity? i = some x ∧ t.depthBound x.role i < t.depthBound e.role index := by
  obtain ⟨x, hx, hrole, hparent⟩ := h.listed index e he role i hi
  have hlt : index < t.size := lt_size_iff.mpr ⟨e, he⟩
  have hlt' : i < t.size := lt_size_iff.mpr ⟨x, hx⟩
  have hlater : role ≠ .dataProvider → index < i := fun hne =>
    h.parent_lt i x hx index (hparent hne)
  have howner : role ≠ .action → e.role = .control := fun hne =>
    h.owner index e he role hne (List.ne_nil_of_mem hi)
  refine ⟨x, hx, ?_⟩
  rw [hrole, depthBound, depthBound]
  cases role with
  | control =>
      have hafter := hlater (by simp)
      rw [if_pos (howner (by simp)), if_pos rfl]
      omega
  | dataProvider =>
      rw [if_pos (howner (by simp)), if_neg (by simp)]
      omega
  | action =>
      have hafter := hlater (by simp)
      rw [if_neg (by simp)]
      split_ifs <;> omega

/-- Every entity has a snapshot. -/
lemma Linked.exists_snapshotWithin (h : t.Linked) {depth index : Nat} {e : Entity}
    (he : t.entity? index = some e) (hdepth : t.depthBound e.role index ≤ depth) :
    ∃ s, t.snapshotWithin depth index = some s := by
  induction depth generalizing index e with
  | zero => exact absurd (depthBound_pos e.role (lt_size_iff.mpr ⟨e, he⟩)) (by omega)
  | succ depth ih =>
      have hlisted : ∀ role, ∀ i ∈ e.listed role, ∃ s, t.snapshotWithin depth i = some s := by
        intro role i hi
        obtain ⟨x, hx, hlt⟩ := h.depthBound_lt he hi
        exact ih hx (by omega)
      obtain ⟨providers, hproviders⟩ : ∃ providers,
          e.dataProviders.mapM (t.snapshotWithin depth) = some providers :=
        exists_mapM (hlisted .dataProvider)
      obtain ⟨controls, hcontrols⟩ : ∃ controls,
          e.controls.mapM (t.snapshotWithin depth) = some controls := exists_mapM (hlisted .control)
      obtain ⟨bindings, hbindings⟩ : ∃ bindings, e.bindings.mapM (fun b => do
          return (b.event.text, ← t.snapshotWithin depth b.action)) = some bindings := by
        refine exists_mapM fun b hb => ?_
        obtain ⟨s, hs⟩ := hlisted .action b.action (List.mem_map_of_mem hb)
        exact ⟨(b.event.text, s), by rw [hs]; rfl⟩
      rw [snapshotWithin, he]
      simp only [Option.bind_eq_bind, Option.bind_some, Option.pure_def] at hbindings ⊢
      rw [hproviders, hbindings, hcontrols]
      exact ⟨_, rfl⟩

theorem Linked.exists_snapshot? (h : t.Linked) {index : Nat} {e : Entity}
    (he : t.entity? index = some e) : ∃ s, t.snapshot? index = some s := by
  refine h.exists_snapshotWithin he ?_
  rw [depthBound, snapshotDepth]
  split_ifs <;> omega

end Tree

end Componentry
