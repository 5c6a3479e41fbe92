import Mathlib.Tactic
import Componentry.Proofs.Component.Control
import Componentry.Proofs.Registry.ClassName
import Componentry.Proofs.Registry.History
/-!
# A catalog in order

A catalog files each factory under the category that its constructor says (`Catalog.Filed`).  This is
so for the empty one and after every registration, so it is an invariant, under either policy and
whatever is replaced.  What it is good for is that the typed ways to resolve a type are as good as the
registry behind them: they hand out what the registry has, and they fail just if it has no entry or
the text is no type name (`Catalog.Typed`).

The built-in types are distinct in upper camel case within their categories, so no format can bring
two of them together, and even the strict policy takes them all (`registerAll_eq_ok`).
`Catalog.withBuiltins_consistent` puts this together.
-/

namespace Componentry

namespace Catalog

/-! ### Registrations -/

/-- The catalog after several registrations; those that are refused change nothing. -/
def registerEach (catalog : Catalog) (entries : List (String × Factory)) : Catalog :=
  entries.foldl (fun catalog entry =>
    match catalog.register entry.1 entry.2 with
    | .ok after => after
    | .error _ => catalog) catalog

/-- Whether every factory is stored under its own category, and no category is without a format. -/
structure Filed (catalog : Catalog) : Prop where
  formatted : catalog.registry.Formatted
  category_eq : ∀ key registration, catalog.registry.entries.lookup key = some registration →
    registration.stored.category = key.1

variable {catalog after : Catalog}

lemma filed_empty {config : RegistryConfig} (h : Catalog.empty config = .ok catalog) :
    catalog.Filed where
  formatted := by
    rw [Catalog.empty] at h
    cases hr : Registry.ofConfig (α := Factory) config with
    | error e => simp [hr, Except.map] at h
    | ok r =>
        rw [hr] at h
        cases h
        exact Registry.formatted_ofConfig hr
  category_eq key registration hlookup := by
    rw [entries_empty h] at hlookup
    cases hlookup

/-- A registration files its factory under its own category. -/
lemma Filed.register (h : catalog.Filed) {typeName : String} {factory : Factory}
    (hr : catalog.register typeName factory = .ok after) : after.Filed := by
  obtain ⟨name, -, hformats, hentries⟩ := register_eq_ok hr
  refine ⟨fun category => hformats ▸ h.formatted category, fun key registration hlookup => ?_⟩
  rw [hentries, Keyed.lookup_insert] at hlookup
  split_ifs at hlookup with hkey
  · obtain rfl := Option.some.inj hlookup
    rw [← hkey]
  · exact h.category_eq key registration hlookup

lemma Filed.registerAll (h : catalog.Filed) {entries : List (String × Factory)}
    (hr : catalog.registerAll entries = .ok after) : after.Filed := by
  induction entries generalizing catalog with
  | nil =>
      cases hr
      exact h
  | cons entry rest ih =>
      rw [Catalog.registerAll] at hr
      cases hnext : catalog.register entry.1 entry.2 with
      | error e => simp [hnext] at hr
      | ok next =>
          rw [hnext] at hr
          exact ih (h.register hnext) hr

lemma Filed.registerEach (h : catalog.Filed) (entries : List (String × Factory)) :
    (catalog.registerEach entries).Filed := by
  induction entries generalizing catalog with
  | nil => exact h
  | cons entry rest ih =>
      rw [Catalog.registerEach, List.foldl_cons]
      cases hr : catalog.register entry.1 entry.2 with
      | error e => exact ih h
      | ok after => exact ih (h.register hr)

/-! ### Resolving -/

/-- A way to resolve the types of a category is as good as the registry: it hands out what the
registry has, which is of the right kind, and it fails just if the text is no type name or the
registry has no entry for it. -/
structure Typed {α : Type} (catalog : Catalog) (category : Category) (wrap : α → Factory)
    (resolve : String → Except RegistryError α) : Prop where
  registry_resolve : ∀ typeName,
    catalog.registry.resolve category typeName = (resolve typeName).map wrap
  fails_iff : ∀ typeName, (∃ e, resolve typeName = .error e)
    ↔ ¬ IsTypeName typeName ∨ ∃ name, catalog.className category typeName = .ok name
      ∧ catalog.registry.entries.lookup (category, name) = none

/-- The registry fails just if the text is no type name or there is no entry. -/
lemma Filed.resolve_eq_error_iff (h : catalog.Filed) {category : Category} {typeName : String} :
    (∃ e, catalog.registry.resolve category typeName = .error e)
      ↔ ¬ IsTypeName typeName ∨ ∃ name, catalog.className category typeName = .ok name
        ∧ catalog.registry.entries.lookup (category, name) = none := by
  have hinvalid : (∃ e, catalog.registry.className category typeName = .error e)
      ↔ ¬ IsTypeName typeName := h.formatted.className_eq_error_iff
  rw [← hinvalid, Registry.resolve, className]
  cases hname : catalog.registry.className category typeName with
  | error e => simp
  | ok name => cases hlookup : catalog.registry.entries.lookup (category, name) <;> simp [hlookup]

/-- What the registry has for a type is of the category that it is stored under. -/
lemma Filed.category_of_resolve (h : catalog.Filed) {category : Category} {typeName : String}
    {factory : Factory} (hr : catalog.registry.resolve category typeName = .ok factory) :
    factory.category = category := by
  rw [Registry.resolve] at hr
  split at hr
  · cases hr
  · rename_i name _
    split at hr
    · rename_i registration hlookup
      cases hr
      exact h.category_eq _ _ hlookup
    · cases hr

/-- **Where every factory is filed under its category, no typed answer is a mismatch.** -/
lemma Filed.typed {α : Type} (h : catalog.Filed) {category : Category} {wrap : α → Factory}
    {pick : Factory → Option α} (hpick : ∀ factory, factory.category = category →
      ∃ a, pick factory = some a ∧ wrap a = factory) :
    catalog.Typed category wrap (catalog.resolveAs category pick) := by
  have hanswer : ∀ typeName, catalog.registry.resolve category typeName
      = (catalog.resolveAs category pick typeName).map wrap := by
    intro typeName
    rw [resolveAs]
    cases hr : catalog.registry.resolve category typeName with
    | error e => rfl
    | ok factory =>
        obtain ⟨a, ha, rfl⟩ := hpick factory (h.category_of_resolve hr)
        simp only [ha]
        rfl
  refine ⟨hanswer, fun typeName => ?_⟩
  rw [← h.resolve_eq_error_iff, hanswer]
  cases catalog.resolveAs category pick typeName <;> simp [Except.map]

/-! ### The built-in components -/

/-- The key of a type name of a factory. -/
def key? (catalog : Catalog) (entry : String × Factory) : Option (Category × String) :=
  catalog.registry.key? entry.2.category entry.1

/-- What tells types apart under any formats: the category and the name in upper camel case. -/
def label (entry : String × Factory) : Category × String := (entry.2.category, camelCase entry.1)

lemma key?_congr (h : after.registry.formats = catalog.registry.formats)
    (entry : String × Factory) : after.key? entry = catalog.key? entry := by
  rw [key?, key?, Registry.key?, Registry.key?, Registry.className, Registry.className, h]

lemma key?_eq_some_iff {entry : String × Factory} {key : Category × String} :
    catalog.key? entry = some key ↔ key.1 = entry.2.category
      ∧ catalog.registry.className entry.2.category entry.1 = .ok key.2 := by
  obtain ⟨category, name⟩ := key
  rw [key?, Registry.key?]
  cases catalog.registry.className entry.2.category entry.1 with
  | error e => simp [Except.toOption]
  | ok found => simp [Except.toOption, eq_comm]

/-- What is stored under the key of a type is what the type is resolved to. -/
lemma resolve_of_key? {entry : String × Factory} {key : Category × String}
    {registration : Registration Factory} (hkey : catalog.key? entry = some key)
    (hlookup : catalog.registry.entries.lookup key = some registration) :
    catalog.registry.resolve entry.2.category entry.1 = .ok registration.stored := by
  obtain ⟨hcategory, hname⟩ := key?_eq_some_iff.mp hkey
  rw [Registry.resolve, hname]
  dsimp only
  rw [← hcategory, hlookup]

/-- Two types have one key only if they have one label. -/
lemma label_eq_of_key? (h : catalog.registry.Formatted) {entry other : String × Factory}
    (hentry : IsTypeName entry.1) (hother : IsTypeName other.1) {key : Category × String}
    (hkey : catalog.key? entry = some key) (hsame : catalog.key? other = some key) :
    label entry = label other := by
  obtain ⟨hcategory, hname⟩ := key?_eq_some_iff.mp hkey
  obtain ⟨hcategory', hname'⟩ := key?_eq_some_iff.mp hsame
  rw [← hcategory] at hname
  rw [← hcategory', ← hname, h.className_eq_iff hother hentry] at hname'
  rw [label, label, ← hcategory, ← hcategory', hname']

/-- A type name is registered where nothing is in its place. -/
lemma exists_register (h : catalog.registry.Formatted) {entry : String × Factory}
    (hentry : IsTypeName entry.1)
    (hfree : ∀ key, catalog.key? entry = some key → catalog.registry.entries.lookup key = none) :
    ∃ after key, catalog.register entry.1 entry.2 = .ok after ∧ catalog.key? entry = some key
      ∧ after.registry.formats = catalog.registry.formats
      ∧ after.registry.entries
        = catalog.registry.entries.insert key ⟨Text.trim entry.1, entry.2⟩ := by
  obtain ⟨name, hname⟩ := h.exists_className entry.2.category hentry
  have hkey : catalog.key? entry = some (entry.2.category, name) :=
    key?_eq_some_iff.mpr ⟨rfl, hname⟩
  refine ⟨⟨{ catalog.registry with
      entries := catalog.registry.entries.insert (entry.2.category, name)
        ⟨Text.trim entry.1, entry.2⟩ }⟩, (entry.2.category, name), ?_, hkey, rfl, rfl⟩
  rw [register, Registry.register, hname]
  dsimp only
  rw [Keyed.contains, hfree _ hkey]
  rfl

/-- Types with labels of their own are all registered, whatever the policy, and each is found. -/
lemma registerAll_eq_ok (h : catalog.registry.Formatted) {entries : List (String × Factory)}
    (hvalid : ∀ entry ∈ entries, IsTypeName entry.1) (hdistinct : (entries.map label).Nodup)
    (hfree : ∀ entry ∈ entries, ∀ key, catalog.key? entry = some key →
      catalog.registry.entries.lookup key = none) :
    ∃ after, catalog.registerAll entries = .ok after
      ∧ after.registry.formats = catalog.registry.formats
      ∧ (∀ key, (∀ entry ∈ entries, catalog.key? entry ≠ some key) →
        after.registry.entries.lookup key = catalog.registry.entries.lookup key)
      ∧ ∀ entry ∈ entries, after.registry.resolve entry.2.category entry.1 = .ok entry.2 := by
  induction entries generalizing catalog with
  | nil => exact ⟨catalog, rfl, rfl, fun _ _ => rfl, by simp⟩
  | cons entry rest ih =>
      rw [List.map_cons, List.nodup_cons] at hdistinct
      have hentry := hvalid entry List.mem_cons_self
      obtain ⟨next, key, hnext, hkey, hformats, hentries⟩ :=
        exists_register h hentry (hfree entry List.mem_cons_self)
      have hapart : ∀ other ∈ rest, next.key? other ≠ some key := by
        intro other hother hsame
        rw [key?_congr hformats] at hsame
        have hlabel := label_eq_of_key? h hentry
          (hvalid other (List.mem_cons_of_mem entry hother)) hkey hsame
        exact hdistinct.1 (hlabel ▸ List.mem_map_of_mem hother)
      obtain ⟨after, hafter, hformats', hkept, hfound⟩ := ih (fun category => hformats ▸ h category)
        (fun other hother => hvalid other (List.mem_cons_of_mem entry hother)) hdistinct.2 (by
          intro other hother key' hkey'
          have hne : key ≠ key' := fun hsame => hapart other hother (hsame ▸ hkey')
          rw [hentries, Keyed.lookup_insert_of_ne _ _ hne]
          rw [key?_congr hformats] at hkey'
          exact hfree other (List.mem_cons_of_mem entry hother) key' hkey')
      refine ⟨after, ?_, hformats'.trans hformats, fun key' hnone => ?_, fun other hother => ?_⟩
      · rw [registerAll, hnext]
        exact hafter
      · have hne : key ≠ key' := fun hsame => hnone entry List.mem_cons_self (hsame ▸ hkey)
        rw [hkept key' fun other hother => by
            rw [key?_congr hformats]
            exact hnone other (List.mem_cons_of_mem entry hother),
          hentries, Keyed.lookup_insert_of_ne _ _ hne]
      · obtain rfl | hother := List.mem_cons.mp hother
        · have hkey' := (key?_congr (hformats'.trans hformats) other).trans hkey
          have hlookup : after.registry.entries.lookup key
              = some ⟨Text.trim other.1, other.2⟩ := by
            rw [hkept key hapart, hentries, Keyed.lookup_insert_self]
          exact resolve_of_key? hkey' hlookup
        · exact hfound other hother

lemma isTypeName_builtins : ∀ entry ∈ builtins, IsTypeName entry.1 := by decide +kernel

lemma nodup_label_builtins : (builtins.map label).Nodup := by decide +kernel

/-- What a catalog must be like for its users. -/
structure Consistent (catalog : Catalog) : Prop where
  /-- Every factory is stored under its own category, -/
  category_eq : ∀ key registration, catalog.registry.entries.lookup key = some registration →
    registration.stored.category = key.1
  /-- and so every type is resolved as the registry has it. -/
  control : catalog.Typed .control .control catalog.resolveControl
  dataProvider : catalog.Typed .dataProvider .dataProvider catalog.resolveDataProvider
  action : catalog.Typed .action .action catalog.resolveAction
  shortcode : catalog.Typed .shortcode .shortcode catalog.resolveShortcode

lemma Filed.consistent (h : catalog.Filed) : catalog.Consistent where
  category_eq := h.category_eq
  control := h.typed fun factory hfactory => by
    cases factory <;> cases hfactory
    exact ⟨_, rfl, rfl⟩
  dataProvider := h.typed fun factory hfactory => by
    cases factory <;> cases hfactory
    exact ⟨_, rfl, rfl⟩
  action := h.typed fun factory hfactory => by
    cases factory <;> cases hfactory
    exact ⟨_, rfl, rfl⟩
  shortcode := h.typed fun factory hfactory => by
    cases factory <;> cases hfactory
    exact ⟨_, rfl, rfl⟩

/-- **A catalog is in order.**  Where the formats of a configuration can be read, the built-in
components are all registered, under either policy, and each of their types is resolved.  After any
further registrations every factory is stored under its own category, no typed answer is a mismatch,
and a type is not resolved just if it is no type name or nothing is registered for it. -/
theorem withBuiltins_consistent (config : RegistryConfig)
    (h : ∀ entry ∈ config.classNameFormats, (ClassNameFormat.ofText? entry.2).isSome) :
    ∃ start, withBuiltins config = .ok start
      ∧ (∀ entry ∈ builtins, start.registry.resolve entry.2.category entry.1 = .ok entry.2)
      ∧ ∀ more : List (String × Factory), (start.registerEach more).Consistent := by
  obtain ⟨r, hr, -, hentries⟩ :=
    (Registry.empty (α := Factory) config.policy).withFormats_eq_ok h
  have hempty : Catalog.empty config = .ok ⟨r⟩ := by
    rw [Catalog.empty, Registry.ofConfig, hr]
    rfl
  have hfiled := filed_empty hempty
  obtain ⟨start, hstart, -, -, hfound⟩ := registerAll_eq_ok hfiled.formatted isTypeName_builtins
    nodup_label_builtins fun entry _ key _ => by rw [entries_empty hempty]; rfl
  refine ⟨start, by rw [withBuiltins, hempty]; exact hstart, hfound, fun more => ?_⟩
  exact ((hfiled.registerAll hstart).registerEach more).consistent

/-- A configuration in which every class name is the type name in upper camel case, so only the
categories keep the names apart. -/
def bareNames : RegistryConfig where
  policy := .strict
  classNameFormats := [(.control, "\x7b\x7d"), (.dataProvider, "\x7b\x7d"), (.action, "\x7b\x7d"),
    (.shortcode, "\x7b\x7d")]

/-- A shortcode named like an action, and an action that is refused since the type is taken. -/
theorem withBuiltins_consistent_bareNames :
    (∀ entry ∈ bareNames.classNameFormats, (ClassNameFormat.ofText? entry.2).isSome)
      ∧ ∃ start, withBuiltins bareNames = .ok start
        ∧ start.resolveAction "set" = .ok (fun _ => .ok Action.set)
        ∧ (start.registerEach [("Set", .shortcode (Shortcode.below "app")),
          ("set", .action fun _ => .error "refused")]).Consistent := by
  have hformats : ∀ entry ∈ bareNames.classNameFormats,
      (ClassNameFormat.ofText? entry.2).isSome := by decide +kernel
  obtain ⟨start, hstart, hfound, hconsistent⟩ := withBuiltins_consistent bareNames hformats
  have hset : start.registry.resolve .action "set" = .ok (.action fun _ => .ok Action.set) :=
    hfound ("set", .action fun _ => .ok Action.set) (by simp [builtins, Action.builtins])
  refine ⟨hformats, start, hstart, ?_, hconsistent _⟩
  rw [resolveAction, resolveAs, hset]

end Catalog

end Componentry
