import Mathlib.Tactic
import Componentry.Catalog
import Componentry.Proofs.Keyed
import Componentry.Proofs.Registry.ClassName
import Componentry.Proofs.Text
/-!
# Controls in normal form

`Control.Normal` says what the normal form of each built-in control is.  Configuring a control
brings its attributes into it (`Control.normal_configure`), and changes nothing in attributes that
are in it already, not even the order of the keys: the normal form is the set of the fixed points of
`configure` (`Control.configure_eq_self_iff`).

`Catalog.resolveControl_withBuiltins` is what makes this a statement about every control of a
catalog with the built-in components: the type of a control, in whatever spelling, is one of the
built-in types.
-/

namespace Componentry

namespace Control

/-- Attributes that name an animation: the text under `source` ends in `.gif`, in letters of either
case. -/
def Animates (attributes : Attributes) : Prop :=
  ∃ source, attributes.lookup "source" = some (.string source)
    ∧ ".gif".toList <:+ (Text.lower source).toList

/-- The normal form of the attributes of a built-in control with a type name. -/
structure Normal (name : String) (attributes : Attributes) : Prop where
  view : name = "view" → attributes.lookup "orientation" = some (.string "vertical")
    ∨ attributes.lookup "orientation" = some (.string "horizontal")
  text : name = "text" → (attributes.lookup "text").isSome
  image : name = "image" → ∃ animated, attributes.lookup "animated" = some (.bool animated)
    ∧ (animated = true ↔ Animates attributes)
  text_input : name = "text_input" → (attributes.lookup "value").isSome

variable {attributes : Attributes}

/-! ### One control after the other -/

/-- The orientation that a view settles on. -/
def orientation (attributes : Attributes) : String :=
  if ((attributes.lookup "orientation").bind Json.string?).map Text.lower = some "horizontal" then
    "horizontal" else "vertical"

lemma view_configure (attributes : Attributes) :
    view.configure attributes
      = attributes.insert "orientation" (.string (orientation attributes)) := rfl

lemma orientation_cases (attributes : Attributes) :
    orientation attributes = "vertical" ∨ orientation attributes = "horizontal" := by
  rw [orientation]
  split_ifs
  · exact .inr rfl
  · exact .inl rfl

/-- A view settles on the orientation that it has, if it has one of the two. -/
lemma orientation_eq {written : String} (h : attributes.lookup "orientation" = some (.string written))
    (hw : written = "vertical" ∨ written = "horizontal") : orientation attributes = written := by
  rw [orientation, h]
  rcases hw with rfl | rfl <;> decide

/-- Whether an image is animated. -/
def animated (attributes : Attributes) : Bool :=
  match (attributes.lookup "source").bind Json.string? with
  | some source => (Text.stripSuffix ".gif".toList (Text.lower source).toList).isSome
  | none => false

lemma image_configure (attributes : Attributes) :
    image.configure attributes = attributes.insert "animated" (.bool (animated attributes)) := rfl

lemma animated_iff (attributes : Attributes) : animated attributes = true ↔ Animates attributes := by
  rw [animated, Animates]
  cases h : attributes.lookup "source" with
  | none => simp
  | some value =>
      cases value with
      | string source => simp [Json.string?, Text.stripSuffix_isSome_iff]
      | _ => simp [Json.string?]

/-- What an image is called does not depend on whether it is known to be animated. -/
lemma animates_insert (attributes : Attributes) (value : Json) :
    Animates (attributes.insert "animated" value) ↔ Animates attributes := by
  rw [Animates, Keyed.lookup_insert_of_ne _ _ (by decide), Animates]

/-! ### All of them -/

/-- **Configuring brings attributes into normal form**, whatever they are. -/
lemma normal_configure {name : String} {control : Control} (hc : (name, control) ∈ builtins)
    (attributes : Attributes) : Normal name (control.configure attributes) := by
  simp only [builtins, List.mem_cons, Prod.mk.injEq, List.not_mem_nil, or_false] at hc
  rcases hc with ⟨rfl, rfl⟩ | ⟨rfl, rfl⟩ | ⟨rfl, rfl⟩ | ⟨rfl, rfl⟩ | ⟨rfl, rfl⟩
  case inl =>
    refine ⟨fun _ => ?_, by simp, by simp, by simp⟩
    rw [view_configure, Keyed.lookup_insert_self]
    rcases orientation_cases attributes with h | h <;> simp [h]
  case inr.inl =>
    exact ⟨by simp, fun _ => Keyed.isSome_lookup_insertNew _ _ _, by simp, by simp⟩
  case inr.inr.inl => exact ⟨by simp, by simp, by simp, by simp⟩
  case inr.inr.inr.inl =>
    refine ⟨by simp, by simp, fun _ => ⟨animated attributes, ?_, ?_⟩, by simp⟩
    · rw [image_configure, Keyed.lookup_insert_self]
    · rw [image_configure, animates_insert, animated_iff]
  case inr.inr.inr.inr =>
    exact ⟨by simp, by simp, by simp, fun _ => Keyed.isSome_lookup_insertNew _ _ _⟩

/-- **The normal form is what configuring leaves as it is**, values and the order of the keys
alike. -/
lemma configure_eq_self_iff {name : String} {control : Control} (hc : (name, control) ∈ builtins) :
    control.configure attributes = attributes ↔ Normal name attributes := by
  refine ⟨fun h => h ▸ normal_configure hc attributes, fun h => ?_⟩
  simp only [builtins, List.mem_cons, Prod.mk.injEq, List.not_mem_nil, or_false] at hc
  rcases hc with ⟨rfl, rfl⟩ | ⟨rfl, rfl⟩ | ⟨rfl, rfl⟩ | ⟨rfl, rfl⟩ | ⟨rfl, rfl⟩
  case inl =>
    rw [view_configure]
    rcases h.view rfl with h | h
    · exact Keyed.insert_eq_self (by rw [h, orientation_eq h (.inl rfl)])
    · exact Keyed.insert_eq_self (by rw [h, orientation_eq h (.inr rfl)])
  case inr.inl => exact Keyed.insertNew_eq_self (h.text rfl) _
  case inr.inr.inl => rfl
  case inr.inr.inr.inl =>
    obtain ⟨known, hlookup, hknown⟩ := h.image rfl
    rw [image_configure]
    apply Keyed.insert_eq_self
    rw [hlookup, Bool.eq_iff_iff.mpr (hknown.trans (animated_iff attributes).symm)]
  case inr.inr.inr.inr => exact Keyed.insertNew_eq_self (h.text_input rfl) _

/-- Configuring twice is configuring once. -/
lemma configure_configure {name : String} {control : Control} (hc : (name, control) ∈ builtins)
    (attributes : Attributes) :
    control.configure (control.configure attributes) = control.configure attributes :=
  (configure_eq_self_iff hc).mpr (normal_configure hc attributes)

end Control

namespace Catalog

/-! ### The controls of a catalog -/

variable {catalog : Catalog} {factories : List (String × Factory)}

/-- Whatever a catalog stores is one of some factories, under the class name of its type. -/
def Stores (catalog : Catalog) (factories : List (String × Factory)) : Prop :=
  ∀ key registration, catalog.registry.entries.lookup key = some registration →
    ∃ known, (known, registration.stored) ∈ factories
      ∧ catalog.className registration.stored.category known = .ok key.2

/-- What a catalog is after a registration. -/
lemma register_eq_ok {typeName : String} {factory : Factory} {after : Catalog}
    (h : catalog.register typeName factory = .ok after) :
    ∃ name, catalog.className factory.category typeName = .ok name
      ∧ after.registry.formats = catalog.registry.formats
      ∧ after.registry.entries = catalog.registry.entries.insert (factory.category, name)
          ⟨Text.trim typeName, factory⟩ := by
  rw [register, Registry.register] at h
  rw [className]
  cases hname : catalog.registry.className factory.category typeName with
  | error e => simp [hname, Except.map] at h
  | ok name =>
      refine ⟨name, rfl, ?_⟩
      rw [hname] at h
      dsimp only at h
      split_ifs at h
      · split at h <;> cases h
        exact ⟨rfl, rfl⟩
      · cases h
        exact ⟨rfl, rfl⟩

/-- Class names depend on the formats only. -/
lemma className_congr {after : Catalog} (h : after.registry.formats = catalog.registry.formats)
    (category : Category) (typeName : String) :
    after.className category typeName = catalog.className category typeName := by
  rw [className, Registry.className, h, className, Registry.className]

lemma Stores.register (h : catalog.Stores factories) {typeName : String} {factory : Factory}
    (hf : (typeName, factory) ∈ factories) {after : Catalog}
    (hr : catalog.register typeName factory = .ok after) : after.Stores factories := by
  obtain ⟨name, hname, hformats, hentries⟩ := register_eq_ok hr
  intro key registration hlookup
  rw [hentries, Keyed.lookup_insert] at hlookup
  split_ifs at hlookup with hkey
  · obtain rfl := Option.some.inj hlookup
    refine ⟨typeName, hf, ?_⟩
    rw [className_congr hformats, ← hkey]
    exact hname
  · obtain ⟨known, hknown, hclass⟩ := h key registration hlookup
    exact ⟨known, hknown, (className_congr hformats _ known).trans hclass⟩

lemma Stores.registerAll (h : catalog.Stores factories) {more : List (String × Factory)}
    (hmore : ∀ entry ∈ more, entry ∈ factories) {after : Catalog}
    (hr : catalog.registerAll more = .ok after) : after.Stores factories := by
  induction more generalizing catalog with
  | nil =>
      cases hr
      exact h
  | cons first rest ih =>
      obtain ⟨typeName, factory⟩ := first
      rw [Catalog.registerAll] at hr
      cases hone : catalog.register typeName factory with
      | error e => simp [hone] at hr
      | ok next =>
          rw [hone] at hr
          exact ih (h.register (hmore _ List.mem_cons_self) hone)
            (fun entry hentry => hmore entry (List.mem_cons_of_mem _ hentry)) hr

/-- A catalog without components has no entries. -/
lemma entries_empty {config : RegistryConfig} (h : Catalog.empty config = .ok catalog) :
    catalog.registry.entries = [] := by
  rw [Catalog.empty] at h
  cases hr : Registry.ofConfig (α := Factory) config with
  | error e => simp [hr, Except.map] at h
  | ok registry =>
      rw [hr] at h
      cases h
      exact Registry.entries_ofConfig hr

/-- The catalog of the built-in components stores these and nothing else. -/
lemma stores_withBuiltins {config : RegistryConfig} (h : withBuiltins config = .ok catalog) :
    catalog.Stores builtins := by
  rw [withBuiltins] at h
  cases hempty : Catalog.empty config with
  | error e => simp [hempty] at h
  | ok start =>
      rw [hempty] at h
      refine Stores.registerAll (fun key registration hlookup => ?_) (fun _ hentry => hentry) h
      rw [entries_empty hempty] at hlookup
      cases hlookup

/-- A type that is known has a class name. -/
lemma className_of_resolveControl {typeName : String} {make : Maker Control}
    (h : catalog.resolveControl typeName = .ok make) :
    ∃ name, catalog.className .control typeName = .ok name := by
  rw [resolveControl, resolveAs, Registry.resolve] at h
  cases hname : catalog.registry.className .control typeName with
  | error e => simp [hname] at h
  | ok name => exact ⟨name, hname⟩

/-- **The type of a control is one of the built-in types**, in some spelling. -/
lemma resolveControl_withBuiltins {config : RegistryConfig} (h : withBuiltins config = .ok catalog)
    {typeName : String} {make : Maker Control} (hr : catalog.resolveControl typeName = .ok make) :
    ∃ known control, (known, control) ∈ Control.builtins ∧ make = (fun _ => .ok control)
      ∧ catalog.className .control typeName = catalog.className .control known := by
  obtain ⟨name, hname⟩ := className_of_resolveControl hr
  have hregistry : catalog.registry.className .control typeName = .ok name := hname
  rw [resolveControl, resolveAs, Registry.resolve, hregistry] at hr
  dsimp only at hr
  cases hlookup : catalog.registry.entries.lookup (.control, name) with
  | none => simp [hlookup] at hr
  | some registration =>
      obtain ⟨known, hknown, hclass⟩ := stores_withBuiltins h _ _ hlookup
      rw [hlookup] at hr
      dsimp only at hr
      cases hstored : registration.stored with
      | control stored =>
          rw [hstored] at hr hknown hclass
          cases hr
          simp only [builtins, List.mem_append, List.mem_map] at hknown
          simp only [Prod.mk.injEq, Factory.control.injEq, reduceCtorEq, and_false, exists_false,
            or_false] at hknown
          obtain ⟨⟨known', control⟩, hmem, rfl, rfl⟩ := hknown
          exact ⟨known', control, hmem, rfl, hname.trans hclass.symm⟩
      | dataProvider _ | action _ | shortcode _ => simp [hstored] at hr

end Catalog

end Componentry
