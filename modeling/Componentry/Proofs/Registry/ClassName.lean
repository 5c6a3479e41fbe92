import Mathlib.Tactic
import Componentry.Proofs.Keyed
import Componentry.Registry.Basic
/-!
# What class names are made of

A type name is made of identifier characters, with blanks around it or without (`IsTypeName`).  Every
registry has a format for each category: the ones that it starts with may be replaced, but none is
ever taken away (`Registry.Formatted`).  So the class name of a type name is what its format makes of
it in upper camel case, and there is none for any other text (`Registry.className_eq`); two type
names have one class name just if they are the same in upper camel case
(`Registry.className_eq_iff`).
-/

namespace Componentry

/-- A type name: identifier characters, with blanks around them or without. -/
def IsTypeName (typeName : String) : Prop :=
  (Text.trim typeName).toList ≠ [] ∧ (Text.trim typeName).toList.all Text.isNameChar = true

instance (typeName : String) : Decidable (IsTypeName typeName) :=
  inferInstanceAs (Decidable (_ ∧ _))

/-- A type name in upper camel case. -/
def camelCase (typeName : String) : String := Text.upperCamelCase (Text.trim typeName)

lemma ClassNameFormat.className?_eq (format : ClassNameFormat) (typeName : String) :
    format.className? typeName = if IsTypeName typeName then
      some (format.before ++ camelCase typeName ++ format.after) else none := rfl

namespace Registry

variable {α : Type}

/-- Whether a registry has a format for each category. -/
def Formatted (r : Registry α) : Prop := ∀ category, (r.formats.lookup category).isSome

lemma formatted_empty (policy : RegistrationPolicy) : (empty policy : Registry α).Formatted := by
  intro category
  change (defaultFormats.lookup category).isSome
  cases category <;> decide +kernel

lemma Formatted.withFormats {r u : Registry α} (h : r.Formatted) {formats : Keyed Category String}
    (hu : r.withFormats formats = .ok u) : u.Formatted := by
  induction formats generalizing r with
  | nil =>
      cases hu
      exact h
  | cons first rest ih =>
      obtain ⟨category, raw⟩ := first
      rw [Registry.withFormats] at hu
      split at hu
      · cases hu
      · refine ih (fun other => ?_) hu
        rw [Keyed.lookup_insert]
        split_ifs
        · rfl
        · exact h other

lemma formatted_ofConfig {config : RegistryConfig} {r : Registry α} (h : ofConfig config = .ok r) :
    r.Formatted :=
  (formatted_empty config.policy).withFormats h

/-- Changing formats stores nothing. -/
lemma entries_withFormats {r u : Registry α} {formats : Keyed Category String}
    (h : r.withFormats formats = .ok u) : u.entries = r.entries := by
  induction formats generalizing r with
  | nil =>
      cases h
      rfl
  | cons first rest ih =>
      obtain ⟨category, raw⟩ := first
      rw [Registry.withFormats] at h
      split at h
      · cases h
      · rename_i format _
        exact (ih h : u.entries
          = { r with formats := r.formats.insert category format }.entries)

/-- A configured registry starts without entries. -/
lemma entries_ofConfig {config : RegistryConfig} {r : Registry α} (h : ofConfig config = .ok r) :
    r.entries = [] :=
  entries_withFormats h

/-- The class name of a type name, and the error for any other text. -/
lemma className_eq {r : Registry α} {category : Category} {format : ClassNameFormat}
    (h : r.formats.lookup category = some format) (typeName : String) :
    r.className category typeName = if IsTypeName typeName then
      .ok (format.before ++ camelCase typeName ++ format.after)
      else .error (.invalidTypeName category typeName) := by
  rw [className, h, Option.bind_some, ClassNameFormat.className?_eq]
  split_ifs <;> rfl

lemma Formatted.exists_className {r : Registry α} (h : r.Formatted) (category : Category)
    {typeName : String} (hname : IsTypeName typeName) :
    ∃ name, r.className category typeName = .ok name := by
  obtain ⟨format, hformat⟩ := Option.isSome_iff_exists.mp (h category)
  exact ⟨_, (className_eq hformat typeName).trans (if_pos hname)⟩

lemma Formatted.className_eq_error_iff {r : Registry α} (h : r.Formatted) {category : Category}
    {typeName : String} :
    (∃ e, r.className category typeName = .error e) ↔ ¬ IsTypeName typeName := by
  obtain ⟨format, hformat⟩ := Option.isSome_iff_exists.mp (h category)
  rw [className_eq hformat]
  split_ifs with hvalid <;> simp [hvalid]

/-- Two type names have one class name just if they are the same in upper camel case. -/
lemma Formatted.className_eq_iff {r : Registry α} (h : r.Formatted) {category : Category}
    {typeName other : String} (hname : IsTypeName typeName) (hother : IsTypeName other) :
    r.className category typeName = r.className category other
      ↔ camelCase typeName = camelCase other := by
  obtain ⟨format, hformat⟩ := Option.isSome_iff_exists.mp (h category)
  rw [className_eq hformat, className_eq hformat, if_pos hname, if_pos hother]
  simp only [Except.ok.injEq, ← String.toList_inj, String.toList_append,
    List.append_cancel_left_eq, List.append_cancel_right_eq]

end Registry

end Componentry
