import Mathlib.Tactic
import Componentry.Proofs.Registry.ClassName
import Componentry.Proofs.Registry.History
import Componentry.Proofs.Words
/-!
# The spellings of a type name

Two type names are either names of one type or of two (`Registry.Synonyms`, `Registry.Apart`), in
every category and whatever its format is, and which of both is a matter of upper camel case only
(`Formatted.synonyms`, `Formatted.apart`).

The spellings of a name with underscores and hyphens are synonyms, and upper camel case is one more
spelling where it is legible.  Where it is not, as in `XYPlot` for `x_y_plot`, it is the name of
another type (`synonyms_of_spells`).
-/

namespace Componentry

namespace Registry

variable {α : Type}

/-- Two names of one type: they have one class name, the same is found under both, and what is
registered under one is resolved under the other. -/
structure Synonyms (r : Registry α) (category : Category) (s t : String) : Prop where
  className_eq : ∃ name, r.className category s = .ok name ∧ r.className category t = .ok name
  resolve_eq : (r.resolve category s).toOption = (r.resolve category t).toOption
  resolve_second : ∀ value outcome after,
    r.register category s value = .ok (outcome, after) → after.resolve category t = .ok value
  resolve_first : ∀ value outcome after,
    r.register category t value = .ok (outcome, after) → after.resolve category s = .ok value

/-- Names of two types: they have class names of their own, and what is registered under one is not
seen under the other. -/
structure Apart (r : Registry α) (category : Category) (s t : String) : Prop where
  className_ne : ∃ name other, r.className category s = .ok name
    ∧ r.className category t = .ok other ∧ name ≠ other
  resolve_second : ∀ value outcome after, r.register category s value = .ok (outcome, after) →
    after.resolve category t = r.resolve category t
  resolve_first : ∀ value outcome after, r.register category t value = .ok (outcome, after) →
    after.resolve category s = r.resolve category s

/-- What a registration does to a type is told by the class names. -/
lemma resolve_register {r after : Registry α} {category : Category} {s t name other : String}
    {value : α} {outcome : RegistrationOutcome}
    (h : r.register category s value = .ok (outcome, after))
    (hs : r.className category s = .ok name) (ht : r.className category t = .ok other) :
    after.resolve category t = if name = other then .ok value else r.resolve category t := by
  obtain ⟨stored, hstored, hafter⟩ := register_eq_ok h
  obtain rfl : name = stored := Except.ok.inj (hs.symm.trans hstored)
  dsimp only at hafter
  have ht' : after.className category t = .ok other := by rw [className, hafter, ← ht, className]
  rw [resolve, resolve, ht', ht, hafter]
  dsimp only
  rw [Keyed.lookup_insert]
  by_cases hname : name = other
  · rw [if_pos hname, if_pos (by rw [hname])]
  · rw [if_neg hname, if_neg (by simpa using hname)]

/-- Type names that are the same in upper camel case are synonyms. -/
lemma Formatted.synonyms {r : Registry α} (h : r.Formatted) (category : Category) {s t : String}
    (hs : IsTypeName s) (ht : IsTypeName t) (hcamel : camelCase s = camelCase t) :
    r.Synonyms category s t := by
  obtain ⟨name, hname⟩ := h.exists_className category ht
  have hname' : r.className category s = .ok name :=
    ((h.className_eq_iff hs ht).mpr hcamel).trans hname
  refine ⟨⟨name, hname', hname⟩, ?_, fun value outcome after hr => ?_,
    fun value outcome after hr => ?_⟩
  · rw [resolve, resolve, hname, hname']
    dsimp only
    cases r.entries.lookup (category, name) <;> rfl
  · rw [resolve_register hr hname' hname, if_pos rfl]
  · rw [resolve_register hr hname hname', if_pos rfl]

/-- Type names that are not the same in upper camel case name two types. -/
lemma Formatted.apart {r : Registry α} (h : r.Formatted) (category : Category) {s t : String}
    (hs : IsTypeName s) (ht : IsTypeName t) (hcamel : camelCase s ≠ camelCase t) :
    r.Apart category s t := by
  obtain ⟨name, hname⟩ := h.exists_className category hs
  obtain ⟨other, hother⟩ := h.exists_className category ht
  have hne : name ≠ other := by
    rintro rfl
    exact hcamel ((h.className_eq_iff hs ht).mp (hname.trans hother.symm))
  refine ⟨⟨name, other, hname, hother, hne⟩, fun value outcome after hr => ?_,
    fun value outcome after hr => ?_⟩
  · rw [resolve_register hr hname hother, if_neg hne]
  · rw [resolve_register hr hother hname, if_neg hne.symm]

end Registry

/-! ### Spelled names -/

section Spelled

variable {ws : List (List Char)} {s t : String}

lemma trim_of_spells (h : Text.Spells ws s.toList) : Text.trim s = s := by
  rw [Text.trim, Text.trimChars_of_solid h.solid, String.ofList_toList]

lemma isTypeName_of_spells (h : Text.Spells ws s.toList) : IsTypeName s := by
  rw [IsTypeName, trim_of_spells h]
  exact ⟨h.solid.ne_nil, h.all_isNameChar⟩

lemma camelCase_of_spells (h : Text.Spells ws s.toList) :
    camelCase s = String.ofList (Text.camelChars s.toList) := by
  rw [camelCase, trim_of_spells h]
  rfl

/-- The upper camel case of a spelled name is a type name, and has its own upper camel case. -/
lemma isTypeName_upperCamelCase (h : Text.Spells ws s.toList) :
    IsTypeName (Text.upperCamelCase s)
      ∧ camelCase (Text.upperCamelCase s)
        = String.ofList (Text.camelChars (Text.camelChars s.toList)) := by
  obtain ⟨c, rest, hcamel, hword, -⟩ := h.exists_camelChars
  have hchars : (Text.upperCamelCase s).toList = Text.camelChars s.toList :=
    String.toList_ofList
  have hspells : Text.Spells [c :: rest] (Text.upperCamelCase s).toList := by
    rw [hchars, hcamel]
    exact .last hword
  exact ⟨isTypeName_of_spells hspells, by rw [camelCase_of_spells hspells, hchars]⟩

end Spelled

namespace Registry

variable {α : Type}

/-- No call changes a format. -/
lemma formats_serve (r : Registry α) (call : RegistryCall α) :
    (r.serve call).1.formats = r.formats := by
  cases call with
  | register category typeName value =>
      rw [serve]
      split
      · rename_i outcome after hregister
        obtain ⟨name, -, hafter⟩ := register_eq_ok hregister
        dsimp only at hafter ⊢
        rw [hafter]
      · rfl
  | unregister category typeName =>
      rw [serve, unregister]
      dsimp only
      repeat' split
      all_goals rfl
  | _ => rfl

lemma Formatted.run {r : Registry α} (h : r.Formatted) (calls : List (RegistryCall α)) :
    (r.run calls).Formatted := by
  induction calls using List.reverseRecOn with
  | nil => exact h
  | append_singleton calls call ih =>
      rw [run_append_singleton]
      exact fun category => formats_serve (r.run calls) call ▸ ih category

/-- **The spellings of a type name.**  At all times, and in every category, the spellings of the
same words with underscores and hyphens are names of one type.  The upper camel case of a spelling
is one more name of it if it is legible, as it is where all words begin with two letters, and if it
is not, it is the name of another type. -/
theorem synonyms_of_spells {config : RegistryConfig} {start : Registry α}
    (hstart : ofConfig config = .ok start) (calls : List (RegistryCall α)) (category : Category)
    {ws : List (List Char)} {s t : String} (hs : Text.Spells ws s.toList)
    (ht : Text.Spells ws t.toList) :
    (start.run calls).Synonyms category s t
      ∧ (Text.Legible (Text.upperCamelCase t).toList →
        (start.run calls).Synonyms category t (Text.upperCamelCase t))
      ∧ (¬ Text.Legible (Text.upperCamelCase t).toList →
        (start.run calls).Apart category t (Text.upperCamelCase t))
      ∧ ((∀ word ∈ Text.words t.toList, Text.IsLong word) →
        Text.Legible (Text.upperCamelCase t).toList) := by
  have hformatted := (formatted_ofConfig hstart).run calls
  obtain ⟨hcamelName, hcamel⟩ := isTypeName_upperCamelCase ht
  have hname := isTypeName_of_spells ht
  have hchars : (Text.upperCamelCase t).toList = Text.camelChars t.toList := String.toList_ofList
  have hiff : camelCase t = camelCase (Text.upperCamelCase t)
      ↔ Text.Legible (Text.upperCamelCase t).toList := by
    rw [hcamel, camelCase_of_spells ht, hchars, ← ht.camelChars_camelChars_iff, String.ofList_inj, eq_comm]
  refine ⟨?_, fun hlegible => ?_, fun hlegible => ?_, fun hlong => ?_⟩
  · refine hformatted.synonyms category (isTypeName_of_spells hs) hname ?_
    rw [camelCase_of_spells hs, camelCase_of_spells ht, hs.camelChars_eq ht]
  · exact hformatted.synonyms category hname hcamelName (hiff.mpr hlegible)
  · exact hformatted.apart category hname hcamelName (mt hiff.mp hlegible)
  · rw [hchars]
    exact Text.legible_camelChars t.toList hlong

/-- What is registered under one spelling is resolved under another one, but the name in camel case
is not known: of its three words the first two run together. -/
theorem synonyms_of_spells_plot :
    let r := (empty .overwrite : Registry Nat).run [.register .control "x_y_plot" 1]
    r.Synonyms .control "x-y-plot" "x_y_plot" ∧ r.Apart .control "x_y_plot" "XYPlot"
      ∧ r.resolve .control "x-y-plot" = .ok 1
      ∧ r.resolve .control "XYPlot" = .error (.unknownType .control "XYPlot" "IXXyPlotControl")
      ∧ r.Synonyms .control "text_input" "TextInput" := by
  intro r
  have hstart : ofConfig {} = .ok (empty .overwrite : Registry Nat) := rfl
  have hplot : Text.Spells [['x'], ['y'], "plot".toList] "x_y_plot".toList :=
    .cons (by decide) (.inl rfl) (.cons (by decide) (.inl rfl) (.last (by decide)))
  have hplot' : Text.Spells [['x'], ['y'], "plot".toList] "x-y-plot".toList :=
    .cons (by decide) (.inr rfl) (.cons (by decide) (.inr rfl) (.last (by decide)))
  have hinput : Text.Spells ["text".toList, "input".toList] "text_input".toList :=
    .cons (by decide) (.inl rfl) (.last (by decide))
  obtain ⟨hsame, -, hother, -⟩ := synonyms_of_spells hstart
    [.register .control "x_y_plot" 1] .control hplot' hplot
  obtain ⟨-, hcamel, -, hlong⟩ := synonyms_of_spells hstart
    [.register .control "x_y_plot" 1] .control hinput hinput
  have hname : Text.upperCamelCase "x_y_plot" = "XYPlot" := by decide +kernel
  have hname' : Text.upperCamelCase "text_input" = "TextInput" := by decide +kernel
  rw [hname] at hother
  rw [hname'] at hcamel hlong
  exact ⟨hsame, hother (by decide +kernel), by decide +kernel, by decide +kernel,
    hcamel (hlong (by decide +kernel))⟩

end Registry

end Componentry
