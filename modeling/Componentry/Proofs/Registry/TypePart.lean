import Mathlib.Tactic
import Componentry.Proofs.Registry.Spelling
import Componentry.Proofs.Runs
/-!
# The type part of a class name

A class name is the format of its category with the type name in upper camel case in the place of the
braces, the type part.  It depends on the words of the type name only, so all ways to separate these
words are names of one type (`className?_of_hasRuns`).

The type part is made of the letters and digits of the type name (`map_toLower_camelCase`).  That
there are any is not asked of a type name: `_` and `--` are type names too, and their type part is
empty.  What is no type name enters no registry, and what is stored in one has the class name of the
type name that it is listed under (`run_admits`).
-/

namespace Componentry

lemma toList_trim (typeName : String) :
    (Text.trim typeName).toList = Text.trimChars typeName.toList := String.toList_ofList

lemma trim_trim (typeName : String) : Text.trim (Text.trim typeName) = Text.trim typeName := by
  rw [Text.trim, toList_trim, Text.trimChars_trimChars, ← Text.trim]

/-! ### What the type part is made of -/

/-- Type names with the same runs of letters and digits have one type part. -/
lemma camelCase_eq_of_runs {s t : String} (h : Text.runs s.toList = Text.runs t.toList) :
    camelCase s = camelCase t := by
  have hruns : Text.runs (Text.trim s).toList = Text.runs (Text.trim t).toList := by
    rw [toList_trim, toList_trim, Text.runs_trimChars, Text.runs_trimChars, h]
  exact congrArg String.ofList (Text.camelChars_eq_of_runs hruns)

/-- The letters and digits of a type name, in their order and up to case. -/
lemma map_toLower_camelCase (typeName : String) : (camelCase typeName).toList.map Char.toLower
    = (typeName.toList.filter Text.isAsciiAlphanumeric).map Char.toLower := by
  have hcamel : (camelCase typeName).toList = Text.camelChars (Text.trim typeName).toList :=
    String.toList_ofList
  rw [hcamel, toList_trim, Text.camelChars_eq_of_runs (Text.runs_trimChars typeName.toList),
    Text.map_toLower_camelChars]

/-- A type name has no type part just if it is made of separators. -/
lemma camelCase_eq_empty_iff {typeName : String} (h : IsTypeName typeName) :
    camelCase typeName = "" ↔ ∀ c ∈ (Text.trim typeName).toList, c = '_' ∨ c = '-' := by
  have hcamel : camelCase typeName = String.ofList (Text.camelChars (Text.trim typeName).toList) :=
    rfl
  have hempty : camelCase typeName = ""
      ↔ ∀ c ∈ (Text.trim typeName).toList, ¬ Text.isAsciiAlphanumeric c := by
    rw [← Text.camelChars_eq_nil_iff, hcamel, ← String.toList_inj, String.toList_ofList]
    rfl
  rw [hempty]
  refine forall₂_congr fun c hc => ?_
  have hname : Text.isNameChar c := List.all_eq_true.mp h.2 c hc
  simp only [Text.isNameChar, Bool.or_eq_true, beq_iff_eq, or_assoc] at hname
  rw [Text.isAsciiAlphanumeric]
  refine ⟨fun hout => hname.resolve_left hout, ?_⟩
  rintro (rfl | rfl) <;> decide

/-- The blanks around a type name are no part of it. -/
lemma ClassNameFormat.className?_trim (format : ClassNameFormat) (typeName : String) :
    format.className? (Text.trim typeName) = format.className? typeName := by
  rw [className?, trim_trim, className?]

/-! ### Words -/

/-- **A class name depends on the words of the type name only.**  Type names with the same runs of
letters and digits, whatever separates them and stands around them, have one class name under every
format: the type part is made of these runs, up to case.  So they are names of one type in every
registry and at all times. -/
theorem ClassNameFormat.className?_of_hasRuns (format : ClassNameFormat) {s t : String}
    {rs : List (List Char)} (hs : IsTypeName s) (ht : IsTypeName t)
    (hruns : Text.HasRuns rs s.toList) (hruns' : Text.HasRuns rs t.toList) :
    (∃ part : String, part.toList.map Char.toLower = rs.flatten.map Char.toLower
        ∧ format.className? s = some (format.before ++ part ++ format.after)
        ∧ format.className? t = some (format.before ++ part ++ format.after))
      ∧ ∀ {α : Type} {config : RegistryConfig} {start : Registry α},
        Registry.ofConfig config = .ok start → ∀ calls category,
          (start.run calls).Synonyms category s t := by
  have hcamel : camelCase s = camelCase t :=
    camelCase_eq_of_runs (hruns.runs_eq.trans hruns'.runs_eq.symm)
  refine ⟨⟨camelCase s, ?_, ?_, ?_⟩, fun hstart calls category => ?_⟩
  · rw [map_toLower_camelCase, hruns.flatten_eq]
  · rw [className?_eq, if_pos hs]
  · rw [className?_eq, if_pos ht, hcamel]
  · exact ((Registry.formatted_ofConfig hstart).run calls).synonyms category hs ht hcamel

/-- Two words with one underscore between them, and with separators and blanks everywhere. -/
theorem ClassNameFormat.className?_of_hasRuns_untidy :
    let format : ClassNameFormat := ⟨"IX", "Control"⟩
    let rs := ["text".toList, "input".toList]
    IsTypeName "text_input" ∧ IsTypeName "\t-text-_-input__ "
      ∧ Text.HasRuns rs "text_input".toList ∧ Text.HasRuns rs "\t-text-_-input__ ".toList
      ∧ format.className? "\t-text-_-input__ " = some "IXTextInputControl"
      ∧ format.className? "text_input" = format.className? "\t-text-_-input__ "
      ∧ (Registry.empty .strict : Registry Nat).Synonyms .action "text_input"
        "\t-text-_-input__ " := by
  intro format rs
  have hs : IsTypeName "text_input" := by decide +kernel
  have ht : IsTypeName "\t-text-_-input__ " := by decide +kernel
  have hruns : Text.HasRuns rs "text_input".toList := Text.hasRuns_iff.mpr (by decide +kernel)
  have hruns' : Text.HasRuns rs "\t-text-_-input__ ".toList :=
    Text.hasRuns_iff.mpr (by decide +kernel)
  obtain ⟨⟨part, -, hname, hname'⟩, hsynonyms⟩ :=
    className?_of_hasRuns format hs ht hruns hruns'
  have hstart : Registry.ofConfig ⟨.strict, []⟩ = .ok (Registry.empty .strict : Registry Nat) := rfl
  exact ⟨hs, ht, hruns, hruns', by decide +kernel, hname.trans hname'.symm,
    hsynonyms hstart [] .action⟩

namespace Registry

variable {α : Type} {r start : Registry α} {category : Category} {typeName name : String}

/-! ### What is admitted -/

/-- A class name as that of a type name, with its type part. -/
structure Labels (r : Registry α) (category : Category) (typeName className part : String) :
    Prop where
  isTypeName : IsTypeName typeName
  /-- The type part stands in the format of the category, -/
  className_eq : ∃ format, r.formats.lookup category = some format
    ∧ className = format.before ++ part ++ format.after
  /-- is made of the letters and digits of the type name, up to case, -/
  letters_eq : part.toList.map Char.toLower
    = (typeName.toList.filter Text.isAsciiAlphanumeric).map Char.toLower
  /-- and is empty just if the type name is made of separators. -/
  empty_iff : part = "" ↔ ∀ c ∈ (Text.trim typeName).toList, c = '_' ∨ c = '-'

lemma labels_of_className (h : r.className category typeName = .ok name) :
    r.Labels category typeName name (camelCase typeName) := by
  rw [className] at h
  split at h
  · rename_i found hfound
    cases h
    obtain ⟨format, hformat, hname⟩ := Option.bind_eq_some_iff.mp hfound
    rw [ClassNameFormat.className?_eq] at hname
    split_ifs at hname with hvalid
    cases hname
    exact ⟨hvalid, ⟨format, hformat, rfl⟩, map_toLower_camelCase typeName,
      camelCase_eq_empty_iff hvalid⟩
  · cases h

/-- A text that is no type name has no class name. -/
lemma className_of_not_isTypeName (h : ¬ IsTypeName typeName) (r : Registry α)
    (category : Category) :
    r.className category typeName = .error (.invalidTypeName category typeName) := by
  have hnone : ((r.formats.lookup category).bind fun format => format.className? typeName)
      = none := by
    rw [Option.bind_eq_none_iff]
    intro format _
    rw [ClassNameFormat.className?_eq, if_neg h]
  rw [className, hnone]

lemma className_trim (r : Registry α) (category : Category)
    (h : r.className category typeName = .ok name) :
    r.className category (Text.trim typeName) = .ok name := by
  rw [className] at h ⊢
  simp only [ClassNameFormat.className?_trim]
  split at h
  · exact h
  · cases h

/-- A key is held under the class name of the type name that is shown with it. -/
lemma Holds.className_eq {log : List (Answered α)} {key : Category × String}
    {registration : Registration α} (h : r.Holds log key registration) :
    r.className key.1 registration.typeName = .ok key.2 := by
  obtain ⟨before, ⟨call, answer⟩, after, -, hstored, -⟩ := h
  cases call with
  | register category typeName value =>
      cases answer with
      | registered result =>
          cases result with
          | error e => cases hstored
          | ok outcome =>
              rw [stored?, key?] at hstored
              cases hname : r.className category typeName with
              | error e => simp [hname, Except.toOption] at hstored
              | ok name =>
                  rw [hname] at hstored
                  cases hstored
                  exact className_trim r category hname
      | _ => cases hstored
  | _ => cases hstored

/-- **What enters a registry.**  At all times a text that is no type name is refused by every call,
and every type name has a class name.  What is stored has the class name of the type name that it is
listed under.  A class name has a type part of the letters and digits of the type name, which is
empty for names like `_`, that are made of separators. -/
theorem run_admits {config : RegistryConfig} (hstart : ofConfig config = .ok start)
    (calls : List (RegistryCall α)) :
    (∀ category typeName, ¬ IsTypeName typeName →
        let invalid := RegistryError.invalidTypeName category typeName
        (start.run calls).className category typeName = .error invalid
          ∧ (start.run calls).resolve category typeName = .error invalid
          ∧ ∀ value, (start.run calls).register category typeName value = .error invalid)
      ∧ (∀ category typeName, IsTypeName typeName → ∃ className part,
        (start.run calls).className category typeName = .ok className
          ∧ (start.run calls).Labels category typeName className part)
      ∧ ∀ key registration, (start.run calls).entries.lookup key = some registration →
        ∃ part, (start.run calls).Labels key.1 registration.typeName key.2 part := by
  refine ⟨fun category typeName hinvalid => ?_, fun category typeName hvalid => ?_,
    fun key registration hlookup => ?_⟩
  · have hclass := className_of_not_isTypeName hinvalid (start.run calls) category
    refine ⟨hclass, ?_, fun value => ?_⟩
    · rw [resolve, hclass]
    · rw [register, hclass]
  · have hformatted := (formatted_ofConfig hstart).run calls
    obtain ⟨className, hclass⟩ := hformatted.exists_className category hvalid
    exact ⟨className, camelCase typeName, hclass, labels_of_className hclass⟩
  · have hrecalls := start.recalls_run (entries_ofConfig hstart) calls
    have hheld := (hrecalls.holds key registration).mp hlookup
    have hclass := (hrecalls.className_eq ..).trans hheld.className_eq
    exact ⟨camelCase registration.typeName, labels_of_className hclass⟩

/-- A control that is registered under an underscore is resolved under two hyphens, and nothing
stands in its class name for the type. -/
theorem run_admits_underscore :
    let r := (empty .overwrite : Registry Nat).run [.register .control "_" 1]
    ¬ IsTypeName "text input" ∧ IsTypeName "--"
      ∧ r.resolve .control "text input" = .error (.invalidTypeName .control "text input")
      ∧ r.resolve .control "--" = .ok 1
      ∧ r.Labels .control "--" "IXControl" ""
      ∧ r.entries.lookup (.control, "IXControl") = some ⟨"_", 1⟩
      ∧ ∃ part, r.Labels .control "_" "IXControl" part := by
  intro r
  have hstart : ofConfig {} = .ok (empty .overwrite : Registry Nat) := rfl
  obtain ⟨hrefused, hnamed, hstored⟩ := run_admits hstart [.register .control "_" 1]
  have hblank : ¬ IsTypeName "text input" := by decide +kernel
  have hhyphens : IsTypeName "--" := by decide +kernel
  have hlookup : r.entries.lookup (.control, "IXControl") = some ⟨"_", 1⟩ := by decide +kernel
  obtain ⟨className, part, hclass, hlabels⟩ := hnamed .control "--" hhyphens
  obtain rfl : "IXControl" = className := by
    have hname : r.className .control "--" = .ok "IXControl" := by decide +kernel
    exact Except.ok.inj (hname.symm.trans hclass)
  obtain rfl : part = "" := hlabels.empty_iff.mpr (Text.forall_of_all (by decide +kernel))
  exact ⟨hblank, hhyphens, (hrefused .control "text input" hblank).2.1, by decide +kernel,
    hlabels, hlookup, hstored _ _ hlookup⟩

end Registry

end Componentry
