import Mathlib.Tactic
import Componentry.Config
import Componentry.Proofs.Json.Decode
import Componentry.Request
import Componentry.Session.Journal
/-!
# Reports, requests and configurations as values

What leaves a session, and what it is configured with, is written as JSON and read back.  An outcome
of the journal is an object whose member `outcome` names the case, and a skipped one has an object of
the same kind inside, for the reason.  Requests and configurations are records, some fields of which
are maps.

Reading gives back what was written, the order of maps included, with two provisos which are part of
what these values are: a map has no key twice, and a number has as many bits as its field
(`roundTrip_iff`).  Without them a repeated key collapses, and a number that is too large is refused.
-/

namespace Componentry

/-! ### Outcomes -/

namespace SkipReason

lemma ofJson?_members (reason : SkipReason) : ofJson? (.object reason.members) = some reason := by
  cases reason <;> rfl

lemma members_inj {reason other : SkipReason} (h : reason.members = other.members) :
    reason = other := by
  have hread := reason.ofJson?_members
  rw [h, other.ofJson?_members] at hread
  exact (Option.some.inj hread).symm

end SkipReason

namespace Outcome

/-- Whether the number of bindings has 64 bits. -/
def Fits : Outcome → Prop
  | .delivered bindings => bindings < 2 ^ 64
  | _ => True

/-- An outcome is read back, unless its number is too large. -/
lemma ofJson?_toJson_iff {outcome : Outcome} :
    ofJson? outcome.toJson = some outcome ↔ outcome.Fits := by
  cases outcome with
  | delivered bindings =>
      have hparts : ofJson? (toJson (.delivered bindings))
          = (Decoder.natBelow (Nat.pow 2 64) (.number (.int bindings))).bind
            fun n => some (.delivered n) := rfl
      rw [hparts, Decoder.natBelow_int, Nat.pow_eq]
      split_ifs with hbits
      · exact iff_of_true rfl hbits
      · exact iff_of_false (by simp) hbits
  | executed => exact iff_of_true rfl trivial
  | skipped reason =>
      have hparts : ofJson? (toJson (.skipped reason))
          = (SkipReason.ofJson? (.object reason.members)).bind fun r => some (.skipped r) := rfl
      rw [hparts, SkipReason.ofJson?_members]
      exact iff_of_true rfl trivial
  | failed message => exact iff_of_true rfl trivial

/-- Different outcomes are written differently. -/
lemma toJson_inj {outcome other : Outcome} : outcome.toJson = other.toJson ↔ outcome = other := by
  -- Reading back would not do: a number that is too large is written, too.
  refine ⟨fun h => ?_, fun h => h ▸ rfl⟩
  cases outcome <;> cases other <;> simp [toJson, members] at h ⊢
  case delivered => exact h
  case skipped => exact SkipReason.members_inj h
  case failed => exact h

end Outcome

/-! ### Requests -/

/-- A text that may be missing is read back. -/
lemma nullable_ofText (text : Option String) :
    Decoder.nullable Decoder.string (Json.ofText text) = some text := by
  cases text <;> rfl

namespace DataRequest

/-- A request whose maps have collapsed. -/
def collapsed (r : DataRequest) : DataRequest :=
  { r with
    parameters := Keyed.ofList r.parameters
    headers := Keyed.ofList r.headers
    attachments := Keyed.ofList r.attachments
    attributes := Keyed.ofList r.attributes }

/-- Whether no map of the request has a key twice. -/
structure Distinct (r : DataRequest) : Prop where
  parameters : r.parameters.keys.Nodup
  headers : r.headers.keys.Nodup
  attachments : r.attachments.keys.Nodup
  attributes : r.attributes.keys.Nodup

lemma collapsed_eq_self_iff {r : DataRequest} : r.collapsed = r ↔ r.Distinct := by
  obtain ⟨providerId, providerType, entity, parameters, headers, attachments, attributes⟩ := r
  simp only [collapsed, mk.injEq, true_and, Keyed.ofList_eq_self_iff]
  exact ⟨fun ⟨h₁, h₂, h₃, h₄⟩ => ⟨h₁, h₂, h₃, h₄⟩, fun ⟨h₁, h₂, h₃, h₄⟩ => ⟨h₁, h₂, h₃, h₄⟩⟩

/-- A request is read back with its maps collapsed. -/
lemma ofJson?_toJson (r : DataRequest) : ofJson? r.toJson = some r.collapsed := by
  have hheaders : Decoder.keyed some Decoder.string (.object (r.headers.mapValues .string))
      = some (Keyed.ofList r.headers) := Decoder.keyed_mapValues Decoder.string_string r.headers
  rw [ofJson?, toJson, Decoder.fields_object _ (by simp [Keyed.keys])]
  simp [Decoder.required, Decoder.optional, Keyed.lookup, Decoder.string_string,
    nullable_ofText, Decoder.attributes_object, hheaders, collapsed]

end DataRequest

lemma Alert.ofJson?_toJson (alert : Alert) : ofJson? alert.toJson = some alert := by
  rw [ofJson?, toJson, Decoder.fields_object _ (by simp [Keyed.keys])]
  simp [Decoder.required, Decoder.optional, Keyed.lookup, Decoder.string_string,
    nullable_ofText]

/-- A call is read back with its parameters collapsed. -/
lemma FunctionCall.ofJson?_toJson (call : FunctionCall) : ofJson? call.toJson
    = some { call with parameters := Keyed.ofList call.parameters } := by
  rw [ofJson?, toJson, Decoder.fields_object _ (by simp [Keyed.keys])]
  simp [Decoder.required, Decoder.optional, Keyed.lookup, Decoder.string_string,
    Decoder.attributes_object]

/-! ### Configurations -/

/-- A configuration of a registry is read back with its formats collapsed. -/
lemma RegistryConfig.ofJson?_toJson (config : RegistryConfig) : ofJson? config.toJson
    = some { config with classNameFormats := Keyed.ofList config.classNameFormats } := by
  have hpolicy : Decoder.name RegistrationPolicy.ofName? (.string config.policy.name)
      = some config.policy := by cases config.policy <;> rfl
  have hcategory : ∀ category : Category, Category.ofName? category.name = some category := by
    intro category
    cases category <;> rfl
  have hformats : Decoder.keyed Category.ofName? Decoder.string
      (.object (config.classNameFormats.map fun entry => (entry.1.name, .string entry.2)))
        = some (Keyed.ofList config.classNameFormats) :=
    Decoder.keyed_object hcategory Decoder.string_string config.classNameFormats
  have hrecord : Decoder.fields ["policy", "class_name_formats"] config.toJson = some [
      ("policy", .string config.policy.name),
      ("class_name_formats", .object
        (config.classNameFormats.map fun entry => (entry.1.name, .string entry.2)))] :=
    Decoder.fields_object _ (by simp [Keyed.keys])
  rw [ofJson?, hrecord, Option.bind_eq_bind, Option.bind_some,
    Decoder.optional_eq_some rfl hpolicy, Option.bind_eq_bind, Option.bind_some,
    Decoder.optional_eq_some rfl hformats]
  rfl

namespace DispatchConfig

/-- Whether the delays have 64 bits and the number of repeats has 32. -/
structure Fits (config : DispatchConfig) : Prop where
  defaultDelay : config.defaultDelay < 2 ^ 64
  minRepeatDelay : config.minRepeatDelay < 2 ^ 64
  maxRepeats : config.maxRepeats < 2 ^ 32

/-- A configuration of the dispatcher is read back, unless a number is too large. -/
lemma ofJson?_toJson_iff {config : DispatchConfig} :
    ofJson? config.toJson = some config ↔ config.Fits := by
  obtain ⟨delay, interval, repeats⟩ := config
  have hrecord : Decoder.fields ["default_delay_ms", "min_repeat_delay_ms", "max_repeats"]
      (toJson ⟨delay, interval, repeats⟩) = some [
        ("default_delay_ms", .number (.int delay)),
        ("min_repeat_delay_ms", .number (.int interval)),
        ("max_repeats", .number (.int repeats))] :=
    Decoder.fields_object _ (by simp [Keyed.keys])
  rw [ofJson?, hrecord]
  simp only [Option.bind_eq_bind, Option.bind_some]
  -- The fields are read one after the other, and the first that is too large is refused.
  rw [Decoder.optional_of_lookup rfl, Decoder.natBelow_int, Nat.pow_eq]
  by_cases hdelay : delay < 2 ^ 64
  case neg =>
    rw [if_neg hdelay, Option.bind_none]
    exact iff_of_false (by simp) fun h => hdelay h.defaultDelay
  rw [if_pos hdelay, Option.bind_some, Decoder.optional_of_lookup rfl, Decoder.natBelow_int]
  by_cases hinterval : interval < 2 ^ 64
  case neg =>
    rw [if_neg hinterval, Option.bind_none]
    exact iff_of_false (by simp) fun h => hinterval h.minRepeatDelay
  rw [if_pos hinterval, Option.bind_some, Decoder.optional_of_lookup rfl, Decoder.natBelow_int,
    Nat.pow_eq]
  by_cases hrepeats : repeats < 2 ^ 32
  · rw [if_pos hrepeats]
    exact iff_of_true rfl ⟨hdelay, hinterval, hrepeats⟩
  · rw [if_neg hrepeats, Option.bind_none]
    exact iff_of_false (by simp) fun h => hrepeats h.maxRepeats

end DispatchConfig

/-! ### What is read back -/

/-- What is written is read back, the order of maps included, exactly where no map has a key twice and
every number has the bits of its field.  Different outcomes are written differently. -/
theorem roundTrip_iff :
    (∀ outcome : Outcome, Outcome.ofJson? outcome.toJson = some outcome ↔ outcome.Fits)
      ∧ (∀ outcome other : Outcome, outcome.toJson = other.toJson ↔ outcome = other)
      ∧ (∀ r : DataRequest, DataRequest.ofJson? r.toJson = some r ↔ r.Distinct)
      ∧ (∀ call : FunctionCall, FunctionCall.ofJson? call.toJson = some call
          ↔ call.parameters.keys.Nodup)
      ∧ (∀ alert : Alert, Alert.ofJson? alert.toJson = some alert)
      ∧ (∀ config : RegistryConfig, RegistryConfig.ofJson? config.toJson = some config
          ↔ config.classNameFormats.keys.Nodup)
      ∧ ∀ config : DispatchConfig, DispatchConfig.ofJson? config.toJson = some config
          ↔ config.Fits := by
  refine ⟨fun _ => Outcome.ofJson?_toJson_iff, fun _ _ => Outcome.toJson_inj, fun r => ?_,
    fun call => ?_, Alert.ofJson?_toJson, fun config => ?_,
    fun _ => DispatchConfig.ofJson?_toJson_iff⟩
  · rw [DataRequest.ofJson?_toJson, Option.some_inj, DataRequest.collapsed_eq_self_iff]
  · obtain ⟨target, functionName, parameters⟩ := call
    rw [FunctionCall.ofJson?_toJson, Option.some_inj, FunctionCall.mk.injEq]
    simp only [true_and, Keyed.ofList_eq_self_iff]
  · obtain ⟨policy, formats⟩ := config
    rw [RegistryConfig.ofJson?_toJson, Option.some_inj, RegistryConfig.mk.injEq]
    simp only [true_and, Keyed.ofList_eq_self_iff]

end Componentry
