import Mathlib.Tactic
import Componentry.Proofs.Keyed
import Componentry.Registry.Basic
/-!
# What a registry remembers

A registry is used through its calls, and what it should answer can be told from the calls before.
`Registry.log` keeps every call of a history with its answer.  A key, which is a category and a
class name, is *held* by a registration if a call of the log has stored it and no later one has
stored or removed the key (`Registry.Holds`); it is *occupied* since the call that stored it when it
was not held by anything (`Registry.OccupiedSince`).

`Registry.Recalls` says that the entries of a registry are what its log tells: each key has the
registration that holds it, and the keys are in the order in which they became occupied.  One call
keeps this (`Recalls.serve`), so that it is true of every history (`recalls_run`).
`Registry.Obeys` reads the answers to all calls off the log.
-/

namespace Componentry

/-- A call of a registry. -/
inductive RegistryCall (α : Type) where
  | register (category : Category) (typeName : String) (value : α)
  | unregister (category : Category) (typeName : String)
  | resolve (category : Category) (typeName : String)
  | contains (category : Category) (typeName : String)
  | list (category : Category)
  | count

/-- The answer of a registry to a call. -/
inductive RegistryAnswer (α : Type) where
  | registered (result : Except RegistryError RegistrationOutcome)
  | unregistered (value : Option α)
  | resolved (result : Except RegistryError α)
  | contained (known : Bool)
  | listed (types : List RegisteredType)
  | counted (size : Nat)

/-- A call with its answer. -/
abbrev Answered (α : Type) : Type := RegistryCall α × RegistryAnswer α

namespace Registry

variable {α : Type}

/-! ### Histories -/

/-- The registry after a call, and its answer; a refused registration changes nothing. -/
def serve (r : Registry α) : RegistryCall α → Registry α × RegistryAnswer α
  | .register category typeName value =>
    match r.register category typeName value with
    | .ok (outcome, stored) => (stored, .registered (.ok outcome))
    | .error e => (r, .registered (.error e))
  | .unregister category typeName =>
    ((r.unregister category typeName).2, .unregistered (r.unregister category typeName).1)
  | .resolve category typeName => (r, .resolved (r.resolve category typeName))
  | .contains category typeName => (r, .contained (r.contains category typeName))
  | .list category => (r, .listed (r.registeredTypes category))
  | .count => (r, .counted r.size)

/-- The registry after several calls. -/
def run (r : Registry α) (calls : List (RegistryCall α)) : Registry α :=
  calls.foldl (fun r call => (r.serve call).1) r

/-- Several calls with their answers, in order. -/
def log (r : Registry α) : List (RegistryCall α) → List (Answered α)
  | [] => []
  | call :: calls => (call, (r.serve call).2) :: (r.serve call).1.log calls

lemma run_append_singleton (r : Registry α) (calls : List (RegistryCall α))
    (call : RegistryCall α) : r.run (calls ++ [call]) = ((r.run calls).serve call).1 := by
  simp [run]

lemma log_append_singleton (r : Registry α) (calls : List (RegistryCall α))
    (call : RegistryCall α) :
    r.log (calls ++ [call]) = r.log calls ++ [(call, ((r.run calls).serve call).2)] := by
  induction calls generalizing r with
  | nil => rfl
  | cons first rest ih =>
      rw [List.cons_append, log, ih, log, List.cons_append]
      rfl

/-- The key under which a type name is stored, if the name is valid. -/
def key? (r : Registry α) (category : Category) (typeName : String) : Option (Category × String) :=
  (r.className category typeName).toOption.map fun name => (category, name)

/-- What a call has stored, and under which key: a registration that was not refused. -/
def stored? (r : Registry α) : Answered α → Option ((Category × String) × Registration α)
  | (.register category typeName value, .registered (.ok _)) =>
    (r.key? category typeName).map fun key => (key, ⟨Text.trim typeName, value⟩)
  | _ => none

/-- The key that a call has freed. -/
def freed? (r : Registry α) : Answered α → Option (Category × String)
  | (.unregister category typeName, _) => r.key? category typeName
  | _ => none

/-- Whether a call has stored or freed a key. -/
def Touches (r : Registry α) (key : Category × String) (answered : Answered α) : Prop :=
  (r.stored? answered).map Prod.fst = some key ∨ r.freed? answered = some key

/-- A key is held by the registration of the most recent call that has stored it, if no call has
freed it since. -/
def Holds (r : Registry α) (log : List (Answered α)) (key : Category × String)
    (registration : Registration α) : Prop :=
  ∃ before answered after, log = before ++ answered :: after
    ∧ r.stored? answered = some (key, registration) ∧ ∀ later ∈ after, ¬ r.Touches key later

/-- Whether something holds a key. -/
def Occupied (r : Registry α) (log : List (Answered α)) (key : Category × String) : Prop :=
  ∃ registration, r.Holds log key registration

/-- The number of calls after which a key was held by nothing for the last time. -/
def OccupiedSince (r : Registry α) (log : List (Answered α)) (key : Category × String)
    (calls : Nat) : Prop :=
  calls < log.length ∧ ¬ r.Occupied (log.take calls) key
    ∧ ∀ n, calls < n → n ≤ log.length → r.Occupied (log.take n) key

section Log

variable {r : Registry α} {log : List (Answered α)} {answered : Answered α}
  {key : Category × String} {registration : Registration α}

lemma not_holds_nil : ¬ r.Holds [] key registration := by
  rintro ⟨before, answered, after, h, -⟩
  simp at h

/-- What holds a key after one more call. -/
lemma holds_append_singleton : r.Holds (log ++ [answered]) key registration
    ↔ r.stored? answered = some (key, registration)
      ∨ ¬ r.Touches key answered ∧ r.Holds log key registration := by
  constructor
  · rintro ⟨before, other, after, hlog, hstored, hlater⟩
    obtain rfl | ⟨front, last, rfl⟩ := List.eq_nil_or_concat after
    · have hsame := List.append_inj' hlog rfl
      rw [(List.cons.inj hsame.2).1]
      exact .inl hstored
    · have hsplit : log ++ [answered] = (before ++ other :: front) ++ [last] := by
        rw [hlog]
        simp
      have hsame := List.append_inj' hsplit rfl
      rw [hsame.1, (List.cons.inj hsame.2).1]
      exact .inr ⟨hlater last (by simp), before, other, front, rfl, hstored,
        fun later hmem => hlater later (by simp [hmem])⟩
  · rintro (hstored | ⟨huntouched, before, other, after, rfl, hstored, hlater⟩)
    · exact ⟨log, answered, [], rfl, hstored, by simp⟩
    · refine ⟨before, other, after ++ [answered], by simp, hstored, fun later hmem => ?_⟩
      obtain hmem | hmem := List.mem_append.mp hmem
      · exact hlater later hmem
      · rw [List.mem_singleton.mp hmem]
        exact huntouched

/-- A key that stays occupied has been so since the same call. -/
lemma OccupiedSince.append {calls : Nat} (h : r.OccupiedSince log key calls)
    (hkept : r.Occupied (log ++ [answered]) key) :
    r.OccupiedSince (log ++ [answered]) key calls := by
  obtain ⟨hlt, hfree, hheld⟩ := h
  refine ⟨by simp; omega, ?_, fun n hgt hle => ?_⟩
  · rwa [List.take_append_of_le_length hlt.le]
  · rw [List.length_append, List.length_singleton] at hle
    obtain hle | rfl := Nat.le_or_eq_of_le_succ hle
    · rw [List.take_append_of_le_length hle]
      exact hheld n hgt hle
    · rw [List.take_of_length_le (by simp)]
      exact hkept

/-- A key that becomes occupied is so since the last call. -/
lemma occupiedSince_last (hfree : ¬ r.Occupied log key)
    (hheld : r.Occupied (log ++ [answered]) key) :
    r.OccupiedSince (log ++ [answered]) key log.length := by
  refine ⟨by simp, by simpa using hfree, fun n hgt hle => ?_⟩
  rw [List.take_of_length_le (by simp; omega)]
  exact hheld

end Log

/-! ### One call -/

/-- What a registration that is not refused leaves. -/
lemma register_eq_ok {r : Registry α} {category : Category} {typeName : String} {value : α}
    {result : RegistrationOutcome × Registry α}
    (h : r.register category typeName value = .ok result) :
    ∃ name, r.className category typeName = .ok name ∧ result.2
      = { r with entries := r.entries.insert (category, name) ⟨Text.trim typeName, value⟩ } := by
  rw [register] at h
  split at h
  · cases h
  · rename_i name hname
    dsimp only at h
    refine ⟨name, hname, ?_⟩
    split_ifs at h
    · split at h <;> cases h
      rfl
    · cases h
      rfl

/-! ### What a registry recalls -/

/-- The entries of a registry are what a log tells.  The formats and the policy are those of the
registry that the log starts from. -/
structure Recalls (start : Registry α) (log : List (Answered α)) (r : Registry α) : Prop where
  formats : r.formats = start.formats
  policy : r.policy = start.policy
  nodup : r.entries.keys.Nodup
  holds : ∀ key registration,
    r.entries.lookup key = some registration ↔ start.Holds log key registration
  since : ∀ key ∈ r.entries.keys, ∃ n, start.OccupiedSince log key n
  ordered : r.entries.keys.Pairwise fun a b =>
    ∃ m n, start.OccupiedSince log a m ∧ start.OccupiedSince log b n ∧ m < n

namespace Recalls

variable {start r : Registry α} {log : List (Answered α)}

lemma className_eq (h : start.Recalls log r) (category : Category) (typeName : String) :
    r.className category typeName = start.className category typeName := by
  rw [className, h.formats, className]

lemma key?_eq (h : start.Recalls log r) (category : Category) (typeName : String) :
    r.key? category typeName = start.key? category typeName := by
  rw [key?, h.className_eq, key?]

lemma occupied_iff (h : start.Recalls log r) (key : Category × String) :
    start.Occupied log key ↔ key ∈ r.entries.keys := by
  rw [Occupied, ← not_iff_not, ← Keyed.lookup_eq_none_iff, Option.eq_none_iff_forall_ne_some]
  simp only [← h.holds, not_exists, ne_eq]

lemma contains_iff (h : start.Recalls log r) (key : Category × String) :
    r.entries.contains key = true ↔ start.Occupied log key := by
  rw [Keyed.contains, Option.isSome_iff_exists, Occupied]
  simp only [h.holds]

/-- A call that neither stores nor frees a key. -/
lemma append_untouched (h : start.Recalls log r) {answered : Answered α}
    (hstored : start.stored? answered = none) (hfreed : start.freed? answered = none) :
    start.Recalls (log ++ [answered]) r := by
  have hholds : ∀ key registration, start.Holds (log ++ [answered]) key registration
      ↔ start.Holds log key registration := by
    intro key registration
    simp [holds_append_singleton, Touches, hstored, hfreed]
  have hoccupied : ∀ key ∈ r.entries.keys, start.Occupied (log ++ [answered]) key := by
    intro key hkey
    obtain ⟨registration, hheld⟩ := (h.occupied_iff key).mpr hkey
    exact ⟨registration, (hholds key registration).mpr hheld⟩
  refine ⟨h.formats, h.policy, h.nodup, fun key registration => ?_, fun key hkey => ?_,
    h.ordered.imp_of_mem fun ha hb hab => ?_⟩
  · rw [h.holds, hholds]
  · obtain ⟨n, hn⟩ := h.since key hkey
    exact ⟨n, hn.append (hoccupied key hkey)⟩
  · obtain ⟨m, n, hm, hn, hlt⟩ := hab
    exact ⟨m, n, hm.append (hoccupied _ ha), hn.append (hoccupied _ hb), hlt⟩

/-- A registration that is stored, in its place or at the end. -/
lemma append_stored (h : start.Recalls log r) {answered : Answered α} {key : Category × String}
    {registration : Registration α} (hstored : start.stored? answered = some (key, registration))
    (hfreed : start.freed? answered = none) : start.Recalls (log ++ [answered])
      { r with entries := r.entries.insert key registration } := by
  have hholds : ∀ other found, start.Holds (log ++ [answered]) other found
      ↔ if key = other then found = registration else start.Holds log other found := by
    intro other found
    rw [holds_append_singleton, Touches, hstored, hfreed]
    split_ifs with heq
    · simp [heq, eq_comm]
    · simp [heq]
  have hoccupied : ∀ other, key = other ∨ other ∈ r.entries.keys →
      start.Occupied (log ++ [answered]) other := by
    intro other hother
    by_cases heq : key = other
    · exact ⟨registration, (hholds other registration).mpr (by rw [if_pos heq])⟩
    · obtain ⟨found, hheld⟩ := (h.occupied_iff other).mpr (hother.resolve_left heq)
      exact ⟨found, (hholds other found).mpr (by rwa [if_neg heq])⟩
  have hlast : key ∉ r.entries.keys → start.OccupiedSince (log ++ [answered]) key log.length :=
    fun hnew => occupiedSince_last (fun hheld => hnew ((h.occupied_iff key).mp hheld))
      (hoccupied key (.inl rfl))
  have hold : ∀ other ∈ r.entries.keys, ∃ n, n < log.length
      ∧ start.OccupiedSince (log ++ [answered]) other n := fun other hother => by
    obtain ⟨n, hn⟩ := h.since other hother
    exact ⟨n, hn.1, hn.append (hoccupied other (.inr hother))⟩
  have hordered : r.entries.keys.Pairwise fun a b => ∃ m n,
      start.OccupiedSince (log ++ [answered]) a m ∧ start.OccupiedSince (log ++ [answered]) b n
        ∧ m < n :=
    h.ordered.imp_of_mem fun ha hb ⟨m, n, hm, hn, hlt⟩ =>
      ⟨m, n, hm.append (hoccupied _ (.inr ha)), hn.append (hoccupied _ (.inr hb)), hlt⟩
  refine ⟨h.formats, h.policy, Keyed.nodup_keys_insert h.nodup key registration,
    fun other found => ?_, ?_, ?_⟩
  · rw [hholds, Keyed.lookup_insert]
    split_ifs
    · rw [Option.some.injEq, eq_comm]
    · exact h.holds other found
  · show ∀ other ∈ (r.entries.insert key registration).keys, _
    rw [Keyed.keys_insert]
    intro other hother
    split_ifs at hother with hmem
    · exact (hold other hother).imp fun _ hn => hn.2
    · obtain hother | hother := List.mem_append.mp hother
      · exact (hold other hother).imp fun _ hn => hn.2
      · rw [List.mem_singleton.mp hother]
        exact ⟨_, hlast hmem⟩
  · show (r.entries.insert key registration).keys.Pairwise _
    rw [Keyed.keys_insert]
    split_ifs with hmem
    · exact hordered
    · refine List.pairwise_append.mpr ⟨hordered, List.pairwise_singleton _ _, fun a ha b hb => ?_⟩
      obtain ⟨m, hlt, hm⟩ := hold a ha
      rw [List.mem_singleton.mp hb]
      exact ⟨m, log.length, hm, hlast hmem, hlt⟩

/-- A key that is freed; the keys behind it move up. -/
lemma append_freed (h : start.Recalls log r) {answered : Answered α} {key : Category × String}
    (hstored : start.stored? answered = none) (hfreed : start.freed? answered = some key) :
    start.Recalls (log ++ [answered]) { r with entries := r.entries.erase key } := by
  have hholds : ∀ other found, start.Holds (log ++ [answered]) other found
      ↔ key ≠ other ∧ start.Holds log other found := by
    intro other found
    simp [holds_append_singleton, Touches, hstored, hfreed]
  have hoccupied : ∀ other ∈ (r.entries.erase key).keys,
      other ∈ r.entries.keys ∧ start.Occupied (log ++ [answered]) other := by
    intro other hother
    have hlookup := Keyed.lookup_erase h.nodup key other
    rw [← not_not (a := other ∈ _), ← Keyed.lookup_eq_none_iff, hlookup] at hother
    split_ifs at hother with heq
    · exact absurd rfl hother
    · obtain ⟨found, hfound⟩ := Option.ne_none_iff_exists'.mp hother
      have hheld := (h.holds other found).mp hfound
      exact ⟨(h.occupied_iff other).mp ⟨found, hheld⟩, found, (hholds other found).mpr ⟨heq, hheld⟩⟩
  refine ⟨h.formats, h.policy, Keyed.nodup_keys_erase h.nodup key, fun other found => ?_,
    fun other hother => ?_, ?_⟩
  · rw [hholds, Keyed.lookup_erase h.nodup]
    split_ifs with heq
    · simp [heq]
    · simp [heq, h.holds]
  · obtain ⟨hold, hheld⟩ := hoccupied other hother
    obtain ⟨n, hn⟩ := h.since other hold
    exact ⟨n, hn.append hheld⟩
  · have hsub := (r.entries.erase_sublist key).map Prod.fst
    refine (h.ordered.sublist hsub).imp_of_mem fun ha hb hbefore => ?_
    obtain ⟨m, n, hm, hn, hlt⟩ := hbefore
    exact ⟨m, n, hm.append (hoccupied _ ha).2, hn.append (hoccupied _ hb).2, hlt⟩

/-- **One call** is recalled by the registry after it. -/
theorem serve (h : start.Recalls log r) (call : RegistryCall α) :
    start.Recalls (log ++ [(call, (r.serve call).2)]) (r.serve call).1 := by
  cases call with
  | register category typeName value =>
      rw [Registry.serve]
      cases hregister : r.register category typeName value with
      | error e => exact h.append_untouched rfl rfl
      | ok result =>
          obtain ⟨outcome, stored⟩ := result
          obtain ⟨name, hname, hstored⟩ := register_eq_ok hregister
          dsimp only at hstored ⊢
          rw [hstored]
          refine h.append_stored ?_ rfl
          rw [stored?, ← h.key?_eq, key?, hname]
          rfl
  | unregister category typeName =>
      rw [Registry.serve, unregister]
      cases hname : r.className category typeName with
      | error e =>
          refine h.append_untouched rfl ?_
          rw [freed?, ← h.key?_eq, key?, hname]
          rfl
      | ok name =>
          refine h.append_freed rfl ?_
          rw [freed?, ← h.key?_eq, key?, hname]
          rfl
  | resolve | contains | list | count => exact h.append_untouched rfl rfl

end Recalls

lemma recalls_run (start : Registry α) (hempty : start.entries = [])
    (calls : List (RegistryCall α)) :
    start.Recalls (start.log calls) (start.run calls) := by
  induction calls using List.reverseRecOn with
  | nil =>
      refine ⟨rfl, rfl, ?_, fun key registration => ?_, ?_, ?_⟩
      · simp [run, hempty, Keyed.keys]
      · simp [run, log, hempty, not_holds_nil]
      · simp [run, hempty, Keyed.keys]
      · simp [run, hempty, Keyed.keys]
  | append_singleton calls call ih =>
      rw [log_append_singleton, run_append_singleton]
      exact ih.serve call

/-! ### The answers -/

/-- The answers of a registry, and what each call leaves, are told by the log that leads to it; the
class names are those of the registry that the log starts from. -/
structure Obeys (policy : RegistrationPolicy) (start : Registry α) (log : List (Answered α))
    (r : Registry α) : Prop where
  /-- A type is resolved to what was stored last under its class name. -/
  resolve_eq_ok : ∀ category typeName name registration,
    start.className category typeName = .ok name → start.Holds log (category, name) registration →
      r.resolve category typeName = .ok registration.stored
  resolve_eq_error : ∀ category typeName name, start.className category typeName = .ok name →
    ¬ start.Occupied log (category, name) →
      r.resolve category typeName = .error (.unknownType category typeName name)
  contains_eq : ∀ category typeName,
    r.contains category typeName = (r.resolve category typeName).isOk
  unregister_eq : ∀ category typeName,
    (r.unregister category typeName).1 = (r.resolve category typeName).toOption
  /-- A free key is taken. -/
  register_free : ∀ category typeName name value, start.className category typeName = .ok name →
    ¬ start.Occupied log (category, name) →
      (r.serve (.register category typeName value)).2 = .registered (.ok .inserted)
  /-- An occupied key is replaced, -/
  register_overwrite : policy = .overwrite → ∀ category typeName name value,
    start.className category typeName = .ok name → start.Occupied log (category, name) →
      (r.serve (.register category typeName value)).2 = .registered (.ok .replaced)
  /-- or the registration is refused and changes nothing, as the policy has it. -/
  register_strict : policy = .strict → ∀ category typeName name value,
    start.className category typeName = .ok name → start.Occupied log (category, name) →
      r.serve (.register category typeName value)
        = (r, .registered (.error (.duplicateRegistration category name)))
  /-- A type name that has no class name is refused everywhere. -/
  invalid : ∀ category typeName e, start.className category typeName = .error e →
    r.resolve category typeName = .error e ∧ r.unregister category typeName = (none, r)
      ∧ ∀ value, r.serve (.register category typeName value) = (r, .registered (.error e))
  /-- A call touches one key at most: all others are resolved as before, and are listed as before
  and in the same order. -/
  apart : ∀ call, let after := r.serve call
    (∀ category typeName name, start.className category typeName = .ok name →
        ¬ start.Touches (category, name) (call, after.2) →
        after.1.resolve category typeName = r.resolve category typeName)
      ∧ ∀ category key, (∀ other, start.Touches other (call, after.2) → other = key) →
        (after.1.registeredTypes category).filter (fun entry => (category, entry.className) ≠ key)
          = (r.registeredTypes category).filter fun entry => (category, entry.className) ≠ key
  /-- The size counts the occupied keys. -/
  size_eq : ∃ keys : Finset (Category × String),
    (∀ key, key ∈ keys ↔ start.Occupied log key) ∧ r.size = keys.card
  /-- What is listed is what holds the keys of the category, each under its last type name, -/
  mem_registeredTypes : ∀ category entry, entry ∈ r.registeredTypes category
    ↔ entry.category = category
      ∧ ∃ value, start.Holds log (category, entry.className) ⟨entry.typeName, value⟩
  /-- each once, -/
  registeredTypes_nodup : ∀ category,
    ((r.registeredTypes category).map RegisteredType.className).Nodup
  /-- and in the order in which the keys became occupied. -/
  registeredTypes_ordered : ∀ category, (r.registeredTypes category).Pairwise fun a b =>
    ∃ m n, start.OccupiedSince log (category, a.className) m
      ∧ start.OccupiedSince log (category, b.className) n ∧ m < n

lemma registeredTypes_eq (r : Registry α) (category : Category) :
    r.registeredTypes category = (r.entries.filter fun entry => entry.1.1 = category).map
      fun entry => ⟨category, entry.2.typeName, entry.1.2⟩ := by
  rw [registeredTypes]
  induction r.entries with
  | nil => rfl
  | cons entry rest ih => by_cases h : entry.1.1 = category <;> simp [ih, h]

/-- The keys of a category as they are listed. -/
lemma registeredTypes_map (r : Registry α) (category : Category) :
    (r.registeredTypes category).map (fun entry => (category, entry.className))
      = r.entries.keys.filter fun key => key.1 = category := by
  rw [registeredTypes_eq, List.map_map, Keyed.keys, List.filter_map]
  refine List.map_congr_left fun entry hentry => ?_
  have hcategory : entry.1.1 = category := by simpa using (List.mem_filter.mp hentry).2
  simp [← hcategory]

/-- Where the entries under other keys are the same, so are their listings. -/
lemma registeredTypes_filter {r u : Registry α} {key : Category × String}
    (h : u.entries.filter (fun entry => entry.1 ≠ key)
      = r.entries.filter fun entry => entry.1 ≠ key) (category : Category) :
    (u.registeredTypes category).filter (fun entry => (category, entry.className) ≠ key)
      = (r.registeredTypes category).filter fun entry => (category, entry.className) ≠ key := by
  have hfilter : ∀ t : Registry α,
      (t.registeredTypes category).filter (fun entry => (category, entry.className) ≠ key)
        = ((t.entries.filter fun entry => entry.1 ≠ key).filter
            fun entry => entry.1.1 = category).map
          fun entry => ⟨category, entry.2.typeName, entry.1.2⟩ := by
    intro t
    rw [registeredTypes_eq, List.filter_map, List.filter_filter, List.filter_filter]
    congr 1
    refine List.filter_congr fun entry _ => ?_
    by_cases hcategory : entry.1.1 = category
    · simp [← hcategory]
    · simp [hcategory]
  rw [hfilter, hfilter, h]

namespace Recalls

variable {start r : Registry α} {log : List (Answered α)}

lemma resolve_eq (h : start.Recalls log r) {category : Category} {typeName name : String}
    (hname : start.className category typeName = .ok name) :
    r.resolve category typeName = match r.entries.lookup (category, name) with
      | some registration => .ok registration.stored
      | none => .error (.unknownType category typeName name) := by
  have hclass : r.className category typeName = .ok name := (h.className_eq ..).trans hname
  cases hfound : r.entries.lookup (category, name) <;> simp [Registry.resolve, hclass, hfound]

lemma register_eq (h : start.Recalls log r) {category : Category} {typeName name : String}
    (hname : start.className category typeName = .ok name) (value : α) :
    r.register category typeName value
      = if r.entries.contains (category, name) then
          match r.policy with
          | .strict => .error (.duplicateRegistration category name)
          | .overwrite => .ok (.replaced,
              { r with entries := r.entries.insert (category, name) ⟨Text.trim typeName, value⟩ })
        else .ok (.inserted,
          { r with entries := r.entries.insert (category, name) ⟨Text.trim typeName, value⟩ }) := by
  have hclass : r.className category typeName = .ok name := (h.className_eq ..).trans hname
  split_ifs with hcontains
  · cases hpolicy : r.policy <;> simp [register, hclass, hcontains, hpolicy]
  · simp [register, hclass, hcontains]

/-- What a call does to the entries: nothing, or it stores or frees the key that it touches. -/
lemma serve_cases (h : start.Recalls log r) (call : RegistryCall α) :
    (r.serve call).1 = r
      ∨ ∃ key, start.Touches key (call, (r.serve call).2)
        ∧ ((∃ registration, (r.serve call).1
              = { r with entries := r.entries.insert key registration })
          ∨ (r.serve call).1 = { r with entries := r.entries.erase key }) := by
  cases call with
  | register category typeName value =>
      rw [Registry.serve]
      cases hregister : r.register category typeName value with
      | error e => exact .inl rfl
      | ok result =>
          obtain ⟨outcome, stored⟩ := result
          obtain ⟨name, hname, hstored⟩ := register_eq_ok hregister
          refine .inr ⟨(category, name), .inl ?_, .inl ⟨_, hstored⟩⟩
          rw [stored?, ← h.key?_eq, key?, hname]
          rfl
  | unregister category typeName =>
      rw [Registry.serve, unregister]
      cases hname : r.className category typeName with
      | error e => exact .inl rfl
      | ok name =>
          refine .inr ⟨(category, name), .inr ?_, .inr rfl⟩
          rw [freed?, ← h.key?_eq, key?, hname]
          rfl
  | resolve | contains | list | count => exact .inl rfl

/-- A call leaves the entries under all keys alone but for the one that it touches. -/
lemma serve_apart (h : start.Recalls log r) (call : RegistryCall α) {key : Category × String}
    (hkey : ∀ other, start.Touches other (call, (r.serve call).2) → other = key) :
    (r.serve call).1.entries.filter (fun entry => entry.1 ≠ key)
      = r.entries.filter fun entry => entry.1 ≠ key := by
  obtain hsame | ⟨touched, htouched, ⟨registration, hstored⟩ | hfreed⟩ := h.serve_cases call
  · rw [hsame]
  · rw [hstored, hkey touched htouched]
    exact Keyed.filter_insert r.entries key registration
  · rw [hfreed, hkey touched htouched]
    exact Keyed.filter_erase r.entries key

lemma serve_lookup (h : start.Recalls log r) (call : RegistryCall α) {key : Category × String}
    (hkey : ¬ start.Touches key (call, (r.serve call).2)) :
    (r.serve call).1.entries.lookup key = r.entries.lookup key := by
  obtain hsame | ⟨touched, htouched, ⟨registration, hstored⟩ | hfreed⟩ := h.serve_cases call
  · rw [hsame]
  · rw [hstored]
    exact Keyed.lookup_insert_of_ne r.entries registration fun heq => hkey (heq ▸ htouched)
  · rw [hfreed]
    exact Keyed.lookup_erase_of_ne r.entries fun heq => hkey (heq ▸ htouched)

/-- **The answers** of a registry that recalls its log. -/
theorem obeys (h : start.Recalls log r) : start.Obeys start.policy log r where
  resolve_eq_ok category typeName name registration hname hheld := by
    rw [h.resolve_eq hname, (h.holds _ _).mpr hheld]
  resolve_eq_error category typeName name hname hfree := by
    have hnone : r.entries.lookup (category, name) = none :=
      (Keyed.lookup_eq_none_iff _ _).mpr fun hmem => hfree ((h.occupied_iff _).mpr hmem)
    rw [h.resolve_eq hname, hnone]
  contains_eq category typeName := by
    rw [contains]
    cases r.resolve category typeName <;> rfl
  unregister_eq category typeName := by
    rw [unregister, Registry.resolve]
    cases r.className category typeName with
    | error e => rfl
    | ok name =>
        dsimp only
        cases r.entries.lookup (category, name) <;> rfl
  register_free category typeName name value hname hfree := by
    rw [Registry.serve, h.register_eq hname,
      if_neg fun hmem => hfree ((h.contains_iff _).mp hmem)]
  register_overwrite hpolicy category typeName name value hname hheld := by
    rw [Registry.serve, h.register_eq hname, if_pos ((h.contains_iff _).mpr hheld), h.policy,
      hpolicy]
  register_strict hpolicy category typeName name value hname hheld := by
    rw [Registry.serve, h.register_eq hname, if_pos ((h.contains_iff _).mpr hheld), h.policy,
      hpolicy]
  invalid category typeName e he := by
    rw [← h.className_eq] at he
    refine ⟨?_, ?_, fun value => ?_⟩
    · rw [Registry.resolve, he]
    · rw [unregister, he]
    · rw [Registry.serve, register, he]
  apart call := by
    refine ⟨fun category typeName name hname huntouched => ?_, fun category key hkey => ?_⟩
    · rw [(h.serve call).resolve_eq hname, h.resolve_eq hname, h.serve_lookup call huntouched]
    · exact registeredTypes_filter (h.serve_apart call hkey) category
  size_eq := by
    refine ⟨r.entries.keys.toFinset, fun key => ?_, ?_⟩
    · rw [List.mem_toFinset, h.occupied_iff]
    · rw [List.toFinset_card_of_nodup h.nodup, Keyed.keys, List.length_map, size]
  mem_registeredTypes category entry := by
    rw [registeredTypes, List.mem_filterMap]
    constructor
    · rintro ⟨⟨⟨known, name⟩, registration⟩, hmem, hentry⟩
      have hlookup := Keyed.lookup_of_mem h.nodup hmem
      split_ifs at hentry with hcategory
      cases hentry
      exact ⟨rfl, registration.stored, (h.holds _ _).mp (hcategory ▸ hlookup)⟩
    · rintro ⟨rfl, value, hheld⟩
      exact ⟨_, Keyed.mem_of_lookup ((h.holds _ _).mpr hheld), by simp⟩
  registeredTypes_nodup category := by
    have hkeys : ((r.registeredTypes category).map
        fun entry => (category, entry.className)).Nodup := by
      rw [registeredTypes_map]
      exact h.nodup.filter _
    rw [show (fun entry : RegisteredType => (category, entry.className))
      = Prod.mk category ∘ RegisteredType.className from rfl, ← List.map_map] at hkeys
    exact hkeys.of_map
  registeredTypes_ordered category := by
    have hkeys := h.ordered.filter fun key => key.1 = category
    rw [← registeredTypes_map] at hkeys
    exact List.pairwise_map.mp hkeys

end Recalls

/-! ### Configured registries -/

/-- Formats that can be read are taken over, and nothing else changes. -/
lemma withFormats_eq_ok (r : Registry α) {formats : Keyed Category String}
    (h : ∀ entry ∈ formats, (ClassNameFormat.ofText? entry.2).isSome) :
    ∃ u, r.withFormats formats = .ok u ∧ u.policy = r.policy ∧ u.entries = r.entries := by
  induction formats generalizing r with
  | nil => exact ⟨r, rfl, rfl, rfl⟩
  | cons entry rest ih =>
      obtain ⟨category, raw⟩ := entry
      obtain ⟨format, hformat⟩ := Option.isSome_iff_exists.mp (h _ List.mem_cons_self)
      obtain ⟨u, hu, hpolicy, hentries⟩ :=
        ih { r with formats := r.formats.insert category format }
          fun entry hentry => h entry (List.mem_cons_of_mem _ hentry)
      refine ⟨u, ?_, hpolicy, hentries⟩
      rw [withFormats]
      dsimp only at hformat
      rw [hformat]
      exact hu

/-- **A registry is a keyed map with its policy.**  Where the formats of a configuration can be read
there is a registry with them, and after every history of calls its answers are those that the log
tells. -/
theorem ofConfig_obeys {α : Type} (config : RegistryConfig)
    (h : ∀ entry ∈ config.classNameFormats, (ClassNameFormat.ofText? entry.2).isSome) :
    ∃ start : Registry α, ofConfig config = .ok start
      ∧ ∀ calls, start.Obeys config.policy (start.log calls) (start.run calls) := by
  obtain ⟨start, hstart, hpolicy, hentries⟩ := (empty (α := α) config.policy).withFormats_eq_ok h
  refine ⟨start, hstart, fun calls => ?_⟩
  have hrecalls := start.recalls_run hentries calls
  rw [← show start.policy = config.policy from hpolicy]
  exact hrecalls.obeys

/-- A configuration with a format of its own for controls. -/
def relabelled : RegistryConfig where
  classNameFormats := [(.control, "My\x7b\x7dWidget")]

/-- One control is registered under two spellings of its name, the other one again after it was
removed. -/
def registrations : List (RegistryCall Nat) :=
  [.register .control "button" 1, .register .control "text_input" 2, .unregister .control "button",
    .register .control "TextInput" 3, .register .control " button " 4]

/-- The first control has kept its place and shows its last name; the other one has moved behind
it. -/
theorem ofConfig_obeys_relabelled :
    (∀ entry ∈ relabelled.classNameFormats, (ClassNameFormat.ofText? entry.2).isSome)
      ∧ ∃ start : Registry Nat, ofConfig relabelled = .ok start
        ∧ start.Obeys .overwrite (start.log registrations) (start.run registrations)
        ∧ (start.run registrations).resolve .control "text-input" = .ok 3
        ∧ start.Holds (start.log registrations) (.control, "MyTextInputWidget") ⟨"TextInput", 3⟩
        ∧ (start.run registrations).registeredTypes .control
          = [⟨.control, "TextInput", "MyTextInputWidget"⟩,
            ⟨.control, "button", "MyButtonWidget"⟩] := by
  have hformats : ∀ entry ∈ relabelled.classNameFormats,
      (ClassNameFormat.ofText? entry.2).isSome := by decide +kernel
  obtain ⟨start, hstart, hobeys⟩ := (ofConfig_obeys relabelled hformats :
    ∃ start : Registry Nat, ofConfig relabelled = .ok start
      ∧ ∀ calls, start.Obeys .overwrite (start.log calls) (start.run calls))
  have hfinal : (ofConfig relabelled).toOption.map (fun start : Registry Nat =>
      ((start.className .control "text-input").toOption,
        ((start.run registrations).resolve .control "text-input").toOption,
        (start.run registrations).registeredTypes .control))
      = some (some "MyTextInputWidget", some 3,
        [⟨.control, "TextInput", "MyTextInputWidget"⟩,
          ⟨.control, "button", "MyButtonWidget"⟩]) := by
    decide +kernel
  rw [hstart] at hfinal
  simp only [Except.toOption, Option.map_some, Option.some.injEq, Prod.mk.injEq] at hfinal
  obtain ⟨hname, hresolve, hlisted⟩ := hfinal
  have hname : start.className .control "text-input" = .ok "MyTextInputWidget" := by
    split at hname <;> simp_all
  have hresolve : (start.run registrations).resolve .control "text-input" = .ok 3 := by
    split at hresolve <;> simp_all
  obtain ⟨-, value, hheld⟩ := ((hobeys registrations).mem_registeredTypes .control
    ⟨.control, "TextInput", "MyTextInputWidget"⟩).mp (by rw [hlisted]; exact List.mem_cons_self)
  have hvalue := (hobeys registrations).resolve_eq_ok .control "text-input" _ _ hname hheld
  rw [hresolve] at hvalue
  cases hvalue
  exact ⟨hformats, start, hstart, hobeys registrations, hresolve, hheld, hlisted⟩

end Registry

end Componentry
