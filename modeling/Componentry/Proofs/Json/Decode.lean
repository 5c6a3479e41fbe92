import Mathlib.Tactic
import Componentry.Json.Decode
import Componentry.Proofs.Keyed
/-!
# Reading what was written

The decoders read back what the JSON forms are made of: a record without repeated members
(`fields_object`), a natural number below the limit (`natBelow_int`), and a map, of which the repeated
keys collapse (`keyed_object`).
-/

namespace Componentry.Decoder

variable {α β : Type}

lemma mapM_eq_some {f : α → Option β} {g : α → β} {l : List α} (h : ∀ x ∈ l, f x = some (g x)) :
    l.mapM f = some (l.map g) := by
  induction l with
  | nil => rfl
  | cons x rest ih =>
      rw [List.mapM_cons, h x List.mem_cons_self, ih fun y hy => h y (List.mem_cons_of_mem x hy)]
      rfl

/-! ### Records -/

/-- An object without repeated members is read as a record, whatever its fields are. -/
lemma fields_object (names : List String) {members : Attributes} (h : members.keys.Nodup) :
    fields names (.object members) = some members := by
  rw [fields, if_pos]
  simp only [List.all_eq_true, decide_eq_true_eq]
  intro name _
  have hcount := List.nodup_iff_count_le_one.mp h name
  rwa [Keyed.keys, List.count, List.countP_map, List.countP_eq_length_filter] at hcount

lemma required_eq_some {r : Keyed String Json} {key : String} {decode : Decoder β} {v : Json} {x : β}
    (hr : r.lookup key = some v) (hv : decode v = some x) : required r key decode = some x := by
  rw [required, hr, Option.bind_some, hv]

lemma optional_of_lookup {r : Keyed String Json} {key : String} {decode : Decoder β} {default : β}
    {v : Json} (hr : r.lookup key = some v) : optional r key decode default = decode v := by
  rw [optional, hr]

lemma optional_eq_some {r : Keyed String Json} {key : String} {decode : Decoder β} {default x : β}
    {v : Json} (hr : r.lookup key = some v) (hv : decode v = some x) :
    optional r key decode default = some x :=
  (optional_of_lookup hr).trans hv

/-! ### Values -/

lemma string_string (s : String) : string (.string s) = some s := rfl

lemma natBelow_int (limit n : Nat) :
    natBelow limit (.number (.int n)) = if n < limit then some n else none := by
  have hnat : Number.toNat? (.int (n : Int)) = some n := rfl
  rw [natBelow, hnat, Option.filter_some]
  simp

/-- A map is read with its keys and values, in order; repeated keys collapse. -/
lemma keyed_object {κ : Type} [DecidableEq κ] {key : String → Option κ} {decode : Decoder α}
    {spell : κ → String} {write : α → Json} (hkey : ∀ k, key (spell k) = some k)
    (hvalue : ∀ x, decode (write x) = some x) (entries : Keyed κ α) :
    keyed key decode (.object (entries.map fun entry => (spell entry.1, write entry.2)))
      = some (Keyed.ofList entries) := by
  have hentries : (entries.map fun entry => (spell entry.1, write entry.2)).mapM
      (fun member => do return (← key member.1, ← decode member.2)) = some entries := by
    rw [List.mapM_map]
    refine (mapM_eq_some (g := fun entry => entry) fun entry _ => ?_).trans ?_
    · simp [hkey, hvalue]
    · rw [List.map_id']
  rw [keyed, hentries]
  rfl

lemma keyed_mapValues {decode : Decoder α} {write : α → Json}
    (h : ∀ x, decode (write x) = some x) (entries : Keyed String α) :
    keyed some decode (.object (entries.mapValues write)) = some (Keyed.ofList entries) := by
  have hobject : keyed some decode (.object (entries.map fun entry => (id entry.1, write entry.2)))
      = some (Keyed.ofList entries) := keyed_object (fun _ => rfl) h entries
  exact hobject

lemma attributes_object (entries : Attributes) :
    attributes (.object entries) = some (Keyed.ofList entries) := by
  have hvalues : entries.mapValues id = entries := List.map_id' entries
  have hobject : keyed some any (.object (entries.mapValues id)) = some (Keyed.ofList entries) :=
    keyed_mapValues (fun _ => rfl) entries
  rwa [hvalues] at hobject

end Componentry.Decoder
