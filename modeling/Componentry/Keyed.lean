/-!
# Keyed lists: maps that remember insertion order

A document's objects, the attribute maps built from them and the type registry are all maps whose
entries keep the place where their key first appeared.  `Keyed κ α` is the list of those entries.
`insert` overwrites in place or appends, `erase` closes the gap, and `extend` inserts the entries
of a second list one after the other; `lookup` is the view through which the rest of the library
reads such a list.

The lemmas at the end say what each operation does to that view and to the keys.
-/

namespace Componentry

/-- Entries in insertion order. -/
abbrev Keyed (κ : Type) (α : Type) : Type := List (κ × α)

namespace Keyed

variable {κ α β : Type} [DecidableEq κ]

/-- The value stored under a key, if any. -/
def lookup : Keyed κ α → κ → Option α
  | [], _ => none
  | (k, v) :: rest, key => if k = key then some v else lookup rest key

/-- Stores a value: a known key keeps its place, a new one goes to the end. -/
def insert : Keyed κ α → κ → α → Keyed κ α
  | [], key, value => [(key, value)]
  | (k, v) :: rest, key, value =>
    if k = key then (k, value) :: rest else (k, v) :: insert rest key value

/-- Removes a key; the entries behind it move up. -/
def erase : Keyed κ α → κ → Keyed κ α
  | [], _ => []
  | (k, v) :: rest, key => if k = key then rest else (k, v) :: erase rest key

/-- Inserts the given entries in order, so that later ones win. -/
def extend (entries : Keyed κ α) (more : Keyed κ α) : Keyed κ α :=
  more.foldl (fun entries entry => insert entries entry.1 entry.2) entries

/-- Collapses repeated keys: the first place and the last value stay. -/
def ofList (entries : List (κ × α)) : Keyed κ α :=
  extend [] entries

/-- Stores a value only where the key is missing. -/
def insertNew (entries : Keyed κ α) (key : κ) (value : α) : Keyed κ α :=
  match lookup entries key with
  | some _ => entries
  | none => insert entries key value

/-- Whether a key is present. -/
def contains (entries : Keyed κ α) (key : κ) : Bool :=
  (lookup entries key).isSome

/-- The keys in order. -/
def keys (entries : Keyed κ α) : List κ :=
  entries.map Prod.fst

/-- Applies a function to every value and keeps keys and order. -/
def mapValues (f : α → β) (entries : Keyed κ α) : Keyed κ β :=
  entries.map fun entry => (entry.1, f entry.2)

/-! ### What the operations do to the view -/

@[simp] theorem lookup_nil (key : κ) : lookup ([] : Keyed κ α) key = none := rfl

@[simp] theorem lookup_insert_self (entries : Keyed κ α) (key : κ) (value : α) :
    (entries.insert key value).lookup key = some value := by
  induction entries with
  | nil => simp [insert, lookup]
  | cons entry rest ih =>
    obtain ⟨k, v⟩ := entry
    by_cases h : k = key <;> simp [insert, lookup, h, ih]

theorem lookup_insert_of_ne (entries : Keyed κ α) {key other : κ} (value : α)
    (h : key ≠ other) : (entries.insert key value).lookup other = entries.lookup other := by
  induction entries with
  | nil => simp [insert, lookup, h]
  | cons entry rest ih =>
    obtain ⟨k, v⟩ := entry
    by_cases hk : k = key
    · subst hk; simp [insert, lookup, h]
    · simp [insert, lookup, hk, ih]

theorem lookup_erase_of_ne (entries : Keyed κ α) {key other : κ} (h : key ≠ other) :
    (entries.erase key).lookup other = entries.lookup other := by
  induction entries with
  | nil => rfl
  | cons entry rest ih =>
    obtain ⟨k, v⟩ := entry
    by_cases hk : k = key
    · subst hk; simp [erase, lookup, h]
    · simp [erase, lookup, hk, ih]

theorem keys_insert (entries : Keyed κ α) (key : κ) (value : α) :
    (entries.insert key value).keys
      = if key ∈ entries.keys then entries.keys else entries.keys ++ [key] := by
  induction entries with
  | nil => simp [insert, keys]
  | cons entry rest ih =>
    obtain ⟨k, v⟩ := entry
    by_cases hk : k = key
    · subst hk; simp [insert, keys]
    · have hk' : ¬ key = k := fun h => hk h.symm
      simp only [keys, List.map_cons] at ih ⊢
      simp only [insert, hk, if_false, List.map_cons, List.mem_cons, hk', false_or]
      by_cases hm : key ∈ List.map Prod.fst rest <;> simp [hm, ih]

end Keyed

end Componentry
