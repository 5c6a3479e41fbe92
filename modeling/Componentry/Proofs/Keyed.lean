import Mathlib.Tactic
import Componentry.Keyed
/-!
# More on keyed lists

What the build and the sessions need beside the lemmas of `Keyed`: a key is present exactly when it
is among the keys, what is found under a key is an entry (`mem_of_lookup`), every entry is found if
no key is there twice (`lookup_of_mem`), `insertNew` changes the view at a new key only
(`lookup_insertNew`) and adds one entry at most (`mem_insertNew`), what is stored already is not
stored again (`insert_eq_self`, `insertNew_eq_self`), what is removed is gone (`lookup_erase`), the
entries under other keys stay in their order (`filter_insert`, `filter_erase`), lists are looked up
one after the other (`lookup_append`) and by selected keys (`lookup_filter`), a function on the
values goes with looking up and with storing (`lookup_mapValues`, `mapValues_insert`), a sum over
all entries changes by what changes under one key (`sum_insert`), and a list without repeated keys
collapses to itself (`ofList_eq_self`), which no other does (`ofList_eq_self_iff`).
-/

namespace Componentry.Keyed

variable {κ α : Type} [DecidableEq κ]

lemma lookup_eq_none_iff (entries : Keyed κ α) (key : κ) :
    entries.lookup key = none ↔ key ∉ entries.keys := by
  induction entries with
  | nil => simp [keys]
  | cons entry rest ih =>
      obtain ⟨k, v⟩ := entry
      by_cases h : k = key
      · simp [lookup, keys, h]
      · have h' : key ≠ k := fun e => h e.symm
        simpa [lookup, keys, h, h'] using ih

lemma mem_keys_of_contains {entries : Keyed κ α} {key : κ} (h : entries.contains key = true) :
    key ∈ entries.keys := by
  by_contra hne
  rw [contains, (lookup_eq_none_iff entries key).mpr hne] at h
  exact absurd h (by simp)

lemma mem_of_lookup {entries : Keyed κ α} {key : κ} {value : α}
    (h : entries.lookup key = some value) : (key, value) ∈ entries := by
  induction entries with
  | nil => simp [lookup] at h
  | cons entry rest ih =>
      obtain ⟨k, v⟩ := entry
      rw [lookup] at h
      split_ifs at h with hk
      · cases h
        rw [hk]
        exact List.mem_cons_self
      · exact List.mem_cons_of_mem _ (ih h)

/-- Without repeated keys every entry is found under its key. -/
lemma lookup_of_mem {entries : Keyed κ α} (h : entries.keys.Nodup) {entry : κ × α}
    (hmem : entry ∈ entries) : entries.lookup entry.1 = some entry.2 := by
  induction entries with
  | nil => simp at hmem
  | cons first rest ih =>
      obtain ⟨k, v⟩ := first
      simp only [keys, List.map_cons, List.nodup_cons] at h
      obtain rfl | hrest := List.mem_cons.mp hmem
      · simp [lookup]
      · have hne : k ≠ entry.1 := fun heq => h.1 (heq ▸ List.mem_map_of_mem hrest)
        rw [lookup, if_neg hne]
        exact ih h.2 hrest

/-- A new value is seen under its own key only. -/
lemma lookup_insert (entries : Keyed κ α) (key other : κ) (value : α) :
    (entries.insert key value).lookup other
      = if key = other then some value else entries.lookup other := by
  split_ifs with h
  · rw [h, lookup_insert_self]
  · exact lookup_insert_of_ne entries value h

/-- A known key keeps its value, a new one gets the given value. -/
lemma lookup_insertNew (entries : Keyed κ α) (key other : κ) (value : α) :
    (entries.insertNew key value).lookup other
      = if entries.lookup key = none ∧ key = other then some value else entries.lookup other := by
  rw [insertNew]
  cases h : entries.lookup key with
  | some v => simp
  | none => simp [lookup_insert]

lemma mem_insert {entries : Keyed κ α} {key : κ} {value : α} {entry : κ × α}
    (h : entry ∈ entries.insert key value) : entry ∈ entries ∨ entry.2 = value := by
  induction entries with
  | nil =>
      rw [List.mem_singleton.mp h]
      exact .inr rfl
  | cons first rest ih =>
      obtain ⟨k, v⟩ := first
      rw [insert] at h
      split_ifs at h
      · obtain rfl | h := List.mem_cons.mp h
        · exact .inr rfl
        · exact .inl (List.mem_cons_of_mem _ h)
      · obtain rfl | h := List.mem_cons.mp h
        · exact .inl List.mem_cons_self
        · exact (ih h).imp_left (List.mem_cons_of_mem _)

/-- An entry was there before, or it has the new value. -/
lemma mem_insertNew {entries : Keyed κ α} {key : κ} {value : α} {entry : κ × α}
    (h : entry ∈ entries.insertNew key value) : entry ∈ entries ∨ entry.2 = value := by
  rw [insertNew] at h
  split at h
  · exact .inl h
  · exact mem_insert h

lemma erase_sublist (entries : Keyed κ α) (key : κ) : (entries.erase key).Sublist entries := by
  induction entries with
  | nil => exact .slnil
  | cons entry rest ih =>
      obtain ⟨k, v⟩ := entry
      rw [erase]
      split_ifs
      · exact List.sublist_cons_self _ _
      · exact ih.cons_cons _

lemma nodup_keys_erase {entries : Keyed κ α} (h : entries.keys.Nodup) (key : κ) :
    (entries.erase key).keys.Nodup :=
  h.sublist ((entries.erase_sublist key).map Prod.fst)

lemma nodup_keys_insert {entries : Keyed κ α} (h : entries.keys.Nodup) (key : κ) (value : α) :
    (entries.insert key value).keys.Nodup := by
  rw [keys_insert]
  split_ifs with hmem
  · exact h
  · refine h.append (List.nodup_singleton _) fun other hother hkey => hmem ?_
    rwa [List.mem_singleton.mp hkey] at hother

lemma nodup_keys_insertNew {entries : Keyed κ α} (h : entries.keys.Nodup) (key : κ) (value : α) :
    (entries.insertNew key value).keys.Nodup := by
  rw [insertNew]
  split
  · exact h
  · exact nodup_keys_insert h key value

lemma nodup_keys_extend {entries : Keyed κ α} (h : entries.keys.Nodup) (more : Keyed κ α) :
    (entries.extend more).keys.Nodup := by
  induction more generalizing entries with
  | nil => exact h
  | cons entry rest ih => exact ih (nodup_keys_insert h entry.1 entry.2)

/-- A new key goes to the end. -/
lemma insert_of_notMem {entries : Keyed κ α} {key : κ} (h : key ∉ entries.keys) (value : α) :
    entries.insert key value = entries ++ [(key, value)] := by
  induction entries with
  | nil => rfl
  | cons entry rest ih =>
      obtain ⟨k, v⟩ := entry
      simp only [keys, List.map_cons, List.mem_cons, not_or] at h
      rw [insert, if_neg (Ne.symm h.1), ih h.2, List.cons_append]

/-- Of the entries of two lists those of the second win, and of two entries of one list the later. -/
lemma lookup_extend (entries more : Keyed κ α) (key : κ) :
    (entries.extend more).lookup key = ((ofList more).lookup key).or (entries.lookup key) := by
  induction more using List.reverseRecOn with
  | nil => rfl
  | append_singleton more entry ih =>
      have happend : ∀ start : Keyed κ α,
          start.extend (more ++ [entry]) = (start.extend more).insert entry.1 entry.2 := fun start => by
        rw [extend, List.foldl_append]
        rfl
      rw [ofList, happend, happend, lookup_insert, lookup_insert, ih]
      split_ifs <;> rfl

/-- Every key has the place of its first entry. -/
lemma keys_ofList (entries : Keyed κ α) : (ofList entries).keys = entries.keys.eraseDups := by
  induction entries using List.reverseRecOn with
  | nil => rfl
  | append_singleton entries entry ih =>
      have happend : ofList (entries ++ [entry]) = (ofList entries).insert entry.1 entry.2 := by
        rw [ofList, extend, List.foldl_append]
        rfl
      have hkeys : keys (entries ++ [entry]) = keys entries ++ [entry.1] := List.map_append
      rw [happend, keys_insert, ih, hkeys, List.eraseDups_append, List.removeAll]
      by_cases hmem : entry.1 ∈ keys entries
      · simp [hmem]
      · simp [hmem, List.eraseDups_cons]

/-- Lists that are merged one after the other are merged as one list. -/
lemma foldl_extend (layers : List (Keyed κ α)) (start : Keyed κ α) :
    layers.foldl extend start = start.extend layers.flatten := by
  induction layers generalizing start with
  | nil => rfl
  | cons layer rest ih =>
      rw [List.foldl_cons, ih, List.flatten_cons, extend, extend, extend, List.foldl_append]

/-- What the last list says that knows a key. -/
lemma lookup_ofList_flatten (layers : List (Keyed κ α)) (key : κ) :
    (ofList layers.flatten).lookup key
      = layers.reverse.findSome? fun layer => (ofList layer).lookup key := by
  induction layers using List.reverseRecOn with
  | nil => rfl
  | append_singleton layers layer ih =>
      have happend : ofList (layers ++ [layer]).flatten = (ofList layers.flatten).extend layer := by
        rw [List.flatten_append, List.flatten_singleton, ofList, ofList, extend, extend, extend,
          List.foldl_append]
      rw [happend, lookup_extend, ih, List.reverse_append, List.reverse_singleton,
        List.singleton_append, List.findSome?_cons]
      cases (ofList layer).lookup key <;> rfl

/-- New keys go to the end in their order. -/
lemma extend_eq_append {entries more : Keyed κ α} (h : (entries ++ more).keys.Nodup) :
    entries.extend more = entries ++ more := by
  induction more generalizing entries with
  | nil => simp [extend]
  | cons entry rest ih =>
      obtain ⟨key, value⟩ := entry
      have hnew : key ∉ entries.keys := fun hmem => by
        simp only [keys, List.map_append, List.map_cons] at h hmem
        exact (List.nodup_append.mp h).2.2 key hmem key List.mem_cons_self rfl
      have hinsert := insert_of_notMem hnew value
      have hassoc : entries ++ (key, value) :: rest = (entries ++ [(key, value)]) ++ rest := by simp
      rw [hassoc] at h ⊢
      rw [← ih h, ← hinsert]
      rfl

/-- Without repeated keys nothing collapses. -/
lemma ofList_eq_self {entries : Keyed κ α} (h : entries.keys.Nodup) : ofList entries = entries := by
  rw [ofList, extend_eq_append (by simpa using h), List.nil_append]

/-- Only lists with repeated keys collapse to others. -/
lemma ofList_eq_self_iff {entries : Keyed κ α} : ofList entries = entries ↔ entries.keys.Nodup := by
  have hnil : (keys ([] : Keyed κ α)).Nodup := List.nodup_nil
  refine ⟨fun h => ?_, ofList_eq_self⟩
  rw [← h]
  exact nodup_keys_extend hnil entries

/-- Without repeated keys a key that has been removed is gone. -/
lemma lookup_erase {entries : Keyed κ α} (h : entries.keys.Nodup) (key other : κ) :
    (entries.erase key).lookup other = if key = other then none else entries.lookup other := by
  split_ifs with heq
  · subst heq
    induction entries with
    | nil => rfl
    | cons entry rest ih =>
        obtain ⟨k, v⟩ := entry
        obtain ⟨hfirst, hrest⟩ := List.nodup_cons.mp h
        rw [erase]
        split_ifs with hk
        · exact (lookup_eq_none_iff rest key).mpr (hk ▸ hfirst)
        · rw [lookup, if_neg hk, ih hrest]
  · exact entries.lookup_erase_of_ne heq

lemma list_lookup_eq (entries : Keyed κ α) (key : κ) :
    List.lookup key entries = entries.lookup key := by
  induction entries with
  | nil => rfl
  | cons entry rest ih =>
      obtain ⟨k, v⟩ := entry
      rw [List.lookup_cons, lookup, ih]
      by_cases h : k = key
      · simp [h]
      · have h' : (key == k) = false := by simpa using Ne.symm h
        rw [h', if_neg h]

/-- The entries that come first count. -/
lemma lookup_append (entries more : Keyed κ α) (key : κ) :
    Keyed.lookup (entries ++ more) key = (entries.lookup key).or (more.lookup key) := by
  induction entries with
  | nil => rfl
  | cons entry rest ih =>
      obtain ⟨k, v⟩ := entry
      simp only [List.cons_append, lookup, ih]
      split_ifs <;> rfl

/-- A selection of keys. -/
lemma lookup_filter (entries : Keyed κ α) (p : κ → Prop) [DecidablePred p] (key : κ) :
    Keyed.lookup (entries.filter fun entry => p entry.1) key
      = if p key then entries.lookup key else none := by
  induction entries with
  | nil => simp
  | cons entry rest ih =>
      obtain ⟨k, v⟩ := entry
      by_cases hk : p k
      · rw [List.filter_cons_of_pos (by simpa using hk), lookup, lookup, ih]
        by_cases heq : k = key
        · rw [if_pos heq, if_pos heq, if_pos (heq ▸ hk)]
        · rw [if_neg heq, if_neg heq]
      · rw [List.filter_cons_of_neg (by simpa using hk), ih, lookup]
        by_cases heq : k = key
        · rw [if_neg (heq ▸ hk), if_neg (heq ▸ hk)]
        · rw [if_neg heq]

/-- Storing leaves the entries under other keys alone, and their order. -/
lemma filter_insert (entries : Keyed κ α) (key : κ) (value : α) :
    (entries.insert key value).filter (fun entry => entry.1 ≠ key)
      = entries.filter fun entry => entry.1 ≠ key := by
  induction entries with
  | nil => simp [insert]
  | cons entry rest ih =>
      obtain ⟨k, v⟩ := entry
      rw [insert]
      split_ifs with hk
      · simp [hk]
      · simp only [List.filter_cons, ih]

/-- Removing leaves the entries under other keys alone, and their order. -/
lemma filter_erase (entries : Keyed κ α) (key : κ) :
    (entries.erase key).filter (fun entry => entry.1 ≠ key)
      = entries.filter fun entry => entry.1 ≠ key := by
  induction entries with
  | nil => rfl
  | cons entry rest ih =>
      obtain ⟨k, v⟩ := entry
      rw [erase]
      split_ifs with hk
      · simp [hk]
      · simp only [List.filter_cons, ih]

/-- Storing what is found under a key changes nothing, not even the order. -/
lemma insert_eq_self {entries : Keyed κ α} {key : κ} {value : α}
    (h : entries.lookup key = some value) : entries.insert key value = entries := by
  induction entries with
  | nil => simp at h
  | cons entry rest ih =>
      obtain ⟨k, v⟩ := entry
      rw [lookup] at h
      rw [insert]
      split_ifs at h ⊢ with hk
      · rw [Option.some.inj h]
      · rw [ih h]

/-- A key that is there keeps what it has. -/
lemma insertNew_eq_self {entries : Keyed κ α} {key : κ} (h : (entries.lookup key).isSome)
    (value : α) : entries.insertNew key value = entries := by
  obtain ⟨v, hv⟩ := Option.isSome_iff_exists.mp h
  rw [insertNew, hv]

/-- A key is there once something has been stored where it was missing. -/
lemma isSome_lookup_insertNew (entries : Keyed κ α) (key : κ) (value : α) :
    ((entries.insertNew key value).lookup key).isSome := by
  rw [lookup_insertNew]
  split_ifs with h
  · rfl
  · simpa [Option.isSome_iff_ne_none] using h

/-- A sum over the values changes by what changes under one key. -/
lemma sum_insert (weight : α → Nat) (entries : Keyed κ α) (key : κ) (value : α) :
    ((entries.insert key value).map fun entry => weight entry.2).sum
        + (entries.lookup key).elim 0 weight
      = (entries.map fun entry => weight entry.2).sum + weight value := by
  induction entries with
  | nil => simp [insert]
  | cons entry rest ih =>
      obtain ⟨k, v⟩ := entry
      by_cases h : k = key
      · simp only [insert, lookup, h, if_true, List.map_cons, List.sum_cons, Option.elim_some]
        omega
      · simp only [insert, lookup, h, if_false, List.map_cons, List.sum_cons]
        omega

/-! ### Mapped values -/

lemma lookup_mapValues {β : Type} (f : α → β) (entries : Keyed κ α) (key : κ) :
    (entries.mapValues f).lookup key = (entries.lookup key).map f := by
  induction entries with
  | nil => rfl
  | cons entry rest ih =>
      obtain ⟨k, v⟩ := entry
      have hmap : mapValues f ((k, v) :: rest) = (k, f v) :: mapValues f rest := rfl
      rw [hmap, lookup, lookup, ih]
      split_ifs <;> rfl

lemma mapValues_insert {β : Type} (f : α → β) (entries : Keyed κ α) (key : κ) (value : α) :
    (entries.insert key value).mapValues f = (entries.mapValues f).insert key (f value) := by
  induction entries with
  | nil => rfl
  | cons entry rest ih =>
      obtain ⟨k, v⟩ := entry
      have hmap : mapValues f ((k, v) :: rest) = (k, f v) :: mapValues f rest := rfl
      rw [hmap, insert, insert]
      split_ifs
      · rfl
      · rw [← ih]
        rfl

end Componentry.Keyed
