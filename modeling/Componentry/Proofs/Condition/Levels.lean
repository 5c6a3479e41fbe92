import Mathlib.Tactic
import Componentry.Proofs.Condition.Reading
/-!
# The levels of a condition

The reader takes a text apart into shorter ones: the parts around a connective, or the inside of a
group.  Its fuel bounds how deep this goes, and since the texts get shorter the length of a text is
always enough (`node_eq_read`): `read` is the reader without fuel, and `read_of_parts` and
`read_of_core` are its equations.

`Level text level` says that the reader comes to a text on its way through another one.  A text
cannot be read if there is a level of it that cannot be read (`Level.failed`).
-/

namespace Componentry.Condition

open Position

/-! ### Where a text is cut -/

/-- The position behind a text. -/
def Position.after (p : Position) : List Char → Position
  | [] => p
  | c :: rest => ((p.mark? c).getD p).after rest

lemma Position.after_append (p : Position) (cs more : List Char) :
    p.after (cs ++ more) = (p.after cs).after more := by
  induction cs generalizing p with
  | nil => rfl
  | cons c rest ih => exact ih _

/-- Plain characters do not move a position. -/
lemma Position.after_of_plain (p : Position) {cs : List Char} (h : ∀ c ∈ cs, IsPlain c) :
    p.after cs = p := by
  induction cs generalizing p with
  | nil => rfl
  | cons c rest ih =>
      rw [after, mark?_plain (h c List.mem_cons_self), Option.getD_none]
      exact ih p fun c' hc' => h c' (List.mem_cons_of_mem c hc')

lemma Position.isTop_iff {p : Position} : p.isTop = true ↔ p = {} := by
  obtain ⟨single, double, depth⟩ := p
  simp [isTop, quoted, and_assoc]

/-- What a search finds in front of an operator and behind it makes up the text, and the search has
come to the operator at the top level. -/
lemma of_cutTopLevel {operator cs before after : List Char} {p : Position}
    (h : cutTopLevel operator p cs = some (before, after)) :
    cs = before ++ (operator ++ after) ∧ p.after before = {} := by
  induction cs generalizing p before with
  | nil => cases h
  | cons c rest ih =>
      have hskip : ∀ {q : Position}, (p.mark? c).getD p = q → (cutTopLevel operator q rest).map
          (fun parts => (c :: parts.1, parts.2)) = some (before, after) →
          c :: rest = before ++ (operator ++ after) ∧ p.after before = {} := by
        rintro q rfl hq
        obtain ⟨⟨inner, after'⟩, hinner, heq⟩ := Option.map_eq_some_iff.mp hq
        cases heq
        obtain ⟨hrest, htop⟩ := ih hinner
        exact ⟨by rw [hrest, List.cons_append], htop⟩
      rw [cutTopLevel] at h
      split at h
      · rename_i q hmark
        exact hskip (by rw [hmark, Option.getD_some]) h
      · rename_i hmark
        have hstay : (p.mark? c).getD p = p := by rw [hmark, Option.getD_none]
        split_ifs at h with htop
        · split at h
          · rename_i hfound
            cases h
            exact ⟨by rw [List.nil_append, Text.stripPrefix_eq_some_iff.mp hfound],
              isTop_iff.mp htop⟩
          · exact hskip hstay h
        · exact hskip hstay h

lemma eq_of_cutTopLevel {operator cs before after : List Char} {p : Position}
    (h : cutTopLevel operator p cs = some (before, after)) :
    cs = before ++ (operator ++ after) := (of_cutTopLevel h).1

/-! ### Parts and groups are shorter -/

/-- A part is a piece of the text, trimmed. -/
lemma exists_of_mem_partsWithin {operator : List Char} {fuel : Nat} {text part : List Char}
    (h : part ∈ partsWithin operator fuel text) :
    ∃ piece, part = Text.trimChars piece ∧ piece.length ≤ text.length := by
  induction fuel generalizing text with
  | zero => simp [partsWithin] at h
  | succ fuel ih =>
      by_cases hne : text = []
      · simp [hne, partsWithin] at h
      cases hcut : cutTopLevel operator {} text with
      | none =>
          rw [partsWithin_of_eq_none hne hcut, List.mem_singleton] at h
          exact ⟨text, h, le_rfl⟩
      | some parts =>
          obtain ⟨before, after⟩ := parts
          have hlength := congrArg List.length (eq_of_cutTopLevel hcut)
          simp only [List.length_append] at hlength
          rw [partsWithin_of_cut hcut] at h
          obtain rfl | h := List.mem_cons.mp h
          · exact ⟨before, rfl, by omega⟩
          · obtain ⟨piece, hpiece, hle⟩ := ih h
            exact ⟨piece, hpiece, by omega⟩

lemma parts?_eq_some_iff {k : Connective} {text : List Char} {parts : List (List Char)} :
    parts? k.sign text = some parts
      ↔ partsWithin k.operator (text.length + 1) text = parts ∧ 2 ≤ parts.length := by
  rw [parts?, Connective.sign_toList]
  constructor
  · intro h
    split at h
    · rename_i heq
      cases h
      exact ⟨heq, by simp⟩
    · cases h
  · rintro ⟨rfl, htwo⟩
    split
    · rename_i heq
      rw [heq]
    · rename_i hfew
      cases hparts : partsWithin k.operator (text.length + 1) text with
      | nil => simp [hparts] at htwo
      | cons first rest =>
          cases rest with
          | nil => simp [hparts] at htwo
          | cons second rest => exact absurd hparts (hfew first second rest)

lemma parts?_eq_none_of_cut {k : Connective} {text : List Char}
    (h : cutTopLevel k.operator {} text = none) : parts? k.sign text = none := by
  rw [Option.eq_none_iff_forall_not_mem]
  intro parts hparts
  obtain ⟨rfl, htwo⟩ := parts?_eq_some_iff.mp hparts
  by_cases hne : text = []
  · simp [hne, partsWithin] at htwo
  · simp [partsWithin_of_eq_none hne h] at htwo

/-- Where there are several parts, each of them is shorter than the text. -/
lemma length_lt_of_parts? {k : Connective} {text part : List Char} {parts : List (List Char)}
    (h : parts? k.sign text = some parts) (hpart : part ∈ parts) : part.length < text.length := by
  obtain ⟨rfl, htwo⟩ := parts?_eq_some_iff.mp h
  have hne : text ≠ [] := by
    rintro rfl
    simp [partsWithin] at htwo
  cases hcut : cutTopLevel k.operator {} text with
  | none => simp [partsWithin_of_eq_none hne hcut] at htwo
  | some found =>
      obtain ⟨before, after⟩ := found
      have hlength := congrArg List.length (eq_of_cutTopLevel hcut)
      simp only [List.length_append, Connective.operator, List.length_cons] at hlength
      rw [partsWithin_of_cut hcut] at hpart
      obtain rfl | hpart := List.mem_cons.mp hpart
      · have := Text.length_trimChars_le before
        omega
      · obtain ⟨piece, rfl, hle⟩ := exists_of_mem_partsWithin hpart
        have := Text.length_trimChars_le piece
        omega

lemma negations_suffix (odd : Bool) (text : List Char) : (negations odd text).2 <:+ text := by
  induction text generalizing odd with
  | nil => exact List.suffix_refl _
  | cons c rest ih =>
      rw [negations]
      split_ifs
      · exact List.suffix_refl _
      · exact (ih _).trans (List.suffix_cons c rest)
      · exact (ih _).trans (List.suffix_cons c rest)
      · exact List.suffix_refl _

/-- A group is what stands in parentheses around a whole text, trimmed. -/
lemma exists_of_group? {text grouped : List Char} (h : group? text = some grouped) :
    ∃ inner, text = '(' :: (inner ++ [')']) ∧ grouped = Text.trimChars inner := by
  rw [group?] at h
  obtain ⟨opened, hopened, h⟩ := Option.bind_eq_some_iff.mp h
  obtain ⟨closed, hclosed, h⟩ := Option.bind_eq_some_iff.mp h
  split_ifs at h
  cases h
  refine ⟨closed, ?_, rfl⟩
  rw [Text.stripPrefix_eq_some_iff.mp hopened, Text.stripSuffix_eq_some_iff.mp hclosed]
  rfl

lemma length_lt_of_group? {text grouped : List Char} (h : group? text = some grouped) :
    grouped.length < text.length := by
  obtain ⟨inner, rfl, rfl⟩ := exists_of_group? h
  have := Text.length_trimChars_le inner
  simp only [List.length_cons, List.length_append]
  omega

/-! ### Reading without fuel -/

/-- What stands behind all negations in front of a text. -/
def core (text : List Char) : List Char := Text.trimChars (negations false text).2

/-- Reads a condition, with as much fuel as there is text. -/
def read (text : List Char) : Except ConditionError Condition := node (text.length + 1) text

lemma mapM_congr {α β : Type} {f g : α → Except ConditionError β} {as : List α}
    (h : ∀ a ∈ as, f a = g a) : as.mapM f = as.mapM g := by
  induction as with
  | nil => rfl
  | cons a rest ih =>
      rw [List.mapM_cons, List.mapM_cons, h a List.mem_cons_self,
        ih fun b hb => h b (List.mem_cons_of_mem a hb)]

/-- **The fuel does not matter**, if there is more of it than text. -/
lemma node_congr {fuel fuel' : Nat} {text : List Char} (h : text.length < fuel)
    (h' : text.length < fuel') : node fuel text = node fuel' text := by
  induction fuel generalizing fuel' text with
  | zero => cases h
  | succ fuel ih =>
      obtain ⟨fuel', rfl⟩ := Nat.exists_eq_succ_of_ne_zero (Nat.ne_zero_of_lt h')
      have hparts : ∀ {k : Connective} {parts : List (List Char)}, parts? k.sign text = some parts →
          parts.mapM (node fuel) = parts.mapM (node fuel') := fun hcut =>
        mapM_congr fun part hpart => by
          have := length_lt_of_parts? hcut hpart
          exact ih (by omega) (by omega)
      rw [node, node]
      cases hor : parts? "||" text with
      | some parts =>
          dsimp only
          rw [hparts (k := .or) hor]
      | none =>
          cases hand : parts? "&&" text with
          | some parts =>
              dsimp only
              rw [hparts (k := .and) hand]
          | none =>
              dsimp only
              cases hgroup : group? (core text) with
              | none =>
                  rw [core] at hgroup
                  rw [hgroup]
              | some inner =>
                  have hinner := length_lt_of_group? hgroup
                  have hcore := Text.length_trimChars_le (negations false text).2
                  have hneg := (negations_suffix false text).length_le
                  rw [core] at hgroup hinner
                  rw [hgroup]
                  dsimp only
                  rw [ih (by omega) (by omega : inner.length < fuel')]

lemma node_eq_read {fuel : Nat} {text : List Char} (h : text.length < fuel) :
    node fuel text = read text := node_congr h (Nat.lt_succ_self _)

/-- The parts around a connective are read one by one. -/
lemma read_of_parts {k : Connective} {text : List Char} {parts : List (List Char)}
    (hlower : ∀ k' : Connective, k'.level < k.level → parts? k'.sign text = none)
    (h : parts? k.sign text = some parts) :
    read text = do return k.condition (← parts.mapM read) := by
  rw [read, node_of_parts hlower h,
    mapM_congr fun part hpart => node_eq_read (length_lt_of_parts? h hpart)]

/-- Reads what stands behind the negations: the inside of a group, or what is simple. -/
def readCore (text : List Char) : Except ConditionError Condition :=
  match group? (core text) with
  | some inner => read inner
  | none => simple (core text)

/-- Where there is no connective, what stands behind the negations is read. -/
lemma read_of_core {text : List Char} (hnone : ∀ k : Connective, parts? k.sign text = none) :
    read text = if core text = [] then .error .danglingNegation else
      (readCore text).map fun part => if (negations false text).1 then not part else part := by
  have hor : parts? "||" text = none := hnone .or
  have hand : parts? "&&" text = none := hnone .and
  rw [read, node, hor, hand]
  dsimp only
  rw [← core]
  by_cases hempty : core text = []
  · rw [if_pos hempty, if_pos hempty]
  · rw [if_neg hempty, if_neg hempty, readCore]
    cases hgroup : group? (core text) with
    | none =>
        dsimp only
        cases simple (core text) <;> rfl
    | some inner =>
        have hinner := length_lt_of_group? hgroup
        have hcore : (core text).length ≤ text.length :=
          (Text.length_trimChars_le _).trans ((negations_suffix false text).length_le)
        dsimp only
        rw [node_eq_read (hinner.trans_le hcore)]
        cases read inner <;> rfl

/-- What can be read is matched, and the reader has read it. -/
lemma of_ofText_eq_ok {text : String} {condition : Condition} (h : ofText text = .ok condition) :
    isBalanced {} (Text.trimChars text.toList) = true
      ∧ read (Text.trimChars text.toList) = .ok condition := by
  rw [ofText] at h
  split_ifs at h with hne hbalanced
  exact ⟨by simpa using hbalanced, h⟩

/-! ### Levels -/

/-- Whether something cannot be read. -/
def Failed {α : Type} (result : Except ConditionError α) : Prop := ∃ e, result = .error e

/-- A connective is looked for in a text unless one that binds less tightly has been found. -/
def LookedFor (k : Connective) (text : List Char) : Prop :=
  ∀ k' : Connective, k'.level < k.level → parts? k'.sign text = none

/-- A text that the reader comes to when it reads another one. -/
inductive Level (text : List Char) : List Char → Prop
  | whole : Level text text
  /-- A part around a connective. -/
  | part {level part : List Char} {k : Connective} {parts : List (List Char)}
      (above : Level text level) (lookedFor : LookedFor k level)
      (cut : parts? k.sign level = some parts) (mem : part ∈ parts) : Level text part
  /-- The inside of a group, where there is no connective. -/
  | group {level inner : List Char} (above : Level text level)
      (none : ∀ k : Connective, parts? k.sign level = none)
      (group : group? (core level) = some inner) : Level text inner

lemma Failed.bind {α β : Type} {result : Except ConditionError α} (h : Failed result)
    (f : α → Except ConditionError β) : Failed (result >>= f) := by
  obtain ⟨e, rfl⟩ := h
  exact ⟨e, rfl⟩

/-- Where one of several texts cannot be read, they cannot be read. -/
lemma failed_mapM {α β : Type} {f : α → Except ConditionError β} {as : List α} {a : α} (ha : a ∈ as)
    (h : Failed (f a)) : Failed (as.mapM f) := by
  induction as with
  | nil => cases ha
  | cons first rest ih =>
      rw [List.mapM_cons]
      obtain rfl | ha := List.mem_cons.mp ha
      · exact h.bind _
      · cases f first with
        | error e => exact ⟨e, rfl⟩
        | ok value => exact (ih ha).bind _

/-- A text is read as its parts, and not at all if one of them is not. -/
lemma failed_of_part {k : Connective} {text part : List Char} {parts : List (List Char)}
    (hlooked : LookedFor k text) (hcut : parts? k.sign text = some parts) (hpart : part ∈ parts)
    (h : Failed (read part)) : Failed (read text) := by
  rw [read_of_parts hlooked hcut]
  exact (failed_mapM hpart h).bind _

/-- A text without a connective is read as what stands behind its negations. -/
lemma failed_of_core {text : List Char} (hnone : ∀ k : Connective, parts? k.sign text = none)
    (h : Failed (readCore text)) : Failed (read text) := by
  rw [read_of_core hnone]
  by_cases hempty : core text = []
  · rw [if_pos hempty]
    exact ⟨_, rfl⟩
  · rw [if_neg hempty]
    obtain ⟨e, he⟩ := h
    exact ⟨e, by rw [he]; rfl⟩

/-- **What is wrong with a level is wrong with the whole text.** -/
theorem Level.failed {text level : List Char} (h : Level text level)
    (hlevel : Failed (read level)) : Failed (read text) := by
  induction h with
  | whole => exact hlevel
  | part above hlooked hcut hmem ih => exact ih (failed_of_part hlooked hcut hmem hlevel)
  | @group level inner above hnone hgroup ih =>
      have hread : Failed (readCore level) := by rwa [readCore, hgroup]
      exact ih (failed_of_core hnone hread)

/-- Levels are trimmed if the whole text is. -/
lemma Level.trimmed {text level : List Char} (h : Level text level)
    (htext : Text.trimChars text = text) : Text.trimChars level = level := by
  cases h with
  | whole => exact htext
  | part _ _ hcut hmem =>
      obtain ⟨rfl, -⟩ := parts?_eq_some_iff.mp hcut
      obtain ⟨piece, rfl, -⟩ := exists_of_mem_partsWithin hmem
      exact Text.trimChars_trimChars piece
  | group _ _ hgroup =>
      obtain ⟨inner, -, rfl⟩ := exists_of_group? hgroup
      exact Text.trimChars_trimChars inner

end Componentry.Condition
